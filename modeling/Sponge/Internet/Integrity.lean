import Sponge.Internet.Model

/-!
# What the internetwork delivers

Stations and routers only pass on what stations wrote: every datagram in the internetwork
descends from a segment that was passed to a `write()`, through copies and at most 127
routers, each of which takes one from the time to live and changes nothing else.  So what a
station reads is what a station wrote, addressed to it.

Main results:

- Theorem {lit}`Descends.shape`: what is left of a segment's datagram.
- Theorem {lit}`Internet.Sound.step`: an event keeps the internetwork sound.
- Theorem {lit}`datagrams_descend`: every datagram that waits somewhere, and every IPv4 frame that
  was ever sent, carries a segment that was passed to a `write()`.
- Theorem {lit}`segments_authentic`: a segment that a station reads was written to it by its peer.
- Theorem {lit}`internet_never_throws`: no call throws.
-/

namespace Sponge

open Library NetworkInterface

/-! ## The way of a segment -/

/-- The datagram comes from the segment `seg`, written under the configuration `cfg`, through
`hops` routers. -/
inductive Descends (cfg : FdAdapterConfig) (seg : TCPSegment) : Nat → IPv4Datagram → Prop where
  | wrapped {dgram : IPv4Datagram}
      (h : (TCPOverIPv4Adapter.wrapTcpInIp ⟨cfg, false⟩ seg).1 = .ok dgram) :
      Descends cfg seg 0 dgram
  | copied {hops : Nat} {dgram : IPv4Datagram} (h : Descends cfg seg hops dgram) :
      Descends cfg seg hops dgram.copy
  | forwarded {hops : Nat} {dgram : IPv4Datagram} (h : Descends cfg seg hops dgram)
      (httl : 1 < dgram.header.ttl.toNat) :
      Descends cfg seg (hops + 1) (Router.decrementTtl dgram)

/-- The segment with the ports of the configuration. -/
def FdAdapterConfig.withPorts (cfg : FdAdapterConfig) (seg : TCPSegment) : TCPSegment :=
  TCPOverIPv4Adapter.withPorts ⟨cfg, false⟩ seg

/-- The header of the segment's datagram. -/
def FdAdapterConfig.ipHeader (cfg : FdAdapterConfig) (seg : TCPSegment) : IPv4Header :=
  TCPOverIPv4Adapter.ipHeader ⟨cfg, false⟩ (cfg.withPorts seg)

variable {cfg : FdAdapterConfig} {seg seg' : TCPSegment} {hops : Nat} {dgram : IPv4Datagram}

/-- What is left of the segment's datagram: all but the time to live and the checksum. -/
structure Shape (cfg : FdAdapterConfig) (seg : TCPSegment) (hops : Nat) (dgram : IPv4Datagram) :
    Prop where
  header_eq : dgram.header = { cfg.ipHeader seg with
    ttl := dgram.header.ttl
    cksum := dgram.header.cksum }
  ttl_add : dgram.header.ttl.toNat + hops = 128
  ttl_pos : 0 < dgram.header.ttl.toNat
  payload_eq : ∃ list, (cfg.withPorts seg).serialize (cfg.ipHeader seg).pseudoCksum = .ok list ∧
    dgram.payload.concatenate = list.concatenate

/-- Nothing but the time to live and the checksum of a datagram changes on its way. -/
theorem Descends.shape (hsized : seg.Sized) (h : Descends cfg seg hops dgram) :
    Shape cfg seg hops dgram := by
  induction h with
  | wrapped hwrap =>
      obtain ⟨list, hlist, hspec, -⟩ := @TCPOverIPv4Adapter.wrapTcpInIp_spec ⟨cfg, false⟩ seg
        hsized.doff_ge hsized.size_le
      rw [hspec] at hwrap
      cases hwrap
      exact ⟨rfl, rfl, Nat.succ_pos 127, list, hlist, rfl⟩
  | copied _ ih =>
      refine ⟨?_, ih.ttl_add, ih.ttl_pos, ?_⟩
      · have hheader := ih.header_eq
        simp only [IPv4Datagram.copy, IPv4Datagram.headerOut, IPv4Header.withCksum]
        rw [hheader]
      · obtain ⟨list, hlist, hpayload⟩ := ih.payload_eq
        exact ⟨list, hlist, by rw [← hpayload]; exact BufferList.concatenate_ofBuffer _⟩
  | @forwarded hops dgram _ httl ih =>
      have hless : (dgram.header.ttl - 1).toNat = dgram.header.ttl.toNat - 1 :=
        UInt8.toNat_sub_of_le _ _ (UInt8.le_iff_toNat_le.mpr (by rw [UInt8.toNat_one]; omega))
      have hadd := ih.ttl_add
      refine ⟨?_, ?_, ?_, ih.payload_eq⟩
      · have hheader := ih.header_eq
        simp only [Router.decrementTtl]
        rw [hheader]
      · change (dgram.header.ttl - 1).toNat + (hops + 1) = 128
        omega
      · change 0 < (dgram.header.ttl - 1).toNat
        omega

/-- A datagram passes through at most 127 routers. -/
theorem Shape.hops_le (h : Shape cfg seg hops dgram) : hops ≤ 127 := by
  have hadd := h.ttl_add
  have hpos := h.ttl_pos
  omega

theorem Shape.wellFormed (hsized : seg.Sized) (h : Shape cfg seg hops dgram) :
    dgram.WellFormed := by
  have hheader := h.header_eq
  obtain ⟨list, hlist, hpayload⟩ := h.payload_eq
  have hge : 5 ≤ (cfg.withPorts seg).header.doff.toNat := hsized.doff_ge
  have hsize : dgram.payload.size = 4 * seg.header.doff.toNat + seg.payload.length := by
    rw [← BufferList.length_concatenate, hpayload, TCPSegment.concatenate_serialize hge hlist,
      TCPSegment.length_bytes]
    rfl
  have hlen := @TCPOverIPv4Adapter.toNat_len_ipHeader ⟨cfg, false⟩ (cfg.withPorts seg)
    hsized.size_le
  have hver : dgram.header.ver = 4 := by
    rw [hheader]
    rfl
  have hhlen : dgram.header.hlen = 5 := by
    rw [hheader]
    rfl
  have htotal : dgram.header.len.toNat = 20 + 4 * seg.header.doff.toNat + seg.payload.length := by
    rw [hheader]
    exact hlen
  refine ⟨hver, ?_, ?_, ?_⟩
  · rw [hhlen]
    decide
  · rw [hhlen]
    decide
  · rw [htotal, hhlen, hsize]
    exact Nat.add_assoc ..

theorem Shape.offset_lt (h : Shape cfg seg hops dgram) :
    dgram.header.offset.toNat < 2 ^ 13 := by
  rw [h.header_eq]
  change (0 : UInt16).toNat < 2 ^ 13
  decide

/-- The segment as it arrives, with its ports set and its checksum filled in. -/
def FdAdapterConfig.delivered (cfg : FdAdapterConfig) (seg : TCPSegment) : TCPSegment :=
  { seg with header := { seg.header with
      sport := cfg.source.port
      dport := cfg.destination.port
      cksum := (cfg.withPorts seg).cksumOut (cfg.ipHeader seg).pseudoCksum } }

/-- A copy of a datagram carries the segment that it descends from. -/
theorem Shape.carried (hsized : seg.Sized) (h : Shape cfg seg hops dgram) :
    TCPOverIPv4Adapter.carried dgram.copy = some (cfg.delivered seg) := by
  obtain ⟨list, hlist, hpayload⟩ := h.payload_eq
  have hparse := @TCPSegment.parse_serialize (cfg.withPorts seg) hsized.doff_ge
    (Nat.lt_succ_of_le hsized.doff_le) hsized.size_le _ (IPv4Header.pseudoCksum_lt _) _ hlist {}
  have hproto : dgram.copy.header.proto = IPv4Header.protoTCP := by
    change dgram.header.proto = _
    rw [h.header_eq]
    rfl
  have hpseudo : dgram.copy.header.pseudoCksum = (cfg.ipHeader seg).pseudoCksum := by
    change dgram.header.pseudoCksum = _
    rw [h.header_eq]
    rfl
  have hbuffer : dgram.copy.payload.toBuffer = .ok list.concatenate := by
    rw [← hpayload]
    exact BufferList.toBuffer_ofBuffer _
  rw [TCPOverIPv4Adapter.carried, if_pos hproto, hbuffer]
  simp only [hpseudo, hparse, if_true]
  rfl

/-- An adapter returns a segment only if its configuration mirrors that of the writer.  One that
listens is bound to the writer by it, if it is a SYN to its port. -/
theorem Shape.unwrap (hsized : seg.Sized) (h : Shape cfg seg hops dgram)
    {a a' : TCPOverIPv4Adapter} (hunwrap : a.unwrapTcpInIp dgram.copy = (.ok (some seg'), a')) :
    seg' = cfg.delivered seg ∧ a' = ⟨⟨cfg.destination, cfg.source⟩, false⟩ ∧
      (a.listen = false → a' = a) ∧
      (a.listen = true → cfg.destination.port = a.cfg.source.port ∧ seg.header.syn = true) := by
  have hsrc : dgram.copy.header.src = cfg.source.ipv4Numeric := by
    change dgram.header.src = _
    rw [h.header_eq]
    rfl
  have hdst : dgram.copy.header.dst = cfg.destination.ipv4Numeric := by
    change dgram.header.dst = _
    rw [h.header_eq]
    rfl
  rw [TCPOverIPv4Adapter.unwrapTcpInIp_some (h.carried hsized), hsrc, hdst] at hunwrap
  cases hlisten : a.listen with
  | true =>
      rw [if_pos hlisten] at hunwrap
      split at hunwrap
      · rename_i hopens
        rw [Prod.mk.injEq, Except.ok.injEq, Option.some.injEq] at hunwrap
        obtain ⟨rfl, rfl⟩ := hunwrap
        have hport : cfg.destination.port = a.cfg.source.port := hopens.1
        refine ⟨rfl, ?_, fun hbound => (by cases hbound), fun _ => ⟨hport, hopens.2.1⟩⟩
        rw [TCPOverIPv4Adapter.boundTo, hsrc, hdst, ← hport]
        rfl
      · rw [Prod.mk.injEq] at hunwrap
        cases hunwrap.1
  | false =>
      rw [if_neg (Bool.eq_false_iff.mp hlisten)] at hunwrap
      split at hunwrap
      · rename_i hmatches
        rw [Prod.mk.injEq, Except.ok.injEq, Option.some.injEq] at hunwrap
        obtain ⟨rfl, rfl⟩ := hunwrap
        obtain ⟨hsourceIp, hdestinationIp, hsourcePort, hdestinationPort⟩ := hmatches
        refine ⟨rfl, ?_, fun _ => rfl, fun hother => (by cases hother)⟩
        obtain ⟨⟨⟨sourceIp, sourcePort⟩, ⟨destinationIp, destinationPort⟩⟩, listen⟩ := a
        obtain ⟨⟨_, _⟩, ⟨_, _⟩⟩ := cfg
        cases hsourceIp
        cases hdestinationIp
        cases hsourcePort
        cases hdestinationPort
        cases hlisten
        rfl
      · rw [Prod.mk.injEq] at hunwrap
        cases hunwrap.1

/-! ## The invariant -/

namespace Internet

variable {ι κ : Type}

/-- The datagram descends from a segment of the list. -/
def From (written : List (Written ι)) (dgram : IPv4Datagram) : Prop :=
  ∃ w ∈ written, ∃ hops, Descends w.cfg w.seg hops dgram

theorem travels_from {written : List (Written ι)} (hsized : ∀ w ∈ written, w.seg.Sized) :
    Travels (From written) where
  wellFormed := by
    rintro dgram ⟨w, hw, hops, hdescends⟩
    exact (hdescends.shape (hsized w hw)).wellFormed (hsized w hw)
  offset_lt := by
    rintro dgram ⟨w, hw, hops, hdescends⟩
    exact (hdescends.shape (hsized w hw)).offset_lt
  copied := by
    rintro dgram ⟨w, hw, hops, hdescends⟩
    exact ⟨w, hw, hops, hdescends.copied⟩
  forwarded := by
    rintro dgram ⟨w, hw, hops, hdescends⟩ httl
    exact ⟨w, hw, hops + 1, hdescends.forwarded httl⟩

/-- Whatever is kept or was sent descends from a segment that was written, and no call throws;
`rules k` are the rules of router `k`. -/
structure Sound (rules : κ → List Router.Rule) (n : Internet ι κ) : Prop where
  sized : ∀ w ∈ n.written, w.seg.Sized
  station : ∀ s, (n.station s).Carrying (From n.written)
  router : ∀ k, (n.router k).Carrying (From n.written)
  calm : ∀ k, Router.Calm (rules k) (n.router k)
  wire : ∀ bytes ∈ n.wire, Genuine (From n.written) bytes

variable {rules : κ → List Router.Rule} {n : Internet ι κ}

/-- The datagram waits in an interface for an Ethernet address, or in a router for its way. -/
inductive Queued (n : Internet ι κ) (dgram : IPv4Datagram) : Prop
  | station (s : ι) (ip : UInt32) (h : dgram ∈ (n.station s).interface.unsentDatagram ip)
  | interface (k : κ) (m : AsyncNetworkInterface) (hm : m ∈ (n.router k).interfaces) (ip : UInt32)
      (h : dgram ∈ m.unsentDatagram ip)
  | router (k : κ) (m : AsyncNetworkInterface) (hm : m ∈ (n.router k).interfaces)
      (h : dgram ∈ m.datagramsOut)

/-- The frame was sent, or waits in an interface to be sent. -/
inductive Underway (n : Internet ι κ) : EthernetFrame → Prop
  | sent {bytes : Buffer} (h : bytes ∈ n.wire) : Underway n (arriving bytes)
  | station (s : ι) {frame : EthernetFrame} (h : frame ∈ (n.station s).interface.framesOut) :
      Underway n (gathered frame)
  | router (k : κ) (m : AsyncNetworkInterface) (hm : m ∈ (n.router k).interfaces)
      {frame : EthernetFrame} (h : frame ∈ m.framesOut) : Underway n (gathered frame)

/-- A datagram that waits descends from a segment that was written. -/
theorem Sound.queued (h : Sound rules n) {dgram : IPv4Datagram} (hqueued : n.Queued dgram) :
    From n.written dgram := by
  cases hqueued with
  | station s ip hmem => exact (h.station s).interface.waiting ip dgram hmem
  | interface k m hm ip hmem => exact ((h.router k).interface m hm).waiting ip dgram hmem
  | router k m hm hmem => exact (h.router k).queued m hm dgram hmem

/-- An IPv4 frame bears a datagram that descends from a segment that was written. -/
theorem Sound.underway (h : Sound rules n) {frame : EthernetFrame} (hunderway : n.Underway frame)
    (htype : frame.header.type = EthernetHeader.typeIPv4) :
    ∃ sent, Bears (From n.written) sent ∧ frame = gathered sent := by
  cases hunderway with
  | sent hmem => exact h.wire _ hmem htype
  | station s hmem => exact ⟨_, (h.station s).interface.honest _ hmem, rfl⟩
  | router k m hm hmem => exact ⟨_, ((h.router k).interface m hm).honest _ hmem, rfl⟩

theorem sound_new (station : ι → StationPlan) (router : κ → RouterPlan)
    (hvalid : ∀ k, (router k).Valid) :
    Sound (fun k => (router k).rules) (new station router) where
  sized _ h := absurd h List.not_mem_nil
  station s :=
    have hnew := TCPOverIPv4OverEthernetAdapter.carrying_new (station s).ethAddress
      (station s).ipAddress (station s).nextHop
    ⟨hnew.interface, hnew.tap⟩
  router k := by
    change (Router.fresh (router k).interfaces (router k).rules).Carrying _
    rw [Router.fresh, Router.foldl_addRule]
    refine ⟨?_, ?_⟩
    · intro m hm
      obtain ⟨address, -, rfl⟩ := List.mem_map.mp hm
      exact NetworkInterface.carrying_new address.1 address.2
    · intro m hm
      obtain ⟨address, -, rfl⟩ := List.mem_map.mp hm
      exact fun _ h => absurd h List.not_mem_nil
  calm k := Router.calm_fresh (router k).interfaces (hvalid k)
  wire _ h := absurd h List.not_mem_nil

theorem Sound.travels (h : Sound rules n) : Travels (From n.written) :=
  travels_from h.sized

/-- One more segment is written. -/
theorem Sound.submit (h : Sound rules n) {w : Written ι} (hw : w.seg.Sized) :
    Sound rules { n with written := n.written ++ [w] } := by
  have hmono : ∀ dgram, From n.written dgram → From (n.written ++ [w]) dgram := by
    rintro dgram ⟨w', hw', hdescends⟩
    exact ⟨w', List.mem_append_left _ hw', hdescends⟩
  refine ⟨?_, fun s => (h.station s).mono hmono, fun k => (h.router k).mono hmono, h.calm,
    fun bytes hbytes => (h.wire bytes hbytes).mono hmono⟩
  intro w' hw'
  rcases List.mem_append.mp hw' with hw' | hw'
  · exact h.sized w' hw'
  · rw [List.mem_singleton.mp hw']
    exact hw

/-- What arrives is genuine. -/
theorem Sound.genuine (h : Sound rules n) {arrival : Arrival} (hlegal : arrival.Legal)
    {bytes : Buffer} (hbytes : n.bytes arrival = some bytes) : Genuine (From n.written) bytes := by
  cases arrival with
  | copy index => exact h.wire bytes (List.mem_of_getElem? hbytes)
  | noise bytes' =>
      cases hbytes
      exact fun htype => absurd htype hlegal

/-- A station becomes another one. -/
theorem Sound.become [DecidableEq ι] (h : Sound rules n) (s : ι)
    {a : TCPOverIPv4OverEthernetAdapter}
    (ha : a.Carrying (From n.written)) : Sound rules (n.become s a) where
  sized := h.sized
  station t := by
    by_cases hst : t = s
    · subst hst
      simp only [Internet.become, Function.update_self]
      exact ⟨ha.interface, fun bytes hbytes => absurd hbytes List.not_mem_nil⟩
    · simp only [Internet.become, Function.update_of_ne hst]
      exact h.station t
  router := h.router
  calm := h.calm
  wire bytes hbytes := by
    rcases List.mem_append.mp hbytes with hbytes | hbytes
    · exact h.wire bytes hbytes
    · exact ha.tap bytes hbytes

/-- A router becomes another one. -/
theorem Sound.becomeRouter [DecidableEq κ] (h : Sound rules n) (k : κ) {r : Router}
    (hr : r.Carrying (From n.written)) (hcalm : Router.Calm (rules k) r) :
    Sound rules (n.becomeRouter k r) where
  sized := h.sized
  station := h.station
  router j := by
    by_cases hjk : j = k
    · subst hjk
      simpa only [Internet.becomeRouter, Function.update_self] using hr
    · simpa only [Internet.becomeRouter, Function.update_of_ne hjk] using h.router j
  calm j := by
    by_cases hjk : j = k
    · subst hjk
      simpa only [Internet.becomeRouter, Function.update_self] using hcalm
    · simpa only [Internet.becomeRouter, Function.update_of_ne hjk] using h.calm j
  wire := h.wire

/-- A frame leaves a router. -/
theorem Sound.transmit [DecidableEq κ] (h : Sound rules n) (k : κ) (i : Nat)
    {frame : EthernetFrame} {r : Router}
    (hpop : (n.router k).popFrame i = (some frame, r)) :
    Sound rules { n.becomeRouter k r with wire := n.wire ++ [frame.serialize.concatenate] } := by
  unfold Router.popFrame at hpop
  split at hpop
  · cases hpop
  · rename_i m hm
    have hmem := List.mem_of_getElem? hm
    split at hpop
    · cases hpop
    · rename_i first frames hframes
      cases hpop
      have hcarrying := (h.router k).interface m hmem
      have hcalm := (h.calm k).calm m hmem
      have hrest : ∀ frame ∈ frames, frame ∈ m.framesOut := by
        intro frame hframe
        rw [hframes]
        exact List.mem_cons_of_mem _ hframe
      have hbecome := h.becomeRouter k
        ((h.router k).set i (n := { m with framesOut := frames }) (hcarrying.withFrames hrest)
          ((h.router k).queued m hmem))
        ((h.calm k).set i ⟨hcalm.waiting, hcalm.queued⟩)
      refine ⟨hbecome.sized, hbecome.station, hbecome.router, hbecome.calm, ?_⟩
      intro bytes hbytes
      rcases List.mem_append.mp hbytes with hbytes | hbytes
      · exact h.wire bytes hbytes
      · rw [List.mem_singleton.mp hbytes]
        refine Bears.genuine (hcarrying.honest _ ?_)
        rw [hframes]
        exact List.mem_cons_self

/-- A segment of sound size is written. -/
theorem Sound.write [DecidableEq ι] (h : Sound rules n) (s : ι) {seg : TCPSegment}
    (hseg : seg.Sized) :
    ((n.station s).write seg).1 = .ok () ∧
      Sound rules { n.become s ((n.station s).write seg).2.2 with
        written := n.written ++ [⟨s, (n.station s).cfg, seg⟩] } := by
  obtain ⟨list, -, hwrap, -⟩ := @TCPOverIPv4Adapter.wrapTcpInIp_spec
    (n.station s).toTCPOverIPv4Adapter seg hseg.doff_ge hseg.size_le
  have hsubmit := h.submit (w := ⟨s, (n.station s).cfg, seg⟩) hseg
  have hfirst := congrArg Prod.fst hwrap
  obtain ⟨hok, hcarrying⟩ := (hsubmit.station s).write hsubmit.travels hfirst
    ⟨_, List.mem_append_right _ List.mem_cons_self, 0, .wrapped hfirst⟩
  exact ⟨hok, hsubmit.become s hcarrying⟩

/-- A router takes a frame. -/
theorem Sound.recvFrame [DecidableEq κ] (h : Sound rules n) {k : κ} {i : Nat} {bytes : Buffer}
    (hi : i < (n.router k).interfaces.length) (hbytes : Genuine (From n.written) bytes) :
    ((n.router k).recvFrameAt i (arriving bytes)).1 = .ok () ∧
      Sound rules (n.becomeRouter k ((n.router k).recvFrameAt i (arriving bytes)).2) := by
  have hbrings : (Router.Event.recvFrame i (arriving bytes)).Brings (rules k) (n.router k) := by
    intro m hm htype hdst buffer hbuffer hparse
    obtain ⟨buffer', hbuffer'⟩ : ∃ buffer', (arriving bytes).payload.toBuffer = .ok buffer' :=
      ⟨_, rfl⟩
    obtain rfl : buffer' = buffer := by
      rw [hbuffer'] at hbuffer
      exact Option.some_inj.mp hbuffer
    have hresult := NetworkInterface.recvFrame_accepted (n := m.toNetworkInterface) htype hdst
      hbuffer' (Prod.ext hparse rfl)
    obtain ⟨original, horiginal, hsame⟩ := hbytes.received h.travels (congrArg Prod.fst hresult)
    have hwell := h.travels.wellFormed _ (h.travels.copied original horiginal)
    rw [← hsame] at hwell
    exact Or.inr (Or.inr ⟨hwell.ver_eq, hwell.hlen_ge⟩)
  obtain ⟨hok, hcalm⟩ := (h.calm k).recvFrameAt ⟨hi, length_buffers_arriving bytes⟩ hbrings
  exact ⟨hok, h.becomeRouter k ((h.router k).recvFrameAt h.travels i hbytes) hcalm⟩

variable [DecidableEq ι] [DecidableEq κ]

/-- A legal event throws nothing and keeps the internetwork sound. -/
theorem Sound.call (shift32 : UInt32 → UInt32) (h : Sound rules n) {e : Event ι κ}
    (hlegal : e.Legal n) :
    (∃ result, (n.call shift32 e).1 = .ok result) ∧ Sound rules (n.call shift32 e).2 := by
  cases e with
  | configure s base =>
      exact ⟨⟨none, rfl⟩, h.become s ⟨(h.station s).interface, (h.station s).tap⟩⟩
  | write s seg =>
      obtain ⟨hok, hsound⟩ := h.write s hlegal
      exact ⟨⟨none, by simp only [Internet.call, hok]; rfl⟩, hsound⟩
  | read s arrival =>
      simp only [Internet.call]
      split
      · exact ⟨⟨none, rfl⟩, h⟩
      · rename_i bytes hbytes
        obtain ⟨hok, hcarrying⟩ := (h.station s).read h.travels bytes
        exact ⟨hok, h.become s hcarrying⟩
  | tick s ms => exact ⟨⟨none, rfl⟩, h.become s ((h.station s).tick ms)⟩
  | recvFrame k i arrival =>
      simp only [Internet.call]
      split
      · exact ⟨⟨none, rfl⟩, h⟩
      · rename_i bytes hbytes
        obtain ⟨hok, hsound⟩ := h.recvFrame hlegal.1 (h.genuine hlegal.2 hbytes)
        simp only [parse_eq, ne_eq, not_true_eq_false, if_false, hok]
        exact ⟨⟨none, rfl⟩, hsound⟩
  | route k =>
      obtain ⟨hok, hcalm⟩ := (h.calm k).call shift32 (e := .route) trivial trivial
      change ((n.router k).route shift32).1 = .ok () at hok
      refine ⟨⟨none, by simp only [Internet.call, hok]; rfl⟩, ?_⟩
      exact h.becomeRouter k ((h.router k).route h.travels shift32) hcalm
  | tickAt k i ms =>
      obtain ⟨hok, hcalm⟩ := (h.calm k).call shift32 (e := .tick i ms) hlegal trivial
      change ((n.router k).tickAt i ms).1 = .ok () at hok
      refine ⟨⟨none, by simp only [Internet.call, hok]; rfl⟩, ?_⟩
      exact h.becomeRouter k ((h.router k).tickAt i ms) hcalm
  | transmit k i =>
      simp only [Internet.call]
      split
      · exact ⟨⟨none, rfl⟩, h⟩
      · rename_i frame r hpop
        exact ⟨⟨none, rfl⟩, h.transmit k i hpop⟩

/-- A segment that a station reads was written to it, and its writer is now its peer. -/
theorem Sound.read_returns (shift32 : UInt32 → UInt32) (h : Sound rules n) {s : ι}
    {arrival : Arrival} (hlegal : arrival.Legal) {seg : TCPSegment}
    (hread : (n.call shift32 (.read s arrival)).1 = .ok (some seg)) :
    ∃ w ∈ n.written, seg = w.cfg.delivered w.seg ∧
      ((n.step shift32 (.read s arrival)).station s).toTCPOverIPv4Adapter =
        ⟨⟨w.cfg.destination, w.cfg.source⟩, false⟩ ∧
      ((n.station s).listen = false →
        ((n.step shift32 (.read s arrival)).station s).toTCPOverIPv4Adapter =
          (n.station s).toTCPOverIPv4Adapter) ∧
      ((n.station s).listen = true →
        w.cfg.destination.port = (n.station s).cfg.source.port ∧ w.seg.header.syn = true) := by
  simp only [Internet.step, Internet.call] at hread ⊢
  split at hread
  · cases hread
  · rename_i bytes hbytes
    obtain ⟨original, ⟨w, hw, hops, hdescends⟩, hunwrap⟩ :=
      (h.station s).read_returns h.travels (h.genuine hlegal hbytes) hread
    have hsized := h.sized w hw
    refine ⟨w, hw, ?_⟩
    simp only [Internet.become, Function.update_self]
    exact (hdescends.shape hsized).unwrap hsized hunwrap

/-! ## Runs -/

section Runs

variable (shift32 : UInt32 → UInt32) (station : ι → StationPlan) (router : κ → RouterPlan)

/-- What is sound at the start is sound after every run. -/
theorem sound_run (hvalid : ∀ k, (router k).Valid) {events : List (Event ι κ)}
    (hrun : Admissible (step shift32) Event.Legal (new station router) events) :
    Sound (fun k => (router k).rules) (run (step shift32) (new station router) events) :=
  hrun.invariant (fun _ _ h hlegal => (h.call shift32 hlegal).2) (sound_new station router hvalid)

/-- In every run in which the segments that are written fit into a datagram, the interfaces that
are named exist, and no IPv4 frame arrives that was not sent before, whatever else the links, the
rules of the routers and the ARP messages do: a datagram that waits in an interface or a router
descends from a segment that a station wrote, through at most 127 routers, and its time to live says
through how many.  An IPv4 frame that was sent, or waits to be sent, carries such a datagram, and
in it the segment: with its ports set, a valid checksum and nothing else changed. -/
theorem datagrams_descend (hvalid : ∀ k, (router k).Valid) (events : List (Event ι κ))
    (hrun : Admissible (step shift32) Event.Legal (new station router) events) :
    let n := run (step shift32) (new station router) events
    (∀ dgram, n.Queued dgram → ∃ w ∈ n.written, ∃ hops, Descends w.cfg w.seg hops dgram ∧
        hops ≤ 127 ∧ dgram.header.ttl.toNat = 128 - hops) ∧
      ∀ frame, n.Underway frame → frame.header.type = EthernetHeader.typeIPv4 →
        ∃ w ∈ n.written, ∃ hops dgram, Descends w.cfg w.seg hops dgram ∧ hops ≤ 127 ∧
          dgram.header.ttl.toNat = 128 - hops ∧
          ({} : IPv4Datagram).parse frame.payload.concatenate = (.noError, dgram) ∧
          TCPOverIPv4Adapter.carried dgram = some (w.cfg.delivered w.seg) := by
  intro n
  have hsound := sound_run shift32 station router hvalid hrun
  refine ⟨fun dgram hqueued => ?_, fun frame hunderway htype => ?_⟩
  · obtain ⟨w, hw, hops, hdescends⟩ := hsound.queued hqueued
    have hshape := hdescends.shape (hsound.sized w hw)
    have hadd := hshape.ttl_add
    exact ⟨w, hw, hops, hdescends, hshape.hops_le, by omega⟩
  · obtain ⟨sent, hsent, rfl⟩ := hsound.underway hunderway htype
    cases hsent with
    | datagram _ original _ _ horiginal hpayload =>
        obtain ⟨w, hw, hops, hdescends⟩ := horiginal
        have hsized := hsound.sized w hw
        have hshape := hdescends.shape hsized
        have hparse := IPv4Datagram.parse_serialize (hshape.wellFormed hsized) hshape.offset_lt
          hpayload {}
        have hadd := hshape.ttl_add
        refine ⟨w, hw, hops, original.copy, hdescends.copied, hshape.hops_le, ?_, ?_,
          hshape.carried hsized⟩
        · change original.header.ttl.toNat = 128 - hops
          omega
        · rw [gathered, BufferList.concatenate_ofBuffer, hparse]
          rfl
    | arp message harp =>
        change sent.header.type = _ at htype
        rw [htype] at harp
        exact absurd harp (by decide)

/-- A SYN crosses a router after two address resolutions. -/
theorem datagrams_descend_routed :
    let a : StationPlan := ⟨⟨⟨⟨1, 80⟩, ⟨2, 90⟩⟩, false⟩, ⟨[2, 0, 0, 0, 0, 1], rfl⟩, ⟨1, 0⟩, ⟨9, 0⟩⟩
    let b : StationPlan := ⟨⟨⟨⟨0, 90⟩, ⟨0, 0⟩⟩, true⟩, ⟨[2, 0, 0, 0, 0, 2], rfl⟩, ⟨2, 0⟩, ⟨8, 0⟩⟩
    let r : RouterPlan :=
      ⟨[(⟨[2, 0, 0, 0, 0, 9], rfl⟩, ⟨9, 0⟩), (⟨[2, 0, 0, 0, 0, 8], rfl⟩, ⟨8, 0⟩)],
        [⟨1, 32, none, 0⟩, ⟨2, 32, none, 1⟩]⟩
    let station : Bool → StationPlan := fun s => if s then b else a
    let events : List (Event Bool Unit) :=
      [.write false ⟨{ syn := true, win := 7 }, [5]⟩, .recvFrame () 0 (.copy 1), .transmit () 0,
        .read false (.copy 2), .recvFrame () 0 (.copy 3), .route (), .transmit () 1,
        .read true (.copy 4), .recvFrame () 1 (.copy 6), .transmit () 1]
    ∃ bytes ∈ (run (step id) (new station fun _ => r) events).wire,
      (arriving bytes).header.dst = b.ethAddress ∧
      ∃ w ∈ (run (step id) (new station fun _ => r) events).written, ∃ hops dgram,
        Descends w.cfg w.seg hops dgram ∧ hops ≤ 127 ∧ dgram.header.ttl.toNat = 128 - hops ∧
        ({} : IPv4Datagram).parse (arriving bytes).payload.concatenate = (.noError, dgram) ∧
        TCPOverIPv4Adapter.carried dgram = some (w.cfg.delivered w.seg) := by
  intro a b r station events
  have hall := datagrams_descend id station (fun _ => r) (fun _ => by decide) events
    (by decide +kernel)
  have hframe : ((run (step id) (new station fun _ => r) events).wire[7]?.any fun bytes =>
      decide ((arriving bytes).header.type = EthernetHeader.typeIPv4 ∧
        (arriving bytes).header.dst = b.ethAddress)) = true := by decide +kernel
  generalize run (step id) (new station fun _ => r) events = n at hall hframe ⊢
  obtain ⟨bytes, hbytes, hheader⟩ := (Option.any_eq_true _ _).mp hframe
  obtain ⟨htype, hdst⟩ := of_decide_eq_true hheader
  have hmem := List.mem_of_getElem? hbytes
  exact ⟨bytes, hmem, hdst, hall.2 _ (.sent hmem) htype⟩

/-- In such a run, a segment that a station reads was passed to `write()` by a station, perhaps the
same, whose addresses are the reverse of the reader's: the reader is connected to it, or was
listening and is now.  Everything but the ports and the checksum is as it was written.  An adapter
that is connected stays as it is; one that listens takes only a SYN to its port. -/
theorem segments_authentic (hvalid : ∀ k, (router k).Valid) (events : List (Event ι κ))
    (s : ι) (arrival : Arrival) (seg : TCPSegment)
    (hrun : Admissible (step shift32) Event.Legal (new station router)
      (events ++ [.read s arrival])) :
    let n := run (step shift32) (new station router) events
    let n' := n.step shift32 (.read s arrival)
    (n.call shift32 (.read s arrival)).1 = .ok (some seg) →
      ∃ w ∈ n.written, seg = w.cfg.delivered w.seg ∧
        (n'.station s).toTCPOverIPv4Adapter = ⟨⟨w.cfg.destination, w.cfg.source⟩, false⟩ ∧
        ((n.station s).listen = false →
          (n'.station s).toTCPOverIPv4Adapter = (n.station s).toTCPOverIPv4Adapter) ∧
        ((n.station s).listen = true →
          w.cfg.destination.port = (n.station s).cfg.source.port ∧ w.seg.header.syn = true) := by
  intro n n' hread
  obtain ⟨hrun, hlegal⟩ := hrun.concat
  exact (sound_run shift32 station router hvalid hrun).read_returns shift32 hlegal hread

/-- A listening station reads a SYN that crossed a router. -/
theorem segments_authentic_listening :
    let a : StationPlan := ⟨⟨⟨⟨1, 80⟩, ⟨2, 90⟩⟩, false⟩, ⟨[2, 0, 0, 0, 0, 1], rfl⟩, ⟨1, 0⟩, ⟨9, 0⟩⟩
    let b : StationPlan := ⟨⟨⟨⟨0, 90⟩, ⟨0, 0⟩⟩, true⟩, ⟨[2, 0, 0, 0, 0, 2], rfl⟩, ⟨2, 0⟩, ⟨8, 0⟩⟩
    let r : RouterPlan :=
      ⟨[(⟨[2, 0, 0, 0, 0, 9], rfl⟩, ⟨9, 0⟩), (⟨[2, 0, 0, 0, 0, 8], rfl⟩, ⟨8, 0⟩)],
        [⟨1, 32, none, 0⟩, ⟨2, 32, none, 1⟩]⟩
    let station : Bool → StationPlan := fun s => if s then b else a
    let events : List (Event Bool Unit) :=
      [.write false ⟨{ syn := true, win := 7 }, [5]⟩, .recvFrame () 0 (.copy 1), .transmit () 0,
        .read false (.copy 2), .recvFrame () 0 (.copy 3), .route (), .transmit () 1,
        .read true (.copy 4), .recvFrame () 1 (.copy 6), .transmit () 1]
    let e : Event Bool Unit := .read true (.copy 7)
    ∃ seg, ((run (step id) (new station fun _ => r) events).call id e).1 = .ok (some seg) ∧
      ∃ w ∈ (run (step id) (new station fun _ => r) events).written,
        seg = w.cfg.delivered w.seg ∧
        (((run (step id) (new station fun _ => r) events).step id e).station
          true).toTCPOverIPv4Adapter = ⟨⟨w.cfg.destination, w.cfg.source⟩, false⟩ := by
  intro a b r station events e
  let seg : TCPSegment := ⟨{ sport := 80, dport := 90, syn := true, win := 7, cksum := 43566 }, [5]⟩
  have hread : ((run (step id) (new station fun _ => r) events).call id e).1 = .ok (some seg) := by
    decide +kernel
  have hall := segments_authentic id station (fun _ => r) (fun _ => by decide) events true (.copy 7)
    seg (by decide +kernel)
  generalize run (step id) (new station fun _ => r) events = n at hall hread ⊢
  obtain ⟨w, hw, hdelivered, hbound, -⟩ := hall hread
  exact ⟨seg, hread, w, hw, hdelivered, hbound⟩

end Runs

end Internet
end Sponge
