import Sponge.NetworkInterface.Segment
import Sponge.Router.Exceptions
import Sponge.TCPOverIPv4.Peer
import Sponge.TCPOverIPv4.Tuntap

/-!
# Where datagrams come from

Interfaces, adapters and routers send on datagrams that they were given.  A property of
datagrams that survives the way through a frame and the way through a router holds of
everything that they keep and send, if it holds of what they are given.  What they learn from
ARP messages does not matter for this: a forged message sends a datagram to another host, but
it does not change the datagram.

Main results:

- Theorems {lit}`Carrying.sendDatagram` and {lit}`Carrying.recvFrame`: the calls of an interface.
- Theorems {lit}`TCPOverIPv4OverEthernetAdapter.Carrying.read` and
  {lit}`TCPOverIPv4OverEthernetAdapter.Carrying.write`: the calls of an adapter.
- Theorem {lit}`Router.Carrying.route`: `route()`.
-/

namespace Sponge

/-- The datagram as it is read from a frame that carries `dgram`. -/
def IPv4Datagram.copy (dgram : IPv4Datagram) : IPv4Datagram :=
  ⟨dgram.headerOut, BufferList.ofBuffer dgram.payload.concatenate⟩

/-- Datagrams with the property can be serialised, and keep it on their way through frames and
routers. -/
structure Travels (P : IPv4Datagram → Prop) : Prop where
  wellFormed : ∀ dgram, P dgram → dgram.WellFormed
  offset_lt : ∀ dgram, P dgram → dgram.header.offset.toNat < 2 ^ 13
  copied : ∀ dgram, P dgram → P dgram.copy
  forwarded : ∀ dgram, P dgram → 1 < dgram.header.ttl.toNat → P (Router.decrementTtl dgram)

/-- A parsed datagram has its payload in one buffer. -/
theorem IPv4Datagram.length_buffers_of_parse {old dgram : IPv4Datagram} {buffer : Buffer}
    {result : ParseResult} (h : old.parse buffer = (result, dgram)) :
    dgram.payload.buffers.length = 1 := by
  unfold parse at h
  obtain ⟨_, header, p⟩ := old.header.parse ⟨buffer, .noError⟩
  simp only [Prod.mk.injEq] at h
  obtain ⟨-, rfl⟩ := h
  rfl

/-- A datagram in one buffer is unwrapped without a throw. -/
theorem TCPOverIPv4Adapter.unwrapTcpInIp_ok {a : TCPOverIPv4Adapter} {ipDgram : IPv4Datagram}
    (hone : ipDgram.payload.buffers.length = 1) :
    ∃ returned, (a.unwrapTcpInIp ipDgram).1 = .ok returned := by
  cases hcarried : carried ipDgram with
  | none =>
      rw [unwrapTcpInIp_none hone hcarried]
      exact ⟨none, rfl⟩
  | some seg =>
      rw [unwrapTcpInIp_some hcarried]
      split_ifs <;> exact ⟨_, rfl⟩

variable {P Q : IPv4Datagram → Prop}

/-! ## Frames -/

namespace NetworkInterface

/-- A frame that carries an ARP message or a datagram with the property. -/
def Bears (P : IPv4Datagram → Prop) (frame : EthernetFrame) : Prop :=
  Honest (fun _ _ => True) (fun _ => P) frame

/-- The interface keeps and sends only datagrams with the property. -/
def Carrying (P : IPv4Datagram → Prop) (n : NetworkInterface) : Prop :=
  Truthful (fun _ _ => True) (fun _ => P) n.ethernetAddress n

/-- The frame that arrives as `bytes`. -/
def arriving (bytes : Buffer) : EthernetFrame :=
  (EthernetFrame.blank.parse bytes).2

/-- If the string is an IPv4 frame, then one that carries a datagram with the property. -/
def Genuine (P : IPv4Datagram → Prop) (bytes : Buffer) : Prop :=
  (arriving bytes).header.type = EthernetHeader.typeIPv4 →
    ∃ frame, Bears P frame ∧ arriving bytes = gathered frame

/-- Every string parses as a frame. -/
theorem parse_eq (bytes : Buffer) :
    EthernetFrame.blank.parse bytes = (.noError, arriving bytes) := by
  by_cases hlength : EthernetHeader.length ≤ bytes.length
  · rw [arriving, EthernetFrame.parse_of_le _ hlength]
  · rw [arriving, EthernetFrame.parse_of_lt _ (Nat.lt_of_not_le hlength)]

/-- A frame that was sent arrives with its payload in one buffer. -/
theorem arriving_serialize (frame : EthernetFrame) :
    arriving frame.serialize.concatenate = gathered frame := by
  rw [arriving, EthernetFrame.parse_serialize]
  rfl

/-- What arrives is in one buffer. -/
theorem length_buffers_arriving (bytes : Buffer) :
    (arriving bytes).payload.buffers.length = 1 := rfl

/-- A frame that bears a datagram with the property is genuine on the wire. -/
theorem Bears.genuine {frame : EthernetFrame} (h : Bears P frame) :
    Genuine P frame.serialize.concatenate :=
  fun _ => ⟨frame, h, arriving_serialize frame⟩

/-- A weaker property. -/
theorem Genuine.mono (hPQ : ∀ dgram, P dgram → Q dgram) {bytes : Buffer} (h : Genuine P bytes) :
    Genuine Q bytes := by
  intro htype
  obtain ⟨frame, hframe, heq⟩ := h htype
  exact ⟨frame, hframe.mono fun _ => hPQ, heq⟩

/-! ## Interfaces -/

variable {n : NetworkInterface}

/-- A weaker property. -/
theorem Carrying.mono (hPQ : ∀ dgram, P dgram → Q dgram) (h : Carrying P n) : Carrying Q n :=
  Truthful.mono (fun _ => hPQ) h

/-- A fresh interface keeps no datagrams. -/
theorem carrying_new (ethernetAddress : EthernetAddress) (ipAddress : Address) :
    Carrying P (new ethernetAddress ipAddress) where
  address_eq := rfl
  owns := trivial
  mapped _ _ _ := trivial
  waiting _ _ h := absurd h List.not_mem_nil
  honest _ h := absurd h List.not_mem_nil

/-- An interface carries what it sends. -/
theorem carrying_of_truthful {address : EthernetAddress}
    (h : Truthful (fun _ _ => True) (fun _ => P) address n) : Carrying P n := by
  obtain rfl := h.address_eq
  exact h

/-- Frames are taken away. -/
theorem Carrying.withFrames (h : Carrying P n) {frames : List EthernetFrame}
    (hsub : ∀ frame ∈ frames, frame ∈ n.framesOut) :
    Carrying P { n with framesOut := frames } where
  address_eq := rfl
  owns := trivial
  mapped _ _ _ := trivial
  waiting := h.waiting
  honest frame hframe := h.honest frame (hsub frame hframe)

/-- Time passes. -/
theorem Carrying.tick (h : Carrying P n) (ms : UInt64) : Carrying P (n.tick ms) where
  address_eq := rfl
  owns := trivial
  mapped _ _ _ := trivial
  waiting := h.waiting
  honest := h.honest

/-- A datagram with the property can be sent, and is kept or put into a frame. -/
theorem Carrying.sendDatagram (hP : Travels P) (h : Carrying P n) {dgram : IPv4Datagram}
    (hdgram : P dgram) (nextHop : Address) :
    (n.sendDatagram dgram nextHop).1 = .ok () ∧ Carrying P (n.sendDatagram dgram nextHop).2 := by
  have hwell := hP.wellFormed dgram hdgram
  refine ⟨sendDatagram_ok nextHop hwell.serializable, ?_⟩
  exact carrying_of_truthful (Truthful.sendDatagram h hwell hdgram)

/-- Whatever arrives, an interface only sends what waited in it. -/
theorem Carrying.recvFrame (hP : Travels P) (h : Carrying P n) {frame : EthernetFrame}
    (hframe : frame.payload.buffers.length = 1) :
    (∃ result, (n.recvFrame frame).1 = .ok result) ∧ Carrying P (n.recvFrame frame).2 := by
  cases hheard : heard frame with
  | none =>
      rw [recvFrame_unheard hheard]
      exact ⟨recvFrame_unheard_ok hheard hframe, h⟩
  | some message =>
      obtain ⟨payloads, hpayloads⟩ := IPv4Datagram.exists_payloads fun dgram hdgram =>
        (hP.wellFormed dgram (h.waiting message.senderIpAddress dgram hdgram)).serializable
      rw [recvFrame_heard hheard, recvArp_eq message payloads hpayloads]
      exact ⟨⟨none, rfl⟩, carrying_of_truthful (Truthful.answered h trivial hpayloads)⟩

/-- A datagram that an interface returns is a copy of one with the property. -/
theorem Genuine.received (hP : Travels P) {bytes : Buffer} (h : Genuine P bytes)
    {dgram : IPv4Datagram} (hrecv : (n.recvFrame (arriving bytes)).1 = .ok (some dgram)) :
    ∃ original, P original ∧ dgram = original.copy := by
  obtain ⟨frame, hframe, heq⟩ := h (recvFrame_datagram hrecv).1
  rw [heq] at hrecv
  obtain ⟨_, original, -, horiginal, hcopy⟩ := Honest.received hframe
    (fun _ dgram hdgram => ⟨hP.wellFormed dgram hdgram, hP.offset_lt dgram hdgram⟩) hrecv
  exact ⟨original, horiginal, hcopy⟩

end NetworkInterface

open NetworkInterface

/-! ## Adapters -/

namespace TCPOverIPv4OverEthernetAdapter

variable {a : TCPOverIPv4OverEthernetAdapter}

/-- The adapter keeps and sends only datagrams with the property. -/
structure Carrying (P : IPv4Datagram → Prop) (a : TCPOverIPv4OverEthernetAdapter) : Prop where
  interface : NetworkInterface.Carrying P a.interface
  tap : ∀ bytes ∈ a.tap, Genuine P bytes

/-- A weaker property. -/
theorem Carrying.mono (hPQ : ∀ dgram, P dgram → Q dgram) (h : a.Carrying P) : a.Carrying Q :=
  ⟨h.interface.mono hPQ, fun bytes hbytes => (h.tap bytes hbytes).mono hPQ⟩

/-- The first frame of an adapter is no IPv4 frame. -/
theorem genuine_blank : Genuine P EthernetFrame.blank.serialize.concatenate := by
  intro htype
  rw [arriving_serialize] at htype
  exact absurd htype (by decide)

/-- A fresh adapter has sent its first frame only. -/
theorem carrying_new (ethAddress : EthernetAddress) (ipAddress nextHop : Address) :
    (new ethAddress ipAddress nextHop).Carrying P where
  interface := NetworkInterface.carrying_new ethAddress ipAddress
  tap bytes hbytes := by
    rw [List.mem_singleton.mp hbytes]
    exact genuine_blank

/-- The frames of an interface go out. -/
theorem Carrying.sendPending {interface : NetworkInterface} (h : a.Carrying P)
    (hinterface : NetworkInterface.Carrying P interface) :
    ({ a with interface := interface }.sendPending).Carrying P := by
  rw [sendPending_eq]
  refine ⟨hinterface.withFrames fun frame hframe => absurd hframe List.not_mem_nil, ?_⟩
  intro bytes hbytes
  rcases List.mem_append.mp hbytes with hbytes | hbytes
  · exact h.tap bytes hbytes
  · obtain ⟨frame, hframe, rfl⟩ := List.mem_map.mp hbytes
    exact Bears.genuine (hinterface.honest frame hframe)

/-- Time passes. -/
theorem Carrying.tick (h : a.Carrying P) (ms : UInt64) : (a.tick ms).Carrying P :=
  h.sendPending (h.interface.tick ms)

/-- A segment whose datagram has the property is written. -/
theorem Carrying.write (hP : Travels P) (h : a.Carrying P) {seg : TCPSegment}
    {ipDgram : IPv4Datagram} (hwrap : (a.wrapTcpInIp seg).1 = .ok ipDgram) (hdgram : P ipDgram) :
    (a.write seg).1 = .ok () ∧ (a.write seg).2.2.Carrying P := by
  have hsent := h.interface.sendDatagram hP hdgram a.nextHop
  obtain ⟨result, seg', hwrapped⟩ : ∃ result seg', a.wrapTcpInIp seg = (result, seg') :=
    ⟨_, _, rfl⟩
  rw [hwrapped] at hwrap
  cases hwrap
  obtain ⟨result, interface, hsend⟩ : ∃ result interface,
      a.interface.sendDatagram ipDgram a.nextHop = (result, interface) := ⟨_, _, rfl⟩
  rw [hsend] at hsent
  obtain ⟨rfl, hcarrying⟩ := hsent
  simp only [TCPOverIPv4OverEthernetAdapter.write, hwrapped, hsend]
  exact ⟨trivial, h.sendPending hcarrying⟩

/-- Sending frames leaves the configuration alone. -/
theorem base_sendPending (a : TCPOverIPv4OverEthernetAdapter) :
    a.sendPending.toTCPOverIPv4Adapter = a.toTCPOverIPv4Adapter := by
  rw [sendPending_eq]

/-- Time leaves the configuration alone. -/
theorem base_tick (a : TCPOverIPv4OverEthernetAdapter) (ms : UInt64) :
    (a.tick ms).toTCPOverIPv4Adapter = a.toTCPOverIPv4Adapter :=
  base_sendPending _

/-- A write leaves the configuration alone. -/
theorem base_write (a : TCPOverIPv4OverEthernetAdapter) (seg : TCPSegment) :
    (a.write seg).2.2.toTCPOverIPv4Adapter = a.toTCPOverIPv4Adapter := by
  unfold TCPOverIPv4OverEthernetAdapter.write
  split
  · rfl
  · split
    · rfl
    · exact base_sendPending _

/-- Nothing is returned for a frame without a datagram. -/
theorem read_none {bytes : Buffer} {interface : NetworkInterface}
    (hrecv : a.interface.recvFrame (arriving bytes) = (.ok none, interface)) :
    a.read bytes = (.ok none, { a with interface := interface }.sendPending) := by
  rw [TCPOverIPv4OverEthernetAdapter.read, parse_eq]
  simp only [hrecv, ne_eq, not_true_eq_false, if_false]

/-- A datagram is unwrapped. -/
theorem read_some {bytes : Buffer} {ipDgram : IPv4Datagram} {interface : NetworkInterface}
    (hrecv : a.interface.recvFrame (arriving bytes) = (.ok (some ipDgram), interface)) :
    a.read bytes = ((a.unwrapTcpInIp ipDgram).1,
      { { a with interface := interface }.sendPending with
        toTCPOverIPv4Adapter := (a.unwrapTcpInIp ipDgram).2 }) := by
  rw [TCPOverIPv4OverEthernetAdapter.read, parse_eq]
  simp only [hrecv, base_sendPending, ne_eq, not_true_eq_false, if_false]

/-- A read throws nothing, and only what waited goes out. -/
theorem Carrying.read (hP : Travels P) (h : a.Carrying P) (bytes : Buffer) :
    (∃ result, (a.read bytes).1 = .ok result) ∧ (a.read bytes).2.Carrying P := by
  obtain ⟨⟨result, hresult⟩, hcarrying⟩ :=
    h.interface.recvFrame hP (length_buffers_arriving bytes)
  obtain ⟨result', interface, hrecv⟩ : ∃ result' interface,
      a.interface.recvFrame (arriving bytes) = (result', interface) := ⟨_, _, rfl⟩
  have hpending := h.sendPending hcarrying
  rw [hrecv] at hresult hpending
  obtain rfl : result' = .ok result := hresult
  cases result with
  | none =>
      rw [read_none hrecv]
      exact ⟨⟨none, rfl⟩, hpending⟩
  | some ipDgram =>
      rw [read_some hrecv]
      have hone : ipDgram.payload.buffers.length = 1 := by
        have hfirst : (a.interface.recvFrame (arriving bytes)).1 = .ok (some ipDgram) := by
          rw [hrecv]
        obtain ⟨-, -, buffer, -, hparse⟩ := recvFrame_datagram hfirst
        exact IPv4Datagram.length_buffers_of_parse hparse
      exact ⟨TCPOverIPv4Adapter.unwrapTcpInIp_ok hone, hpending.interface, hpending.tap⟩

/-- What `read()` returns was unwrapped from a copy of a datagram with the property. -/
theorem Carrying.read_returns (hP : Travels P) (h : a.Carrying P) {bytes : Buffer}
    (hbytes : Genuine P bytes) {seg : TCPSegment} (hread : (a.read bytes).1 = .ok (some seg)) :
    ∃ original, P original ∧ a.unwrapTcpInIp original.copy =
      (.ok (some seg), (a.read bytes).2.toTCPOverIPv4Adapter) := by
  obtain ⟨⟨result, hresult⟩, -⟩ := h.interface.recvFrame hP (length_buffers_arriving bytes)
  have hrecv : a.interface.recvFrame (arriving bytes) =
      (.ok result, (a.interface.recvFrame (arriving bytes)).2) := by rw [← hresult]
  cases result with
  | none =>
      rw [read_none hrecv] at hread
      cases hread
  | some ipDgram =>
      obtain ⟨original, horiginal, rfl⟩ := hbytes.received hP hresult
      refine ⟨original, horiginal, ?_⟩
      rw [read_some hrecv] at hread ⊢
      rw [← hread]

/-- A read for which nothing is returned leaves the configuration alone. -/
theorem base_read {bytes : Buffer} (hread : (a.read bytes).1 = .ok none) :
    (a.read bytes).2.toTCPOverIPv4Adapter = a.toTCPOverIPv4Adapter := by
  obtain ⟨result, interface, hrecv⟩ : ∃ result interface,
      a.interface.recvFrame (arriving bytes) = (result, interface) := ⟨_, _, rfl⟩
  cases result with
  | error e =>
      rw [TCPOverIPv4OverEthernetAdapter.read, parse_eq] at hread ⊢
      simp only [hrecv, ne_eq, not_true_eq_false, if_false] at hread ⊢
  | ok result =>
      cases result with
      | none => rw [read_none hrecv, base_sendPending]
      | some ipDgram =>
          have hfirst : (a.interface.recvFrame (arriving bytes)).1 = .ok (some ipDgram) := by
            rw [hrecv]
          obtain ⟨-, -, buffer, -, hparse⟩ := recvFrame_datagram hfirst
          rw [read_some hrecv] at hread ⊢
          exact TCPOverIPv4Adapter.step_eq_self (IPv4Datagram.length_buffers_of_parse hparse) hread

end TCPOverIPv4OverEthernetAdapter

/-! ## Routers -/

namespace Router

variable {r : Router}

/-- The router keeps and sends only datagrams with the property. -/
structure Carrying (P : IPv4Datagram → Prop) (r : Router) : Prop where
  interface : ∀ n ∈ r.interfaces, NetworkInterface.Carrying P n.toNetworkInterface
  queued : ∀ n ∈ r.interfaces, ∀ dgram ∈ n.datagramsOut, P dgram

/-- A weaker property. -/
theorem Carrying.mono (hPQ : ∀ dgram, P dgram → Q dgram) (h : r.Carrying P) : r.Carrying Q :=
  ⟨fun n hn => (h.interface n hn).mono hPQ, fun n hn d hd => hPQ d (h.queued n hn d hd)⟩

/-- One interface is exchanged. -/
theorem Carrying.set (h : r.Carrying P) (i : Nat) {n : AsyncNetworkInterface}
    (hn : NetworkInterface.Carrying P n.toNetworkInterface)
    (hqueued : ∀ dgram ∈ n.datagramsOut, P dgram) :
    Carrying P { r with interfaces := r.interfaces.set i n } where
  interface m hm := by
    rcases List.mem_or_eq_of_mem_set hm with hm | rfl
    · exact h.interface m hm
    · exact hn
  queued m hm := by
    rcases List.mem_or_eq_of_mem_set hm with hm | rfl
    · exact h.queued m hm
    · exact hqueued

/-- The queue of an interface is exchanged. -/
theorem Carrying.setQueue (h : r.Carrying P) (i : Nat) {queue : List IPv4Datagram}
    (hqueue : ∀ dgram ∈ queue, P dgram) : (r.setQueue i queue).Carrying P := by
  unfold Router.setQueue
  rw [List.modify_eq_set_getElem?]
  cases hn : r.interfaces[i]? with
  | none => exact h
  | some n => exact h.set i (h.interface n (List.mem_of_getElem? hn)) hqueue

/-- The datagrams of a queue have the property. -/
theorem Carrying.queue (h : r.Carrying P) (i : Nat) : ∀ dgram ∈ r.queue i, P dgram := by
  intro dgram hdgram
  unfold Router.queue at hdgram
  split at hdgram
  · rename_i n hn
    exact h.queued n (List.mem_of_getElem? hn) dgram hdgram
  · cases hdgram

/-- A datagram with the property goes out. -/
theorem Carrying.sendOn (hP : Travels P) (h : r.Carrying P) (i : Nat) {dgram : IPv4Datagram}
    (hdgram : P dgram) (nextHop : Address) : (r.sendOn i dgram nextHop).2.Carrying P := by
  unfold Router.sendOn
  split
  · exact h
  · rename_i n hn
    have hmem := List.mem_of_getElem? hn
    exact h.set i ((h.interface n hmem).sendDatagram hP hdgram nextHop).2 (h.queued n hmem)

/-- A datagram that is handled, and what it becomes. -/
theorem Carrying.routeOneDatagram (hP : Travels P) (shift32 : UInt32 → UInt32)
    (h : r.Carrying P) {dgram : IPv4Datagram} (hdgram : P dgram) :
    P (r.routeOneDatagram shift32 dgram).2.1 ∧
      (r.routeOneDatagram shift32 dgram).2.2.Carrying P := by
  unfold Router.routeOneDatagram
  by_cases hexpired : dgram.header.ttl = 0 ∨ dgram.header.ttl = 1
  · rw [if_pos hexpired]
    exact ⟨hdgram, h⟩
  · rw [if_neg hexpired]
    have hless := hP.forwarded dgram hdgram ((not_expired_iff _).mp hexpired)
    simp only
    split
    · exact ⟨hless, h⟩
    · exact ⟨hless, h.sendOn hP _ hless _⟩

/-- All datagrams of a queue are routed. -/
theorem Carrying.routeQueue (hP : Travels P) (shift32 : UInt32 → UInt32) (i : Nat)
    (queue : List IPv4Datagram) (hqueue : ∀ dgram ∈ queue, P dgram) (h : r.Carrying P) :
    (r.routeQueue shift32 i queue).2.Carrying P := by
  induction queue generalizing r with
  | nil => exact h
  | cons dgram queue ih =>
      have hrest : ∀ d ∈ queue, P d := fun d hd => hqueue d (List.mem_cons_of_mem dgram hd)
      have hone := h.routeOneDatagram hP shift32 (hqueue dgram List.mem_cons_self)
      rw [Router.routeQueue]
      split
      · rename_i e dgram' r' heq
        rw [heq] at hone
        exact hone.2.setQueue i (List.forall_mem_cons.mpr ⟨hone.1, hrest⟩)
      · rename_i dgram' r' heq
        rw [heq] at hone
        exact ih hrest (hone.2.setQueue i hrest)

/-- All queues are routed. -/
theorem Carrying.routeInterfaces (hP : Travels P) (shift32 : UInt32 → UInt32) (is : List Nat)
    (h : r.Carrying P) : (Router.routeInterfaces shift32 is r).2.Carrying P := by
  induction is generalizing r with
  | nil => exact h
  | cons i is ih =>
      have hqueue := h.routeQueue hP shift32 i (r.queue i) (h.queue i)
      rw [Router.routeInterfaces]
      generalize Router.routeQueue shift32 i (r.queue i) r = call at hqueue ⊢
      obtain ⟨_ | _, r'⟩ := call
      · exact hqueue
      · exact ih hqueue

/-- `route()` sends on only what was queued. -/
theorem Carrying.route (hP : Travels P) (shift32 : UInt32 → UInt32) (h : r.Carrying P) :
    (r.route shift32).2.Carrying P :=
  h.routeInterfaces hP shift32 _

/-- A genuine frame is queued, or it is no datagram for this router. -/
theorem Carrying.recvFrameAt (hP : Travels P) (h : r.Carrying P) (i : Nat) {bytes : Buffer}
    (hbytes : Genuine P bytes) : (r.recvFrameAt i (arriving bytes)).2.Carrying P := by
  unfold Router.recvFrameAt
  split
  · exact h
  · rename_i n hn
    have hmem := List.mem_of_getElem? hn
    obtain ⟨-, hcarrying⟩ :=
      (h.interface n hmem).recvFrame hP (length_buffers_arriving bytes)
    have hreceived := fun dgram => @hbytes.received P n.toNetworkInterface hP bytes dgram
    simp only [AsyncNetworkInterface.recvFrame]
    generalize n.toNetworkInterface.recvFrame (arriving bytes) = call at hcarrying hreceived ⊢
    obtain ⟨_ | _ | dgram, base⟩ := call
    · exact h.set i hcarrying (h.queued n hmem)
    · exact h.set i hcarrying (h.queued n hmem)
    · refine h.set i hcarrying ?_
      intro d hd
      rcases List.mem_append.mp hd with hd | hd
      · exact h.queued n hmem d hd
      · obtain ⟨original, horiginal, hcopy⟩ := hreceived dgram rfl
        rw [List.mem_singleton.mp hd, hcopy]
        exact hP.copied original horiginal

/-- Time passes at an interface. -/
theorem Carrying.tickAt (h : r.Carrying P) (i : Nat) (ms : UInt64) :
    (r.tickAt i ms).2.Carrying P := by
  unfold Router.tickAt
  split
  · exact h
  · rename_i n hn
    have hmem := List.mem_of_getElem? hn
    exact h.set i ((h.interface n hmem).tick ms) (h.queued n hmem)

end Router
end Sponge
