import Sponge.NetworkInterface.Effect

/-!
# Address resolution in the course of time

A run of an interface with a chronicle of it: the ARP messages that arrived, all frames
emitted, each with the time, and the time that has passed.  Datagrams and frames are
arbitrary, and calls may throw.

The clock of the interface has 64 bits.  It shows the time passed modulo `2 ^ 64`, and a
difference of two of its readings is the difference of the times modulo `2 ^ 64`.

Main results:

- Theorem {lit}`Accurate.step`: the two tables of mappings hold the last message of every host,
  and the table of requests holds the last request for it.
- Theorem {lit}`link_addresses_current`: an IPv4 frame goes to the address in the last message
  from its next hop, which is less than 30000 ms old.
- Theorem {lit}`requests_limited`: requests for a host are at least 5000 ms apart, and a datagram
  that has to wait finds a request that is less than 5000 ms old.
-/

namespace Sponge
namespace NetworkInterface

open Library

/-- An interface with a chronicle of its run. -/
structure Chronicle where
  interface : NetworkInterface
  arrivals : List (Nat × ARPMessage)
  frames : List (Nat × EthernetFrame)
  elapsed : Nat

/-- The ARP messages that a call delivers. -/
def Call.hears : Call → List ARPMessage
  | .sendDatagram _ _ => []
  | .recvFrame frame => (heard frame).toList
  | .tick _ => []

namespace Chronicle

/-- A fresh interface. -/
def new (ethernetAddress : EthernetAddress) (ipAddress : Address) : Chronicle where
  interface := NetworkInterface.new ethernetAddress ipAddress
  arrivals := []
  frames := []
  elapsed := 0

/-- A call, after which the owner takes the frames. -/
def step (t : Chronicle) (c : Call) : Chronicle where
  interface := { t.interface.call c with framesOut := [] }
  arrivals := t.arrivals ++ c.hears.map fun message => (t.elapsed, message)
  frames := t.frames ++ (t.interface.call c).framesOut.map fun frame => (t.elapsed, frame)
  elapsed := t.elapsed + c.duration

/-- The last ARP message that arrived from `ip`, with its time. -/
def latest (t : Chronicle) (ip : UInt32) : Option (Nat × ARPMessage) :=
  (t.arrivals.filter fun arrival => arrival.2.senderIpAddress == ip).getLast?

/-- The times at which requests for `ip` were emitted. -/
def requestsFor (t : Chronicle) (ip : UInt32) : List Nat :=
  (t.frames.filter fun entry => isRequest ip entry.2).map Prod.fst

variable (t : Chronicle) (c : Call) (ip : UInt32)

theorem latest_step :
    (t.step c).latest ip = ((c.tells ip).map fun message => (t.elapsed, message)).or
      (t.latest ip) := by
  simp only [latest, step, List.filter_append, List.getLast?_append]
  congr 1
  cases c with
  | recvFrame frame =>
      cases hheard : heard frame with
      | none => simp [Call.hears, Call.tells_eq_none hheard, hheard]
      | some message =>
          rw [Call.tells_eq hheard]
          by_cases hip : message.senderIpAddress = ip <;> simp [Call.hears, hheard, hip]
  | _ => rfl

/-- A call that asks for an address adds its time. -/
theorem requestsFor_step (hempty : t.interface.framesOut = []) :
    (t.step c).requestsFor ip =
      t.requestsFor ip ++ if t.interface.asks ip c then [t.elapsed] else [] := by
  have hcall := requests_call hempty c ip
  simp only [requestsFor, step, List.filter_append, List.map_append, List.filter_map]
  congr 1
  change (((t.interface.call c).framesOut.filter (isRequest ip)).map _).map _ = _
  rw [hcall]
  split <;> rfl

end Chronicle

/-! ## The invariant -/

/-- The difference of two readings of the clock. -/
theorem toNat_ofNat_sub {a b : Nat} (h : b ≤ a) :
    (UInt64.ofNat a - UInt64.ofNat b).toNat = (a - b) % 2 ^ 64 := by
  rw [← UInt64.ofNat_sub h, UInt64.toNat_ofNat']

/-- The clock shows the time passed; the tables of mappings hold the last message from every
host, and the table of requests the time of the last request for it. -/
structure Accurate (ethernetAddress : EthernetAddress) (t : Chronicle) : Prop where
  ethernetAddress_eq : t.interface.ethernetAddress = ethernetAddress
  framesOut_eq : t.interface.framesOut = []
  clock : t.interface.nowTimeMs = UInt64.ofNat t.elapsed
  cacheTime_eq : ∀ ip, t.interface.cacheTime ip =
    (t.latest ip).map fun arrival => UInt64.ofNat arrival.1
  address_eq : ∀ ip arrival, t.latest ip = some arrival →
    t.interface.ipToEthernetCache ip = arrival.2.senderEthernetAddress ∧ arrival.1 ≤ t.elapsed
  history_eq : ∀ ip, t.interface.arpRequestHis ip =
    (t.requestsFor ip).getLast?.map UInt64.ofNat
  past : ∀ ip, ∀ time ∈ t.requestsFor ip, time ≤ t.elapsed
  apart : ∀ ip, (t.requestsFor ip).Pairwise fun first second => first + 5000 ≤ second

variable {ethernetAddress : EthernetAddress} {t : Chronicle}

theorem accurate_new (ethernetAddress : EthernetAddress) (ipAddress : Address) :
    Accurate ethernetAddress (Chronicle.new ethernetAddress ipAddress) where
  ethernetAddress_eq := rfl
  framesOut_eq := rfl
  clock := rfl
  cacheTime_eq := fun _ => rfl
  address_eq := fun _ _ h => nomatch h
  history_eq := fun _ => rfl
  past := fun _ _ h => nomatch h
  apart := fun _ => List.Pairwise.nil

/-- A mapping is current if the last message is less than 30000 ms old, up to a multiple of
`2 ^ 64`. -/
theorem Accurate.cached_iff (h : Accurate ethernetAddress t) (ip : UInt32) :
    t.interface.cached ip = true ↔
      ∃ arrival, t.latest ip = some arrival ∧ (t.elapsed - arrival.1) % 2 ^ 64 < 30000 := by
  have htime := h.cacheTime_eq ip
  cases hlatest : t.latest ip with
  | none =>
      rw [hlatest, Option.map_none] at htime
      simp [cached, htime]
  | some arrival =>
      have hpast := (h.address_eq ip arrival hlatest).2
      rw [hlatest, Option.map_some] at htime
      have hlimit : arpCacheTimeout.toNat = 30000 := rfl
      simp only [cached, htime, h.clock, decide_eq_true_eq, UInt64.lt_iff_toNat_lt,
        toNat_ofNat_sub hpast, hlimit, Option.some.injEq, exists_eq_left']

/-- A request is due if the last one is at least 5000 ms old, up to a multiple of `2 ^ 64`. -/
theorem Accurate.requestDue_iff (h : Accurate ethernetAddress t) (ip : UInt32) :
    t.interface.requestDue ip = true ↔
      ∀ time, (t.requestsFor ip).getLast? = some time → 5000 ≤ (t.elapsed - time) % 2 ^ 64 := by
  have htime := h.history_eq ip
  cases hlast : (t.requestsFor ip).getLast? with
  | none =>
      rw [hlast, Option.map_none] at htime
      simp [requestDue, htime]
  | some time =>
      have hpast := h.past ip time (List.mem_of_getLast? hlast)
      rw [hlast, Option.map_some] at htime
      have hlimit : arpRequestLimit.toNat = 5000 := rfl
      simp only [requestDue, htime, h.clock, ge_iff_le, decide_eq_true_eq, UInt64.le_iff_toNat_le,
        toNat_ofNat_sub hpast, hlimit, Option.some.injEq, forall_eq']

/-- A call that asks for an address does so at least 5000 ms after all requests for it. -/
theorem Accurate.apart_asks (h : Accurate ethernetAddress t) {c : Call} {ip : UInt32}
    (hasks : t.interface.asks ip c = true) :
    ∀ time ∈ t.requestsFor ip, time + 5000 ≤ t.elapsed := by
  intro time htime
  have hdue := (h.requestDue_iff ip).mp (requestDue_of_asks hasks)
  have happart := h.apart ip
  rcases List.eq_nil_or_concat' (t.requestsFor ip) with hnil | ⟨others, last, hlast⟩
  · rw [hnil] at htime
    cases htime
  · rw [hlast] at htime happart hdue
    have hgap := hdue last List.getLast?_concat
    have hle := Nat.mod_le (t.elapsed - last) (2 ^ 64)
    rcases List.mem_append.mp htime with hother | heq
    · have hfirst := (List.pairwise_append.mp happart).2.2 time hother last
        (List.mem_singleton.mpr rfl)
      omega
    · rw [List.mem_singleton.mp heq]
      omega

/-- A call keeps the tables accurate. -/
theorem Accurate.step (h : Accurate ethernetAddress t) (c : Call) :
    Accurate ethernetAddress (t.step c) where
  ethernetAddress_eq := (ethernetAddress_call t.interface c).trans h.ethernetAddress_eq
  framesOut_eq := rfl
  clock := by
    change (t.interface.call c).nowTimeMs = UInt64.ofNat (t.elapsed + c.duration)
    rw [nowTimeMs_call, h.clock, UInt64.ofNat_add]
  cacheTime_eq := by
    intro ip
    obtain ⟨htold, hkept⟩ := mapping_call t.interface c ip
    change (t.interface.call c).cacheTime ip = _
    rw [Chronicle.latest_step]
    cases htells : c.tells ip with
    | none => exact (hkept htells).1.trans (h.cacheTime_eq ip)
    | some message =>
        rw [(htold message htells).1, h.clock]
        rfl
  address_eq := by
    intro ip arrival harrival
    obtain ⟨htold, hkept⟩ := mapping_call t.interface c ip
    change (t.interface.call c).ipToEthernetCache ip = _ ∧ arrival.1 ≤ t.elapsed + c.duration
    rw [Chronicle.latest_step] at harrival
    cases htells : c.tells ip with
    | none =>
        rw [htells] at harrival
        obtain ⟨haddress, hpast⟩ := h.address_eq ip arrival harrival
        exact ⟨(hkept htells).2.trans haddress, hpast.trans (Nat.le_add_right _ _)⟩
    | some message =>
        rw [htells, Option.map_some, Option.some_or, Option.some.injEq] at harrival
        rw [← harrival]
        exact ⟨(htold message htells).2, Nat.le_add_right _ _⟩
  history_eq := by
    intro ip
    change (t.interface.call c).arpRequestHis ip = _
    rw [arpRequestHis_call, Chronicle.requestsFor_step t c ip h.framesOut_eq, h.history_eq, h.clock]
    cases t.interface.asks ip c with
    | true => simp
    | false => simp
  past := by
    intro ip time htime
    change time ≤ t.elapsed + c.duration
    rw [Chronicle.requestsFor_step t c ip h.framesOut_eq, List.mem_append] at htime
    rcases htime with hold | hnew
    · exact (h.past ip time hold).trans (Nat.le_add_right _ _)
    · split at hnew
      · rw [List.mem_singleton.mp hnew]
        exact Nat.le_add_right _ _
      · cases hnew
  apart := by
    intro ip
    rw [Chronicle.requestsFor_step t c ip h.framesOut_eq]
    split
    · rename_i hasks
      refine List.pairwise_append.mpr ⟨h.apart ip, List.pairwise_singleton _ _, ?_⟩
      intro first hfirst second hsecond
      rw [List.mem_singleton.mp hsecond]
      exact h.apart_asks hasks first hfirst
    · rw [List.append_nil]
      exact h.apart ip

theorem accurate_run (ethernetAddress : EthernetAddress) (ipAddress : Address)
    (calls : List Call) :
    Accurate ethernetAddress
      (run Chronicle.step (Chronicle.new ethernetAddress ipAddress) calls) :=
  (admissible_true _ calls).invariant (I := Accurate ethernetAddress) (fun _ c h _ => h.step c)
    (accurate_new ethernetAddress ipAddress)

/-! ## Mappings -/

/-- The datagrams among the frames of a call. -/
theorem Accurate.carried (h : Accurate ethernetAddress t) {c : Call} {frame : EthernetFrame}
    (hframe : frame ∈ (t.interface.call c).framesOut) (hcarries : carriesDatagram frame = true) :
    ∃ ip, c.hop = some ip ∧ frame.header.src = ethernetAddress ∧
      ∃ arrival, (t.step c).latest ip = some arrival ∧
        frame.header.dst = arrival.2.senderEthernetAddress ∧
        arrival.1 ≤ t.elapsed ∧ (t.elapsed - arrival.1) % 2 ^ 64 < 30000 := by
  have heffect := effect_call t.interface c
  generalize t.interface.call c = n' at heffect hframe
  cases heffect with
  | sent dgram nextHop payloads hcached =>
      obtain ⟨arrival, hlatest, hfresh⟩ := (h.cached_iff _).mp hcached
      obtain ⟨haddress, hpast⟩ := h.address_eq _ arrival hlatest
      simp only [h.framesOut_eq, List.nil_append] at hframe
      obtain ⟨payload, -, rfl⟩ := List.mem_map.mp hframe
      exact ⟨nextHop.ipv4Numeric, rfl, h.ethernetAddress_eq, arrival,
        by rw [Chronicle.latest_step]; exact hlatest, haddress, hpast, hfresh⟩
  | queued dgram nextHop hcached =>
      simp only [NetworkInterface.queued, h.framesOut_eq, List.nil_append] at hframe
      split at hframe
      · rw [List.mem_singleton.mp hframe] at hcarries
        cases hcarries
      · cases hframe
  | told frame' message payloads replies unsent hheard hreplies =>
      simp only [h.framesOut_eq, List.nil_append] at hframe
      rcases List.mem_append.mp hframe with hpayload | hreply
      · obtain ⟨payload, -, rfl⟩ := List.mem_map.mp hpayload
        refine ⟨message.senderIpAddress, by simp [Call.hop, hheard], h.ethernetAddress_eq,
          (t.elapsed, message), ?_, rfl, le_rfl, by simp⟩
        rw [Chronicle.latest_step, Call.tells_eq hheard, if_pos rfl]
        rfl
      · rw [hreplies frame hreply] at hcarries
        cases hcarries
  | unheard frame' hheard =>
      rw [h.framesOut_eq] at hframe
      cases hframe
  | tick ms =>
      simp only [NetworkInterface.tick, h.framesOut_eq] at hframe
      cases hframe

/-- Every IPv4 frame that a call emits for a next hop, at a time before the clock wraps, comes
from the interface's own address, goes to the sender's address in the last ARP message that
arrived from the next hop, and that message is less than 30000 ms old. -/
theorem link_addresses_current (ethernetAddress : EthernetAddress) (ipAddress : Address)
    (calls : List Call) (c : Call) :
    let t := run Chronicle.step (Chronicle.new ethernetAddress ipAddress) calls
    t.elapsed < 2 ^ 64 →
      ∀ frame ∈ (t.interface.call c).framesOut, carriesDatagram frame = true →
        ∃ ip, c.hop = some ip ∧ frame.header.src = ethernetAddress ∧
          ∃ arrival, (t.step c).latest ip = some arrival ∧
            frame.header.dst = arrival.2.senderEthernetAddress ∧
            arrival.1 ≤ t.elapsed ∧ t.elapsed - arrival.1 < 30000 := by
  intro t htime frame hframe hcarries
  obtain ⟨ip, hhop, hsrc, arrival, hlatest, hdst, hpast, hfresh⟩ :=
    (accurate_run ethernetAddress ipAddress calls).carried hframe hcarries
  refine ⟨ip, hhop, hsrc, arrival, hlatest, hdst, hpast, ?_⟩
  have hsmall : t.elapsed - arrival.1 < 2 ^ 64 := by omega
  rwa [Nat.mod_eq_of_lt hsmall] at hfresh

/-- A host that moves to another address while a datagram waits for it, and is sent another one
29999 ms later. -/
theorem link_addresses_current_moved :
    let here : EthernetAddress := ⟨[2, 0, 0, 0, 0, 1], rfl⟩
    let there : EthernetAddress := ⟨[2, 0, 0, 0, 0, 2], rfl⟩
    let moved : EthernetAddress := ⟨[2, 0, 0, 0, 0, 3], rfl⟩
    let reply : EthernetAddress → EthernetFrame := fun address =>
      ⟨⟨here, address, EthernetHeader.typeARP⟩,
        .ofBuffer (ARPMessage.fields ⟨1, 2048, 6, 4, 2, address, 9, here, 5⟩)⟩
    let dgram : IPv4Datagram := ⟨{ len := 21 }, .ofBuffer [1]⟩
    let calls : List Call := [.sendDatagram dgram ⟨9, 0⟩, .tick 100, .recvFrame (reply there),
      .recvFrame (reply moved), .tick 29999]
    let t := run Chronicle.step (Chronicle.new here ⟨5, 0⟩) calls
    let emitted := (t.interface.call (.sendDatagram dgram ⟨9, 0⟩)).framesOut
    t.elapsed < 2 ^ 64 ∧ emitted.map (fun frame => frame.header.dst) = [moved] ∧
      ∀ frame ∈ emitted, ∃ ip, (some (9 : UInt32)) = some ip ∧ frame.header.src = here ∧
        ∃ arrival, (t.step (.sendDatagram dgram ⟨9, 0⟩)).latest ip = some arrival ∧
          frame.header.dst = arrival.2.senderEthernetAddress ∧
          arrival.1 ≤ t.elapsed ∧ t.elapsed - arrival.1 < 30000 := by
  intro here there moved reply dgram calls t emitted
  have helapsed : t.elapsed < 2 ^ 64 := by decide +kernel
  have hcarries : ∀ frame ∈ emitted, carriesDatagram frame = true := by decide +kernel
  refine ⟨helapsed, by decide +kernel, fun frame hframe => ?_⟩
  exact link_addresses_current here ⟨5, 0⟩ calls (.sendDatagram dgram ⟨9, 0⟩) helapsed frame hframe
    (hcarries frame hframe)

/-- When the clock wraps, a mapping of any age is current again. -/
theorem link_address_outdated :
    ¬ ∀ (ethernetAddress : EthernetAddress) (ipAddress : Address) (calls : List Call),
      Admissible Chronicle.step (fun _ c => c.Legal)
        (Chronicle.new ethernetAddress ipAddress) calls →
      ∀ (dgram : IPv4Datagram) (nextHop : Address), dgram.WellFormed →
        let t := run Chronicle.step (Chronicle.new ethernetAddress ipAddress) calls
        ∀ frame ∈ (t.interface.call (.sendDatagram dgram nextHop)).framesOut,
          carriesDatagram frame = true →
            ∃ arrival, t.latest nextHop.ipv4Numeric = some arrival ∧
              t.elapsed - arrival.1 < 30000 := by
  intro h
  let here : EthernetAddress := ⟨[2, 0, 0, 0, 0, 1], rfl⟩
  let there : EthernetAddress := ⟨[2, 0, 0, 0, 0, 2], rfl⟩
  let reply : ARPMessage := ⟨1, 2048, 6, 4, 2, there, 9, here, 5⟩
  let frame : EthernetFrame := ⟨⟨here, there, EthernetHeader.typeARP⟩, .ofBuffer reply.fields⟩
  let dgram : IPv4Datagram := ⟨{ len := 21 }, .ofBuffer [1]⟩
  -- the ticks add up to `2 ^ 64`: the clock shows 0 again, as when the mapping was learned
  let calls : List Call := [.recvFrame frame, .tick 30000, .tick 18446744073709521616]
  let t := run Chronicle.step (Chronicle.new here ⟨5, 0⟩) calls
  have hsent : ∃ frame ∈ (t.interface.call (.sendDatagram dgram ⟨9, 0⟩)).framesOut,
      carriesDatagram frame = true := by decide +kernel
  obtain ⟨frame, hframe, hcarries⟩ := hsent
  obtain ⟨arrival, hlatest, hfresh⟩ := h here ⟨5, 0⟩ calls (by decide +kernel) dgram ⟨9, 0⟩
    (by decide) frame hframe hcarries
  have harrival : t.latest 9 = some (0, reply) := by decide +kernel
  have helapsed : t.elapsed = 2 ^ 64 := by decide +kernel
  rw [harrival, Option.some.injEq] at hlatest
  rw [← hlatest, helapsed] at hfresh
  exact absurd hfresh (by decide)

/-! ## Requests in the course of time -/

/-- A datagram waits if there is no current mapping. -/
theorem not_cached_of_unsentDatagram_ne {n : NetworkInterface} {dgram : IPv4Datagram}
    {nextHop : Address} {ip : UInt32}
    (h : (n.call (.sendDatagram dgram nextHop)).unsentDatagram ip ≠ n.unsentDatagram ip) :
    n.cached nextHop.ipv4Numeric = false := by
  by_contra hcached
  have heffect := effect_sent dgram nextHop (Bool.not_eq_false _ ▸ hcached)
  change Effect n _ (n.call (.sendDatagram dgram nextHop)) at heffect
  generalize n.call (.sendDatagram dgram nextHop) = n' at heffect h
  cases heffect with
  | sent dgram nextHop payloads hsent => exact h rfl
  | queued dgram nextHop hqueued => exact hcached hqueued

/-- Requests for a host are at least 5000 ms apart.  Before the clock wraps, a datagram that
has to wait finds a request that is less than 5000 ms old, perhaps that of its own call. -/
theorem requests_limited (ethernetAddress : EthernetAddress) (ipAddress : Address)
    (calls : List Call) (ip : UInt32) :
    let t := run Chronicle.step (Chronicle.new ethernetAddress ipAddress) calls
    ((t.requestsFor ip).Pairwise fun first second => first + 5000 ≤ second) ∧
      (t.elapsed < 2 ^ 64 → ∀ (dgram : IPv4Datagram) (nextHop : Address),
        nextHop.ipv4Numeric = ip →
        (t.interface.call (.sendDatagram dgram nextHop)).unsentDatagram ip ≠
          t.interface.unsentDatagram ip →
        ∃ time ∈ (t.step (.sendDatagram dgram nextHop)).requestsFor ip,
          time ≤ t.elapsed ∧ t.elapsed - time < 5000) := by
  intro t
  have h : Accurate ethernetAddress t := accurate_run ethernetAddress ipAddress calls
  refine ⟨h.apart ip, ?_⟩
  intro htime dgram nextHop hip hwaits
  have hcached := not_cached_of_unsentDatagram_ne hwaits
  rw [Chronicle.requestsFor_step t _ ip h.framesOut_eq, asks_queued hcached, hip]
  cases hdue : t.interface.requestDue ip with
  | true => exact ⟨t.elapsed, by simp, le_rfl, by simp⟩
  | false =>
      have hrecent := mt (h.requestDue_iff ip).mpr (Bool.eq_false_iff.mp hdue)
      push Not at hrecent
      obtain ⟨time, hlast, hage⟩ := hrecent
      have hmem := List.mem_of_getLast? hlast
      have hpast := h.past ip time hmem
      have hsmall : t.elapsed - time < 2 ^ 64 := by omega
      rw [Nat.mod_eq_of_lt hsmall] at hage
      exact ⟨time, List.mem_append_left _ hmem, hpast, hage⟩

/-- Three datagrams for one host: the second waits for the answer to the first request, and the
third comes late enough for a second request. -/
theorem requests_limited_three :
    let here : EthernetAddress := ⟨[2, 0, 0, 0, 0, 1], rfl⟩
    let dgram : IPv4Datagram := ⟨{ len := 21 }, .ofBuffer [1]⟩
    let send : Call := .sendDatagram dgram ⟨9, 0⟩
    let t := run Chronicle.step (Chronicle.new here ⟨5, 0⟩)
      [send, .tick 4999, send, .tick 1, send, .tick 4999]
    t.requestsFor 9 = [0, 5000] ∧
      (∃ time ∈ (t.step send).requestsFor 9, time ≤ t.elapsed ∧ t.elapsed - time < 5000) := by
  intro here dgram send t
  refine ⟨by decide +kernel, ?_⟩
  exact (requests_limited here ⟨5, 0⟩ _ 9).2 (by decide +kernel) dgram ⟨9, 0⟩ rfl
    (by decide +kernel)

/-- When the clock wraps, an old request counts as a new one. -/
theorem request_missing :
    ¬ ∀ (ethernetAddress : EthernetAddress) (ipAddress : Address) (calls : List Call)
      (dgram : IPv4Datagram) (nextHop : Address),
      let t := run Chronicle.step (Chronicle.new ethernetAddress ipAddress) calls
      let ip := nextHop.ipv4Numeric
      (t.interface.call (.sendDatagram dgram nextHop)).unsentDatagram ip ≠
          t.interface.unsentDatagram ip →
        ∃ time ∈ (t.step (.sendDatagram dgram nextHop)).requestsFor ip,
          time ≤ t.elapsed ∧ t.elapsed - time < 5000 := by
  intro h
  let here : EthernetAddress := ⟨[2, 0, 0, 0, 0, 1], rfl⟩
  let dgram : IPv4Datagram := ⟨{ len := 21 }, .ofBuffer [1]⟩
  -- the ticks add up to `2 ^ 64`: the clock shows 0 again, the time of the first request
  let calls : List Call := [.sendDatagram dgram ⟨9, 0⟩, .tick 30000, .tick 18446744073709521616]
  let t := run Chronicle.step (Chronicle.new here ⟨5, 0⟩) calls
  obtain ⟨time, htime, -, hage⟩ := h here ⟨5, 0⟩ calls dgram ⟨9, 0⟩ (by decide +kernel)
  have hrequests : (t.step (.sendDatagram dgram ⟨9, 0⟩)).requestsFor 9 = [0] := by decide +kernel
  have helapsed : t.elapsed = 2 ^ 64 := by decide +kernel
  have hzero : time = 0 := by
    rw [hrequests] at htime
    exact List.mem_singleton.mp htime
  rw [hzero, helapsed] at hage
  exact absurd hage (by decide)

end NetworkInterface
end Sponge
