import Sponge.Library.Execution
import Sponge.NetworkInterface.Model

/-!
# Runs of a network interface

An interface together with the history of a run: the datagrams submitted, the IPv4
frames emitted, each with the next hop it was emitted for, the mappings learned, and the
time that has passed.  The owner of the interface takes the frames from `frames_out()`
after every call.

Main results:

- Theorem {lit}`Ordered.step`: a call keeps the datagrams for every next hop in order.
- Theorem {lit}`datagrams_in_order`: whatever happens at an interface, the frames emitted
  for a next hop and the datagrams that wait for it are the datagrams submitted for it,
  in their order, as long as the clock does not wrap.
-/

namespace Sponge
namespace NetworkInterface

open Library

/-- The calls of the owner. -/
inductive Call where
  | sendDatagram (dgram : IPv4Datagram) (nextHop : Address)
  | recvFrame (frame : EthernetFrame)
  | tick (msSinceLastTick : UInt64)
deriving DecidableEq, Repr

/-- The interface behind a call, also one that throws. -/
def call (n : NetworkInterface) : Call → NetworkInterface
  | .sendDatagram dgram nextHop => (n.sendDatagram dgram nextHop).2
  | .recvFrame frame => (n.recvFrame frame).2
  | .tick ms => n.tick ms

/-- The next hop that a call sends frames for. -/
def Call.hop : Call → Option UInt32
  | .sendDatagram _ nextHop => some nextHop.ipv4Numeric
  | .recvFrame frame => (heard frame).map ARPMessage.senderIpAddress
  | .tick _ => none

/-- The datagrams that a call submits, with their next hop. -/
def Call.submits : Call → List (UInt32 × IPv4Datagram)
  | .sendDatagram dgram nextHop => [(nextHop.ipv4Numeric, dgram)]
  | .recvFrame _ => []
  | .tick _ => []

/-- The addresses that a call teaches a mapping for. -/
def Call.teaches : Call → List UInt32
  | .sendDatagram _ _ => []
  | .recvFrame frame => (heard frame).toList.map ARPMessage.senderIpAddress
  | .tick _ => []

/-- The time that passes with a call. -/
def Call.duration : Call → Nat
  | .sendDatagram _ _ => 0
  | .recvFrame _ => 0
  | .tick ms => ms.toNat

/-- The frame carries a datagram. -/
def carriesDatagram (frame : EthernetFrame) : Bool :=
  frame.header.type == EthernetHeader.typeIPv4

/-- An interface with the history of its run. -/
structure Trace where
  interface : NetworkInterface
  submitted : List (UInt32 × IPv4Datagram)
  emitted : List (Option UInt32 × EthernetFrame)
  learned : List (UInt32 × Nat)
  elapsed : Nat

namespace Trace

/-- A fresh interface. -/
def new (ethernetAddress : EthernetAddress) (ipAddress : Address) : Trace where
  interface := NetworkInterface.new ethernetAddress ipAddress
  submitted := []
  emitted := []
  learned := []
  elapsed := 0

/-- A call, after which the owner takes the frames. -/
def step (t : Trace) (c : Call) : Trace where
  interface := { t.interface.call c with framesOut := [] }
  submitted := t.submitted ++ c.submits
  emitted := t.emitted ++
    ((t.interface.call c).framesOut.filter carriesDatagram).map fun frame => (c.hop, frame)
  learned := t.learned ++ c.teaches.map fun ip => (ip, t.elapsed)
  elapsed := t.elapsed + c.duration

/-- The datagrams submitted with the next hop `ip`. -/
def submittedFor (t : Trace) (ip : UInt32) : List IPv4Datagram :=
  (t.submitted.filter fun entry => entry.1 == ip).map Prod.snd

/-- The frames emitted for the next hop `ip`. -/
def emittedFor (t : Trace) (ip : UInt32) : List EthernetFrame :=
  (t.emitted.filter fun entry => entry.1 == some ip).map Prod.snd

end Trace

/-- Datagrams are well formed; frames are arbitrary. -/
def Call.Legal : Call → Prop
  | .sendDatagram dgram _ => dgram.WellFormed
  | .recvFrame _ => True
  | .tick _ => True

instance : ∀ c, Decidable (Call.Legal c)
  | .sendDatagram dgram _ => inferInstanceAs (Decidable dgram.WellFormed)
  | .recvFrame _ => inferInstanceAs (Decidable True)
  | .tick _ => inferInstanceAs (Decidable True)

/-- The call does not make the clock wrap. -/
def Call.InTime (t : Trace) : Call → Prop
  | .tick ms => t.elapsed + ms.toNat < 2 ^ 64
  | _ => True

instance (t : Trace) : ∀ c, Decidable (Call.InTime t c)
  | .tick _ => inferInstanceAs (Decidable (_ < _))
  | .sendDatagram _ _ => inferInstanceAs (Decidable True)
  | .recvFrame _ => inferInstanceAs (Decidable True)

/-! ## The invariant -/

/-- The frames emitted for a next hop and the datagrams that wait for it are the datagrams
submitted for it, and datagrams wait only while there is no current mapping. -/
structure Ordered (t : Trace) : Prop where
  clock : t.interface.nowTimeMs.toNat = t.elapsed
  framesOut_eq : t.interface.framesOut = []
  wellFormed : ∀ ip, ∀ dgram ∈ t.interface.unsentDatagram ip, dgram.WellFormed
  crossed : ∀ ip, ∃ dgrams, (t.emittedFor ip).map (fun frame => Except.ok frame.payload) =
    dgrams.map IPv4Datagram.serialize ∧
      dgrams ++ t.interface.unsentDatagram ip = t.submittedFor ip
  known : ∀ entry ∈ t.learned, ∃ time, t.interface.cacheTime entry.1 = some time ∧
    entry.2 ≤ time.toNat
  past : ∀ ip time, t.interface.cacheTime ip = some time → time.toNat ≤ t.elapsed
  stale : ∀ ip time, t.interface.unsentDatagram ip ≠ [] → t.interface.cacheTime ip = some time →
    time.toNat + 30000 ≤ t.elapsed

variable {t : Trace}

/-- A mapping is current if fewer than 30000 ms have passed since it was learned. -/
theorem Ordered.cached_iff (h : Ordered t) (ip : UInt32) :
    t.interface.cached ip = true ↔
      ∃ time, t.interface.cacheTime ip = some time ∧ t.elapsed < time.toNat + 30000 := by
  unfold cached
  cases htime : t.interface.cacheTime ip with
  | none => simp
  | some time =>
      have hpast := h.past ip time htime
      have hclock := h.clock
      have hsub : (t.interface.nowTimeMs - time).toNat = t.interface.nowTimeMs.toNat - time.toNat :=
        UInt64.toNat_sub_of_le _ _ (by rw [UInt64.le_iff_toNat_le]; omega)
      have hlimit : arpCacheTimeout.toNat = 30000 := rfl
      simp only [decide_eq_true_eq, UInt64.lt_iff_toNat_lt, hsub, hlimit, Option.some.injEq,
        exists_eq_left']
      omega

theorem ordered_new (ethernetAddress : EthernetAddress) (ipAddress : Address) :
    Ordered (Trace.new ethernetAddress ipAddress) where
  clock := rfl
  framesOut_eq := rfl
  wellFormed := by simp [Trace.new, NetworkInterface.new]
  crossed := fun _ => ⟨[], rfl, rfl⟩
  known := by simp [Trace.new]
  past := by simp [Trace.new, NetworkInterface.new]
  stale := by simp [Trace.new, NetworkInterface.new]

/-- The frames of a call count for its next hop. -/
theorem Trace.emittedFor_step (t : Trace) (c : Call) (ip : UInt32) :
    (t.step c).emittedFor ip = t.emittedFor ip ++
      if c.hop = some ip then (t.interface.call c).framesOut.filter carriesDatagram else [] := by
  unfold emittedFor step
  rw [List.filter_append, List.map_append, List.filter_map]
  congr 1
  split
  · rename_i hhop
    rw [List.filter_eq_self.mpr (by simp [hhop]), List.map_map]
    exact List.map_id _
  · rename_i hhop
    rw [List.filter_eq_nil_iff.mpr (by simp [hhop])]
    rfl

theorem Trace.submittedFor_step (t : Trace) (c : Call) (ip : UInt32) :
    (t.step c).submittedFor ip = t.submittedFor ip ++
      (c.submits.filter fun entry => entry.1 == ip).map Prod.snd := by
  unfold submittedFor step
  rw [List.filter_append, List.map_append]

/-- If the datagrams that leave a queue and those that stay in it are those that were in it
and those that joined it, then the order is kept. -/
theorem Ordered.crossed_step (h : Ordered t) (c : Call) (ip : UInt32) (gone : List IPv4Datagram)
    (hgone : (if c.hop = some ip then (t.interface.call c).framesOut.filter carriesDatagram
      else []).map (fun frame => Except.ok frame.payload) = gone.map IPv4Datagram.serialize)
    (hqueue : gone ++ (t.interface.call c).unsentDatagram ip = t.interface.unsentDatagram ip ++
      (c.submits.filter fun entry => entry.1 == ip).map Prod.snd) :
    ∃ dgrams, ((t.step c).emittedFor ip).map (fun frame => Except.ok frame.payload) =
      dgrams.map IPv4Datagram.serialize ∧
        dgrams ++ (t.step c).interface.unsentDatagram ip = (t.step c).submittedFor ip := by
  obtain ⟨dgrams, hemitted, hsubmitted⟩ := h.crossed ip
  refine ⟨dgrams ++ gone, ?_, ?_⟩
  · rw [Trace.emittedFor_step, List.map_append, List.map_append, hemitted, hgone]
  · rw [Trace.submittedFor_step, ← hsubmitted, List.append_assoc, List.append_assoc, ← hqueue]
    rfl

/-- A datagram for which there is a current mapping goes out at once; none is waiting. -/
theorem Ordered.send_cached (h : Ordered t) {dgram : IPv4Datagram} {nextHop : Address}
    (hdgram : dgram.WellFormed) (hcached : t.interface.cached nextHop.ipv4Numeric = true) :
    Ordered (t.step (.sendDatagram dgram nextHop)) := by
  obtain ⟨payload, hpayload⟩ : ∃ payload, dgram.serialize = .ok payload :=
    ⟨_, IPv4Datagram.serialize_wellFormed hdgram⟩
  have hempty : t.interface.unsentDatagram nextHop.ipv4Numeric = [] := by
    by_contra hwait
    obtain ⟨time, htime, hfresh⟩ := (h.cached_iff _).mp hcached
    have := h.stale _ time hwait htime
    omega
  have hcall : t.interface.call (.sendDatagram dgram nextHop) = { t.interface with
      framesOut := [⟨⟨t.interface.ipToEthernetCache nextHop.ipv4Numeric,
        t.interface.ethernetAddress, EthernetHeader.typeIPv4⟩, payload⟩] } := by
    change (t.interface.sendDatagram dgram nextHop).2 = _
    rw [sendDatagram_cached hcached hpayload, h.framesOut_eq]
    rfl
  have hinterface : (t.step (.sendDatagram dgram nextHop)).interface = t.interface := by
    simp only [Trace.step, hcall]
    rw [← h.framesOut_eq]
  have hlearned : (t.step (.sendDatagram dgram nextHop)).learned = t.learned :=
    List.append_nil _
  refine ⟨?_, rfl, ?_, ?_, ?_, ?_, ?_⟩
  · rw [hinterface]
    exact h.clock
  · rw [hinterface]
    exact h.wellFormed
  · intro ip
    by_cases hip : nextHop.ipv4Numeric = ip
    · refine h.crossed_step _ ip [dgram] ?_ ?_
      · simp [Call.hop, hip, hcall, carriesDatagram, hpayload]
      · simp [Call.submits, hcall, ← hip, hempty]
    · refine h.crossed_step _ ip [] ?_ ?_
      · simp [Call.hop, hip]
      · simp [Call.submits, hip, hcall]
  · rw [hinterface, hlearned]
    exact h.known
  · rw [hinterface]
    exact h.past
  · rw [hinterface]
    exact h.stale

/-- A datagram without a current mapping joins those that wait. -/
theorem Ordered.send_queued (h : Ordered t) {dgram : IPv4Datagram} {nextHop : Address}
    (hdgram : dgram.WellFormed) (hcached : t.interface.cached nextHop.ipv4Numeric = false) :
    Ordered (t.step (.sendDatagram dgram nextHop)) := by
  have hcall : t.interface.call (.sendDatagram dgram nextHop) =
      t.interface.queued dgram nextHop.ipv4Numeric := by
    change (t.interface.sendDatagram dgram nextHop).2 = _
    rw [sendDatagram_queued dgram nextHop hcached]
  -- The only frame that may go out is an ARP request.
  have hframes : (t.interface.queued dgram nextHop.ipv4Numeric).framesOut.filter carriesDatagram =
      [] := by
    simp only [queued, h.framesOut_eq, List.nil_append]
    split <;> rfl
  have hunsent := t.interface.unsentDatagram_queued dgram nextHop.ipv4Numeric
  refine ⟨?_, rfl, ?_, ?_, ?_, ?_, ?_⟩
  · simp only [Trace.step, hcall]
    exact h.clock
  · intro ip d hd
    simp only [Trace.step, hcall, hunsent, List.mem_append] at hd
    rcases hd with hd | hd
    · exact h.wellFormed ip d hd
    · split at hd
      · rw [List.mem_singleton.mp hd]
        exact hdgram
      · cases hd
  · intro ip
    refine h.crossed_step _ ip [] ?_ ?_
    · rw [hcall, hframes]
      simp
    · rw [hcall, hunsent]
      by_cases hip : nextHop.ipv4Numeric = ip <;> simp [Call.submits, hip]
  · intro entry hentry
    simp only [Trace.step, Call.teaches, List.map_nil, List.append_nil] at hentry
    simp only [Trace.step, hcall]
    exact h.known entry hentry
  · intro ip time htime
    simp only [Trace.step, hcall] at htime
    exact h.past ip time htime
  · intro ip time hwait htime
    simp only [Trace.step, hcall, hunsent] at hwait htime
    by_cases hip : nextHop.ipv4Numeric = ip
    · by_contra hfresh
      have hyes := (h.cached_iff nextHop.ipv4Numeric).mpr
        ⟨time, by rw [hip]; exact htime, Nat.not_le.mp hfresh⟩
      rw [hcached] at hyes
      cases hyes
    · rw [if_neg hip, List.append_nil] at hwait
      exact h.stale ip time hwait htime

/-- The answer to an ARP message, if any, is no datagram. -/
theorem datagrams_answered {n : NetworkInterface} (hempty : n.framesOut = [])
    (message : ARPMessage) (payloads : List BufferList) :
    (n.answered message payloads).framesOut.filter carriesDatagram =
      payloads.map fun payload => ⟨⟨message.senderEthernetAddress, n.ethernetAddress,
        EthernetHeader.typeIPv4⟩, payload⟩ := by
  simp only [answered, hempty, List.nil_append, List.filter_append]
  rw [List.filter_eq_self.mpr (by simp [carriesDatagram])]
  split
  · exact List.append_nil _
  · exact List.append_nil _

/-- An ARP message sends the datagrams that wait for its sender. -/
theorem Ordered.recv_heard (h : Ordered t) {frame : EthernetFrame} {message : ARPMessage}
    (hheard : heard frame = some message) : Ordered (t.step (.recvFrame frame)) := by
  obtain ⟨payloads, hpayloads⟩ := IPv4Datagram.exists_payloads fun dgram hdgram =>
    (h.wellFormed message.senderIpAddress dgram hdgram).serializable
  have hcall : t.interface.call (.recvFrame frame) = t.interface.answered message payloads := by
    change (t.interface.recvFrame frame).2 = _
    rw [recvFrame_heard hheard, recvArp_eq message payloads hpayloads]
    rfl
  have hframes := datagrams_answered h.framesOut_eq message payloads
  have hunsent := t.interface.unsentDatagram_answered message payloads
  have htime := t.interface.cacheTime_answered message payloads
  have hclock := h.clock
  refine ⟨?_, rfl, ?_, ?_, ?_, ?_, ?_⟩
  · simp only [Trace.step, hcall]
    exact h.clock
  · intro ip d hd
    simp only [Trace.step, hcall, hunsent] at hd
    split at hd
    · cases hd
    · exact h.wellFormed ip d hd
  · intro ip
    by_cases hip : message.senderIpAddress = ip
    · refine h.crossed_step _ ip (t.interface.unsentDatagram ip) ?_ ?_
      · rw [hcall, hframes, if_pos (by simp [Call.hop, hheard, hip]), ← hip, hpayloads,
          List.map_map]
        rfl
      · rw [hcall, hunsent, if_pos hip]
        rfl
    · refine h.crossed_step _ ip [] ?_ ?_
      · rw [if_neg (by simpa [Call.hop, hheard] using hip)]
        rfl
      · rw [hcall, hunsent, if_neg hip]
        exact (List.append_nil _).symm
  · intro entry hentry
    simp only [Trace.step, Call.teaches, hheard, Option.toList_some, List.map_cons, List.map_nil,
      List.mem_append, List.mem_singleton] at hentry
    simp only [Trace.step, hcall, htime]
    rcases hentry with hentry | rfl
    · obtain ⟨time, hknown, hle⟩ := h.known entry hentry
      split
      · exact ⟨_, rfl, by have := h.past _ time hknown; omega⟩
      · exact ⟨time, hknown, hle⟩
    · rw [if_pos rfl]
      exact ⟨_, rfl, hclock.ge⟩
  · intro ip time hsome
    simp only [Trace.step, hcall, htime] at hsome
    change time.toNat ≤ t.elapsed
    split at hsome
    · rw [Option.some.injEq] at hsome
      rw [← hsome, hclock]
    · exact h.past ip time hsome
  · intro ip time hwait hsome
    simp only [Trace.step, hcall, hunsent, htime] at hwait hsome
    by_cases hip : message.senderIpAddress = ip
    · rw [if_pos hip] at hwait
      exact absurd rfl hwait
    · rw [if_neg hip] at hwait hsome
      exact h.stale ip time hwait hsome

/-- A call that neither changes the interface nor sends anything. -/
theorem Ordered.idle (h : Ordered t) {c : Call} (hcall : t.interface.call c = t.interface)
    (hsubmits : c.submits = []) (hteaches : c.teaches = []) (hduration : c.duration = 0) :
    Ordered (t.step c) := by
  have hinterface : (t.step c).interface = t.interface := by
    simp only [Trace.step, hcall]
    rw [← h.framesOut_eq]
  have helapsed : (t.step c).elapsed = t.elapsed := by
    rw [Trace.step, hduration, Nat.add_zero]
  refine ⟨?_, rfl, ?_, ?_, ?_, ?_, ?_⟩
  · rw [hinterface, helapsed]
    exact h.clock
  · rw [hinterface]
    exact h.wellFormed
  · intro ip
    refine h.crossed_step c ip [] ?_ ?_
    · rw [hcall, h.framesOut_eq]
      simp
    · rw [hcall, hsubmits]
      exact (List.append_nil _).symm
  · intro entry hentry
    rw [Trace.step, hteaches, List.map_nil, List.append_nil] at hentry
    rw [hinterface]
    exact h.known entry hentry
  · rw [hinterface, helapsed]
    exact h.past
  · rw [hinterface, helapsed]
    exact h.stale

/-- Time only makes mappings older. -/
theorem Ordered.tick (h : Ordered t) {ms : UInt64} (hms : t.elapsed + ms.toNat < 2 ^ 64) :
    Ordered (t.step (.tick ms)) := by
  have hclock := h.clock
  refine ⟨?_, rfl, h.wellFormed, ?_, ?_, ?_, ?_⟩
  · change (t.interface.nowTimeMs + ms).toNat = t.elapsed + ms.toNat
    rw [UInt64.toNat_add, hclock, Nat.mod_eq_of_lt hms]
  · intro ip
    refine h.crossed_step _ ip [] ?_ (List.append_nil _).symm
    rfl
  · intro entry hentry
    simp only [Trace.step, Call.teaches, List.map_nil, List.append_nil] at hentry
    exact h.known entry hentry
  · intro ip time htime
    exact (h.past ip time htime).trans (Nat.le_add_right _ _)
  · intro ip time hwait htime
    exact (h.stale ip time hwait htime).trans (Nat.le_add_right _ _)

/-- A call keeps the datagrams for every next hop in order. -/
theorem Ordered.step (h : Ordered t) {c : Call} (hlegal : c.Legal) (htime : c.InTime t) :
    Ordered (t.step c) := by
  cases c with
  | sendDatagram dgram nextHop =>
      cases hcached : t.interface.cached nextHop.ipv4Numeric with
      | true => exact h.send_cached hlegal hcached
      | false => exact h.send_queued hlegal hcached
  | recvFrame frame =>
      cases hheard : heard frame with
      | some message => exact h.recv_heard hheard
      | none =>
          refine h.idle ?_ rfl ?_ rfl
          · exact recvFrame_unheard hheard
          · simp [Call.teaches, hheard]
  | tick ms => exact h.tick htime

/-- The frames emitted for a next hop and the datagrams that wait for it are the datagrams
submitted for it, each once and in their order, and datagrams wait only while no mapping
was learned less than 30000 ms ago, as long as the clock does not wrap. -/
theorem datagrams_in_order (ethernetAddress : EthernetAddress) (ipAddress : Address)
    (calls : List Call)
    (hcalls : Admissible Trace.step (fun t c => c.Legal ∧ c.InTime t)
      (Trace.new ethernetAddress ipAddress) calls) (ip : UInt32) :
    let t := run Trace.step (Trace.new ethernetAddress ipAddress) calls
    (∃ dgrams, (t.emittedFor ip).map (fun frame => Except.ok frame.payload) =
        dgrams.map IPv4Datagram.serialize ∧
      dgrams ++ t.interface.unsentDatagram ip = t.submittedFor ip) ∧
    (t.interface.unsentDatagram ip ≠ [] →
      ∀ entry ∈ t.learned, entry.1 = ip → entry.2 + 30000 ≤ t.elapsed) := by
  intro t
  have h : Ordered t := hcalls.invariant (fun t c ht hc => ht.step hc.1 hc.2)
    (ordered_new ethernetAddress ipAddress)
  refine ⟨h.crossed ip, ?_⟩
  rintro hwait entry hentry rfl
  obtain ⟨time, htime, hle⟩ := h.known entry hentry
  have := h.stale entry.1 time hwait htime
  omega

/-- An interface that asks for a next hop, is answered, and then sends at once. -/
theorem datagrams_in_order_answered :
    let here : EthernetAddress := ⟨[2, 0, 0, 0, 0, 1], rfl⟩
    let there : EthernetAddress := ⟨[2, 0, 0, 0, 0, 2], rfl⟩
    let reply : ARPMessage := ⟨1, 2048, 6, 4, 2, there, 9, here, 5⟩
    let frame : EthernetFrame :=
      ⟨⟨here, there, EthernetHeader.typeARP⟩, .ofBuffer reply.fields⟩
    let first : IPv4Datagram := ⟨{ len := 21 }, .ofBuffer [1]⟩
    let second : IPv4Datagram := ⟨{ len := 21 }, .ofBuffer [2]⟩
    let calls : List Call := [.sendDatagram first ⟨9, 0⟩, .tick 100, .recvFrame frame,
      .sendDatagram second ⟨9, 0⟩]
    let t := run Trace.step (Trace.new here ⟨5, 0⟩) calls
    t.submittedFor 9 = [first, second] ∧ (t.emittedFor 9).length = 2 ∧
      ∃ dgrams, (t.emittedFor 9).map (fun frame => Except.ok frame.payload) =
        dgrams.map IPv4Datagram.serialize ∧
        dgrams ++ t.interface.unsentDatagram 9 = t.submittedFor 9 := by
  intro here there reply frame first second calls t
  refine ⟨by decide +kernel, by decide +kernel, ?_⟩
  exact (datagrams_in_order here ⟨5, 0⟩ calls (by decide +kernel) 9).1

/-- When the clock wraps, a mapping that had expired is current again, and a datagram
overtakes the one that waits. -/
theorem datagram_overtakes :
    ¬ ∀ (ethernetAddress : EthernetAddress) (ipAddress : Address) (calls : List Call),
      Admissible Trace.step (fun _ c => c.Legal) (Trace.new ethernetAddress ipAddress) calls →
      ∀ ip, let t := run Trace.step (Trace.new ethernetAddress ipAddress) calls
        ∃ dgrams, (t.emittedFor ip).map (fun frame => Except.ok frame.payload) =
          dgrams.map IPv4Datagram.serialize ∧
          dgrams ++ t.interface.unsentDatagram ip = t.submittedFor ip := by
  intro h
  let here : EthernetAddress := ⟨[2, 0, 0, 0, 0, 1], rfl⟩
  let there : EthernetAddress := ⟨[2, 0, 0, 0, 0, 2], rfl⟩
  let reply : ARPMessage := ⟨1, 2048, 6, 4, 2, there, 9, here, 5⟩
  let frame : EthernetFrame := ⟨⟨here, there, EthernetHeader.typeARP⟩, .ofBuffer reply.fields⟩
  let first : IPv4Datagram := ⟨{ len := 21 }, .ofBuffer [1]⟩
  let second : IPv4Datagram := ⟨{ len := 21 }, .ofBuffer [2]⟩
  -- the second tick brings the clock back to 0, the time at which the mapping was learned
  let calls : List Call := [.recvFrame frame, .tick 30000, .sendDatagram first ⟨9, 0⟩,
    .tick 18446744073709521616, .sendDatagram second ⟨9, 0⟩]
  obtain ⟨dgrams, -, hall⟩ := h here ⟨5, 0⟩ calls (by decide +kernel) 9
  have hunsent : (run Trace.step (Trace.new here ⟨5, 0⟩) calls).interface.unsentDatagram 9 =
      [first] := by decide +kernel
  have hsubmitted : (run Trace.step (Trace.new here ⟨5, 0⟩) calls).submittedFor 9 =
      [first, second] := by decide +kernel
  rw [hunsent, hsubmitted] at hall
  have hlast := congrArg List.getLast? hall
  rw [List.getLast?_concat] at hlast
  exact absurd hlast (by decide)

end NetworkInterface
end Sponge
