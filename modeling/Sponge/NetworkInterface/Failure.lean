import Sponge.NetworkInterface.Runs

/-!
# Datagrams that cannot be serialised

`send_datagram` lets a datagram wait without looking at it.  When its next hop answers, the
loop in `recv_frame` serialises the waiting datagrams one by one and pushes a frame for each;
they leave the queue only when all have been serialised.  If `serialize()` throws behind the
first datagram of the queue, then frames have gone out whose datagrams still wait, and the next
ARP message from that host sends them again.

Main results:

- Theorem {lit}`intact_iff`: `recv_frame` leaves the frames and the queues alone when it throws,
  exactly if it does not fail behind the first datagram of a queue.
- Theorem {lit}`Once.step`: a call that does not fail so emits no datagram twice.
- Theorem {lit}`failing_flush`: both, for all runs.
-/

namespace Sponge
namespace NetworkInterface

open Library

/-! ## Throwing -/

/-- If `recv_frame` throws, the frames and the queues are as before. -/
def Intact (n : NetworkInterface) (frame : EthernetFrame) : Prop :=
  ∀ e, (n.recvFrame frame).1 = .error e →
    (n.recvFrame frame).2.framesOut = n.framesOut ∧
      (n.recvFrame frame).2.unsentDatagram = n.unsentDatagram

/-- The first datagram can be serialised and a later one cannot. -/
def Spoiled : List IPv4Datagram → Prop
  | [] => False
  | first :: rest => first.Serializable ∧ ∃ dgram ∈ rest, ¬ dgram.Serializable

/-- The frame is an ARP message from a host for which a spoiled queue waits. -/
def FailsLate (n : NetworkInterface) (frame : EthernetFrame) : Prop :=
  match heard frame with
  | some message => Spoiled (n.unsentDatagram message.senderIpAddress)
  | none => False

instance (dgram : IPv4Datagram) : Decidable dgram.Serializable :=
  decidable_of_iff _ IPv4Datagram.serializable_iff.symm

instance : ∀ dgrams, Decidable (Spoiled dgrams)
  | [] => inferInstanceAs (Decidable False)
  | _ :: _ => inferInstanceAs (Decidable (_ ∧ _))

instance (n : NetworkInterface) (frame : EthernetFrame) : Decidable (n.FailsLate frame) := by
  unfold FailsLate
  split <;> infer_instance

variable {n : NetworkInterface}

/-- Datagrams that were serialised can be serialised. -/
theorem serializable_of_mem {sent : List IPv4Datagram} {payloads : List BufferList}
    (h : sent.map IPv4Datagram.serialize = payloads.map Except.ok) :
    ∀ dgram ∈ sent, dgram.Serializable := by
  intro dgram hdgram
  have hmem : dgram.serialize ∈ payloads.map Except.ok := by
    rw [← h]
    exact List.mem_map_of_mem hdgram
  obtain ⟨payload, -, hpayload⟩ := List.mem_map.mp hmem
  exact ⟨payload, hpayload.symm⟩

theorem not_serializable {dgram : IPv4Datagram} {e : String} (h : dgram.serialize = .error e) :
    ¬ dgram.Serializable := by
  rintro ⟨payload, hpayload⟩
  rw [h] at hpayload
  cases hpayload

/-- A queue that is serialised as a whole is not spoiled. -/
theorem not_spoiled_of_serializable {dgrams : List IPv4Datagram}
    (h : ∀ dgram ∈ dgrams, dgram.Serializable) : ¬ Spoiled dgrams := by
  cases dgrams with
  | nil => exact id
  | cons first rest =>
      rintro ⟨-, dgram, hdgram, hnot⟩
      exact hnot (h dgram (List.mem_cons_of_mem _ hdgram))

/-- A queue is spoiled if some datagrams go out before the first that cannot be serialised. -/
theorem spoiled_append_iff {sent rest : List IPv4Datagram} {dgram : IPv4Datagram}
    (hsent : ∀ d ∈ sent, d.Serializable) (hdgram : ¬ dgram.Serializable) :
    Spoiled (sent ++ dgram :: rest) ↔ sent ≠ [] := by
  cases sent with
  | nil =>
      refine iff_of_false ?_ (fun h => h rfl)
      rintro ⟨hfirst, -⟩
      exact hdgram hfirst
  | cons first sent =>
      refine iff_of_true ⟨hsent first List.mem_cons_self, dgram, ?_, hdgram⟩ (List.cons_ne_nil _ _)
      exact List.mem_append_right _ List.mem_cons_self

/-- `recv_frame` leaves the frames and the queues alone when it throws, exactly if it does not
fail behind the first datagram of a queue. -/
theorem intact_iff (n : NetworkInterface) (frame : EthernetFrame) :
    n.Intact frame ↔ ¬ n.FailsLate frame := by
  cases hheard : heard frame with
  | none =>
      have hsame := recvFrame_unheard (n := n) hheard
      refine iff_of_true (fun e _ => ?_) ?_
      · rw [hsame]
        exact ⟨rfl, rfl⟩
      · rw [FailsLate, hheard]
        exact id
  | some message =>
      have hlate : n.FailsLate frame ↔ Spoiled (n.unsentDatagram message.senderIpAddress) := by
        rw [FailsLate, hheard]
      rw [hlate]
      obtain ⟨sent, payloads, hpayloads, ⟨hunsent, hok⟩ | ⟨dgram, rest, e, hunsent, he, hfailed⟩⟩ :=
        recvFrame_heard_cases (n := n) hheard
      · refine iff_of_true (fun e herror => ?_) ?_
        · rw [hok] at herror
          cases herror
        · rw [hunsent]
          exact not_spoiled_of_serializable (serializable_of_mem hpayloads)
      · rw [hunsent, spoiled_append_iff (serializable_of_mem hpayloads) (not_serializable he),
          not_not]
        have hlength : sent.length = payloads.length := by
          simpa using congrArg List.length hpayloads
        rw [← List.length_eq_zero_iff, hlength, List.length_eq_zero_iff]
        constructor
        · intro hintact
          have hframes := (hintact e (by rw [hfailed])).1
          rw [hfailed] at hframes
          simpa [interrupted] using hframes
        · rintro rfl e' -
          rw [hfailed]
          exact ⟨List.append_nil _, rfl⟩

/-! ## Runs -/

/-- The call does not fail behind the first datagram of a queue. -/
def Call.Clean (t : Trace) : Call → Prop
  | .recvFrame frame => ¬ t.interface.FailsLate frame
  | _ => True

instance (t : Trace) : ∀ c, Decidable (Call.Clean t c)
  | .recvFrame _ => inferInstanceAs (Decidable (¬ _))
  | .sendDatagram _ _ => inferInstanceAs (Decidable True)
  | .tick _ => inferInstanceAs (Decidable True)

/-- The datagrams that went out to a next hop and those that wait for it are among the
datagrams submitted for it, each at most as often as it was submitted. -/
structure Once (t : Trace) : Prop where
  framesOut_eq : t.interface.framesOut = []
  crossed : ∀ ip, ∃ dgrams, (t.emittedFor ip).map (fun frame => Except.ok frame.payload) =
    dgrams.map IPv4Datagram.serialize ∧
      (dgrams ++ t.interface.unsentDatagram ip).Subperm (t.submittedFor ip)

variable {t : Trace}

theorem once_new (ethernetAddress : EthernetAddress) (ipAddress : Address) :
    Once (Trace.new ethernetAddress ipAddress) where
  framesOut_eq := rfl
  crossed := fun _ => ⟨[], rfl, List.Subperm.refl _⟩

/-- If the datagrams that leave a queue and those that stay in it are among those that were in
it and those that were submitted, then no datagram goes out twice. -/
theorem Once.step_of (h : Once t) (c : Call) (gone : UInt32 → List IPv4Datagram)
    (hgone : ∀ ip, (if c.hop = some ip then (t.interface.call c).framesOut.filter carriesDatagram
      else []).map (fun frame => Except.ok frame.payload) =
        (gone ip).map IPv4Datagram.serialize)
    (hqueue : ∀ ip, (gone ip ++ (t.interface.call c).unsentDatagram ip).Subperm
      (t.interface.unsentDatagram ip ++
        (c.submits.filter fun entry => entry.1 == ip).map Prod.snd)) :
    Once (t.step c) := by
  refine ⟨rfl, fun ip => ?_⟩
  obtain ⟨dgrams, hemitted, hsubmitted⟩ := h.crossed ip
  refine ⟨dgrams ++ gone ip, ?_, ?_⟩
  · rw [Trace.emittedFor_step, List.map_append, List.map_append, hemitted, hgone ip]
  · rw [Trace.submittedFor_step, List.append_assoc]
    have hleft : (dgrams ++ (gone ip ++ (t.interface.call c).unsentDatagram ip)).Subperm
        (dgrams ++ t.interface.unsentDatagram ip ++
          (c.submits.filter fun entry => entry.1 == ip).map Prod.snd) := by
      rw [List.append_assoc]
      exact (List.subperm_append_left dgrams).mpr (hqueue ip)
    exact hleft.trans ((List.subperm_append_right _).mpr hsubmitted)

/-- A call that emits no datagram and changes no queue. -/
theorem Once.idle (h : Once t) {c : Call}
    (hframes : (t.interface.call c).framesOut = [])
    (hunsent : (t.interface.call c).unsentDatagram = t.interface.unsentDatagram) :
    Once (t.step c) := by
  refine h.step_of c (fun _ => []) (fun ip => ?_) (fun ip => ?_)
  · rw [hframes]
    simp
  · rw [hunsent, List.nil_append]
    exact (List.sublist_append_left _ _).subperm

/-- A submitted datagram goes out at once, waits, or makes `send_datagram` throw. -/
theorem Once.send (h : Once t) (dgram : IPv4Datagram) (nextHop : Address) :
    Once (t.step (.sendDatagram dgram nextHop)) := by
  have hcall : t.interface.call (.sendDatagram dgram nextHop) =
      (t.interface.sendDatagram dgram nextHop).2 := rfl
  cases hcached : t.interface.cached nextHop.ipv4Numeric with
  | true =>
      cases hpayload : dgram.serialize with
      | error e =>
          rw [sendDatagram_failed hcached hpayload] at hcall
          refine h.idle ?_ ?_
          · rw [hcall]
            exact h.framesOut_eq
          · rw [hcall]
      | ok payload =>
          rw [sendDatagram_cached hcached hpayload, h.framesOut_eq] at hcall
          refine h.step_of _ (fun ip => if nextHop.ipv4Numeric = ip then [dgram] else [])
            (fun ip => ?_) (fun ip => ?_)
          · by_cases hip : nextHop.ipv4Numeric = ip <;>
              simp [Call.hop, hip, hcall, carriesDatagram, hpayload]
          · rw [hcall]
            by_cases hip : nextHop.ipv4Numeric = ip
            · have hswap : ([dgram] ++ t.interface.unsentDatagram ip).Subperm
                  (t.interface.unsentDatagram ip ++ [dgram]) := List.perm_append_comm.subperm
              simpa [Call.submits, hip] using hswap
            · simp [Call.submits, hip, List.Subperm.refl]
  | false =>
      rw [sendDatagram_queued dgram nextHop hcached] at hcall
      refine h.step_of _ (fun _ => []) (fun ip => ?_) (fun ip => ?_)
      · -- the only frame that may go out is an ARP request
        have hframes : (t.interface.call (.sendDatagram dgram nextHop)).framesOut.filter
            carriesDatagram = [] := by
          rw [hcall]
          simp only [queued, h.framesOut_eq, List.nil_append]
          split <;> rfl
        rw [hframes]
        simp
      · rw [hcall, unsentDatagram_queued]
        by_cases hip : nextHop.ipv4Numeric = ip <;> simp [Call.submits, hip, List.Subperm.refl]

/-- An ARP message sends the datagrams that wait for its sender, or none. -/
theorem Once.recv (h : Once t) {frame : EthernetFrame} (hclean : ¬ t.interface.FailsLate frame) :
    Once (t.step (.recvFrame frame)) := by
  have hcall : t.interface.call (.recvFrame frame) = (t.interface.recvFrame frame).2 := rfl
  cases hheard : heard frame with
  | none =>
      rw [recvFrame_unheard hheard] at hcall
      refine h.idle ?_ ?_
      · rw [hcall]
        exact h.framesOut_eq
      · rw [hcall]
  | some message =>
      obtain ⟨sent, payloads, hpayloads, ⟨hunsent, hok⟩ | ⟨dgram, rest, e, -, -, hfailed⟩⟩ :=
        recvFrame_heard_cases (n := t.interface) hheard
      · rw [hok] at hcall
        refine h.step_of _ (fun ip => if message.senderIpAddress = ip then sent else [])
          (fun ip => ?_) (fun ip => ?_)
        · by_cases hip : message.senderIpAddress = ip
          · rw [hcall, datagrams_answered h.framesOut_eq, if_pos (by simp [Call.hop, hheard, hip]),
              if_pos hip, hpayloads, List.map_map]
            rfl
          · rw [if_neg (by simpa [Call.hop, hheard] using hip), if_neg hip]
            rfl
        · rw [hcall, unsentDatagram_answered]
          by_cases hip : message.senderIpAddress = ip
          · rw [if_pos hip, if_pos hip, List.append_nil, ← hunsent, hip]
            exact (List.sublist_append_left _ _).subperm
          · rw [if_neg hip, if_neg hip, List.nil_append]
            exact (List.sublist_append_left _ _).subperm
      · obtain ⟨hframes, hqueues⟩ :=
          (intact_iff t.interface frame).mpr hclean e (by rw [hfailed])
        refine h.idle ?_ ?_
        · rw [hcall, hframes]
          exact h.framesOut_eq
        · rw [hcall, hqueues]

/-- A call that does not fail behind the first datagram of a queue emits no datagram twice. -/
theorem Once.step (h : Once t) {c : Call} (hclean : c.Clean t) : Once (t.step c) := by
  cases c with
  | sendDatagram dgram nextHop => exact h.send dgram nextHop
  | recvFrame frame => exact h.recv hclean
  | tick ms => exact h.idle h.framesOut_eq rfl

/-- In every state that an interface can reach, a throwing `recv_frame` leaves the frames and
the queues alone exactly if it does not fail behind the first datagram of a queue.  In every run
without such a failure, the datagrams that went out to a next hop and those that wait for it are
among the datagrams submitted for it, each at most as often as it was submitted. -/
theorem failing_flush (ethernetAddress : EthernetAddress) (ipAddress : Address)
    (calls : List Call) :
    let t := run Trace.step (Trace.new ethernetAddress ipAddress) calls
    (∀ frame, t.interface.Intact frame ↔ ¬ t.interface.FailsLate frame) ∧
      (Admissible Trace.step (fun t c => c.Clean t) (Trace.new ethernetAddress ipAddress) calls →
        ∀ ip, ∃ dgrams, (t.emittedFor ip).map (fun frame => Except.ok frame.payload) =
          dgrams.map IPv4Datagram.serialize ∧
            (dgrams ++ t.interface.unsentDatagram ip).Subperm (t.submittedFor ip)) := by
  intro t
  refine ⟨intact_iff t.interface, fun hclean => ?_⟩
  have h : Once t := hclean.invariant (fun _ _ ht hc => ht.step hc)
    (once_new ethernetAddress ipAddress)
  exact h.crossed

/-- The first datagram of the queue cannot be serialised: the messages of the next hop make
`recv_frame` throw, and nothing goes out. -/
theorem failing_flush_first :
    let here : EthernetAddress := ⟨[2, 0, 0, 0, 0, 1], rfl⟩
    let there : EthernetAddress := ⟨[2, 0, 0, 0, 0, 2], rfl⟩
    let reply : ARPMessage := ⟨1, 2048, 6, 4, 2, there, 9, here, 5⟩
    let frame : EthernetFrame := ⟨⟨here, there, EthernetHeader.typeARP⟩, .ofBuffer reply.fields⟩
    let good : IPv4Datagram := ⟨{ len := 21 }, .ofBuffer [1]⟩
    let bad : IPv4Datagram := ⟨{ len := 21 }, .ofBuffer [1, 2]⟩
    let calls : List Call := [.sendDatagram bad ⟨9, 0⟩, .sendDatagram good ⟨9, 0⟩,
      .recvFrame frame, .recvFrame frame]
    let t := run Trace.step (Trace.new here ⟨5, 0⟩) calls
    t.interface.Intact frame ∧ t.emittedFor 9 = [] ∧
      ∃ dgrams, (t.emittedFor 9).map (fun frame => Except.ok frame.payload) =
        dgrams.map IPv4Datagram.serialize ∧
          (dgrams ++ t.interface.unsentDatagram 9).Subperm (t.submittedFor 9) := by
  intro here there reply frame good bad calls t
  obtain ⟨hintact, honce⟩ := failing_flush here ⟨5, 0⟩ calls
  exact ⟨(hintact frame).mpr (by decide +kernel), by decide +kernel, honce (by decide +kernel) 9⟩

/-- The second datagram of the queue cannot be serialised: `recv_frame` throws when the first
has gone out, and the next message sends the first one again. -/
theorem flush_repeated :
    let here : EthernetAddress := ⟨[2, 0, 0, 0, 0, 1], rfl⟩
    let there : EthernetAddress := ⟨[2, 0, 0, 0, 0, 2], rfl⟩
    let reply : ARPMessage := ⟨1, 2048, 6, 4, 2, there, 9, here, 5⟩
    let frame : EthernetFrame := ⟨⟨here, there, EthernetHeader.typeARP⟩, .ofBuffer reply.fields⟩
    let good : IPv4Datagram := ⟨{ len := 21 }, .ofBuffer [1]⟩
    let bad : IPv4Datagram := ⟨{ len := 21 }, .ofBuffer [1, 2]⟩
    let queued : List Call := [.sendDatagram good ⟨9, 0⟩, .sendDatagram bad ⟨9, 0⟩]
    let t := run Trace.step (Trace.new here ⟨5, 0⟩) queued
    let t' := run Trace.step t [.recvFrame frame, .recvFrame frame]
    ¬ t.interface.Intact frame ∧ t'.submittedFor 9 = [good, bad] ∧
      (t'.emittedFor 9).map (fun frame => frame.payload.concatenate.drop 20) = [[1], [1]] := by
  intro here there reply frame good bad queued t t'
  refine ⟨?_, by decide +kernel, by decide +kernel⟩
  rw [intact_iff]
  decide +kernel

end NetworkInterface
end Sponge
