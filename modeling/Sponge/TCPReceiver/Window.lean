import Sponge.StreamReassembler.Refinement
import Sponge.TCPReceiver

/-!
# The window of the receiver

A receiver that has seen the SYN takes segments of one byte stream `S` in any order, while
the application reads.  Behind the sequence numbers it is the reassembler of
{lit}`Refines`; what a peer sees of it are the ackno and the window.

Main results:

- Theorem {lit}`takenIn_eq_admitted`: what a segment brings in is what the window of the
  reassembler admits.
- Theorem {lit}`rightEdge_eq`: the right edge of the window counts the bytes read.
- Theorem {lit}`receiver_window_law`: the ackno is the first position not accepted, the bytes
  taken in are those in the window, and the right edge of the window never moves back.
-/

namespace Sponge
namespace TCPReceiver

open Library StreamReassembler

/-- A segment with the substring of `S` at `index`, or a read of `stream_out()`. -/
inductive Call where
  | segment (seg : TCPSegment) (index : Nat)
  | read (len : Nat)
deriving DecidableEq, Repr

/-- The segment has no SYN and carries a non-empty substring of `S` at its sequence number, with
a FIN exactly at the end of `S`, and its position is unambiguous. -/
def Call.Legal (S : List Byte) (isn : WrappingInt32) (r : TCPReceiver) : Call → Prop
  | .segment seg index =>
      seg.header.syn = false ∧ seg.header.seqno = wrap (1 + index) isn ∧
        seg.payload = (S.drop index).take seg.payload.length ∧
        (StreamReassembler.Call.push index seg.payload.length seg.header.fin).Full S ∧
        1 + index < r.streamOut.bytesWritten + 2 ^ 31 ∧
        r.streamOut.bytesWritten < 1 + index + 2 ^ 31
  | .read _ => True

instance (S : List Byte) (isn : WrappingInt32) (r : TCPReceiver) :
    ∀ c, Decidable (Call.Legal S isn r c)
  | .segment _ _ => inferInstanceAs (Decidable (_ ∧ _ ∧ _ ∧ _ ∧ _ ∧ _))
  | .read _ => inferInstanceAs (Decidable True)

/-- The indices `S[index], ..., S[index + len - 1]` that were not yet written and are now
written or buffered. -/
def takenIn (before after : TCPReceiver) (index len : Nat) : Finset Nat :=
  (Finset.Ico index (index + len)).filter fun j =>
    before.streamOut.bytesWritten ≤ j ∧
      (j < after.streamOut.bytesWritten ∨ j ∈ after.reassembler.pending)

/-- A receiver with the set of indices that it has taken in. -/
structure Trace where
  receiver : TCPReceiver
  accepted : Finset Nat

/-- A receiver that has seen the SYN. -/
def Trace.new (capacity : Nat) (syn : TCPSegment) : Trace where
  receiver := (TCPReceiver.new capacity).segmentReceived syn
  accepted := ∅

/-- One call, and what it takes in. -/
def Trace.step (t : Trace) : Call → Trace
  | .segment seg index =>
      let r := t.receiver.segmentReceived seg
      { receiver := r
        accepted := t.accepted ∪ takenIn t.receiver r index seg.payload.length }
  | .read len => { t with receiver := t.receiver.popOutput len }

/-- The absolute right edge of the window. -/
def rightEdge (r : TCPReceiver) : Nat :=
  r.absoluteAckno + r.windowSize

/-- The right edge counts the bytes read, so that only reads and the end of the stream move
it. -/
theorem rightEdge_eq (r : TCPReceiver) :
    r.rightEdge = r.setIsn.toNat + r.streamOut.bytesRead + r.streamOut.inputEnded.toNat +
      r.capacity := by
  have hwritten := r.streamOut.bytesWritten_eq
  have hroom := r.streamOut.bufferSize_add_remainingCapacity
  have hcapacity : r.streamOut.capacity = r.capacity := r.capacity_eq
  rw [rightEdge, absoluteAckno, windowSize]
  omega

/-! ## The reassembler behind the receiver -/

/-- The receiver has seen the SYN, and its reassembler has accepted what was taken in. -/
structure Windowed (S : List Byte) (capacity : Nat) (isn : WrappingInt32) (t : Trace) : Prop where
  setIsn_eq : t.receiver.setIsn = true
  isn_eq : t.receiver.isn = isn
  refines : ∃ popped, Refines S capacity ⟨⟨t.receiver.reassembler, popped⟩, t.accepted⟩

variable {S : List Byte} {capacity : Nat} {isn : WrappingInt32} {t : Trace}

/-- A bare SYN pushes nothing. -/
theorem pushSubstring_syn (capacity : Nat) :
    (StreamReassembler.new capacity).pushSubstring [] 0 false =
      StreamReassembler.new capacity :=
  pushSubstring_nothing _

theorem windowed_new (hS : S ≠ []) (capacity : Nat) {syn : TCPSegment}
    (hsyn : syn.header.syn = true) (hfin : syn.header.fin = false) (hpayload : syn.payload = [])
    (hseqno : syn.header.seqno = isn) : Windowed S capacity isn (Trace.new capacity syn) := by
  obtain ⟨hisn, hreassembler⟩ := segmentReceived_syn (r := TCPReceiver.new capacity) rfl hsyn
    (show 0 < 2 ^ 31 by decide)
  rw [hpayload, hfin] at hreassembler
  refine ⟨?_, hisn.trans hseqno, [], ?_⟩
  · change ((TCPReceiver.new capacity).segmentReceived syn).setIsn = true
    rw [setIsn_segmentReceived, hsyn, Bool.or_true]
  · change Refines S capacity
      ⟨⟨((TCPReceiver.new capacity).segmentReceived syn).reassembler, []⟩, ∅⟩
    rw [hreassembler]
    change Refines S capacity ⟨⟨(StreamReassembler.new capacity).pushSubstring [] 0 false, []⟩, ∅⟩
    rw [pushSubstring_syn]
    exact refines_new hS capacity

section Segment

variable {seg : TCPSegment} {index : Nat}

/-- A legal segment is a push at its index. -/
theorem Windowed.reassembler_eq (h : Windowed S capacity isn t)
    (hsize : S.length + capacity < 2 ^ 64)
    (hlegal : (Call.segment seg index).Legal S isn t.receiver) :
    (t.receiver.segmentReceived seg).isn = isn ∧
      (t.receiver.segmentReceived seg).reassembler = t.receiver.reassembler.pushSubstring
        ((S.drop index).take seg.payload.length) index seg.header.fin := by
  obtain ⟨-, hseqno, hpayload, ⟨hpos, hle, -⟩, hlow, hhigh⟩ := hlegal
  obtain ⟨popped, hrefines⟩ := h.refines
  have hwritten : t.receiver.streamOut.bytesWritten ≤ S.length := by
    have hhead := hrefines.wellFormed.head_eq
    have := hrefines.head_le
    exact hhead ▸ this
  have hindex : wordSub 64 (1 + index) 1 = index := by
    rw [wordSub_eq_sub (by omega) (by omega)]
    omega
  have hat := segmentReceived_at h.setIsn_eq (h.isn_eq ▸ hseqno) (by omega) (by omega) hlow hhigh
  rw [hindex, h.isn_eq] at hat
  rw [← hpayload]
  exact hat

/-- What a segment brings in is what the window of the reassembler admits. -/
theorem takenIn_eq_admitted {before after : TCPReceiver} {popped popped' : List Byte} {len : Nat}
    {accepted : Finset Nat}
    (hbefore : Refines S capacity ⟨⟨before.reassembler, popped⟩, accepted⟩)
    (hafter : Refines S capacity ⟨⟨after.reassembler, popped'⟩,
      accepted ∪ before.reassembler.admitted index len⟩) :
    takenIn before after index len = before.reassembler.admitted index len := by
  have hhead : before.reassembler.headIndex = before.streamOut.bytesWritten :=
    hbefore.wellFormed.head_eq
  have hhead' : after.reassembler.headIndex = after.streamOut.bytesWritten :=
    hafter.wellFormed.head_eq
  ext j
  rw [takenIn, Finset.mem_filter, ← hhead, ← hhead']
  constructor
  · rintro ⟨hrange, hnew, htaken⟩
    have hmem : j ∈ accepted ∪ before.reassembler.admitted index len := by
      rcases htaken with hwritten | hpending
      · exact hafter.mem_of_lt_head j hwritten
      · exact ((hafter.pending_iff j).mp hpending).1
    rcases Finset.mem_union.mp hmem with hold | hadmitted
    · -- it was waiting already, so it lies in the window
      have hwaiting := (hbefore.pending_iff j).mpr ⟨hold, hnew⟩
      have hbounds := Finset.mem_Ioo.mp (hbefore.wellFormed.pending_subset hwaiting)
      rw [admitted, Finset.mem_inter]
      exact ⟨hrange, Finset.mem_Ico.mpr ⟨hnew, hbounds.2⟩⟩
    · exact hadmitted
  · intro hadmitted
    have hparts := hadmitted
    rw [admitted, Finset.mem_inter, Finset.mem_Ico (a := before.reassembler.headIndex)] at hparts
    refine ⟨hparts.1, hparts.2.1, ?_⟩
    by_cases hwritten : j < after.reassembler.headIndex
    · exact Or.inl hwritten
    · exact Or.inr ((hafter.pending_iff j).mpr
        ⟨Finset.mem_union_right _ hadmitted, not_lt.mp hwritten⟩)

/-- The reassembler behind a legal segment. -/
theorem Windowed.refines_segment (h : Windowed S capacity isn t)
    (hsize : S.length + capacity < 2 ^ 64)
    (hlegal : (Call.segment seg index).Legal S isn t.receiver) :
    ∃ popped, Refines S capacity ⟨⟨t.receiver.reassembler, popped⟩, t.accepted⟩ ∧
      Refines S capacity ⟨⟨(t.receiver.segmentReceived seg).reassembler, popped⟩,
        t.accepted ∪ t.receiver.reassembler.admitted index seg.payload.length⟩ := by
  obtain ⟨popped, hrefines⟩ := h.refines
  have hstep := hrefines.step hsize hlegal.2.2.2.1
  refine ⟨popped, hrefines, ?_⟩
  rw [(h.reassembler_eq hsize hlegal).2]
  exact hstep

end Segment

/-- Segments and reads keep the receiver in step with what was taken in. -/
theorem Windowed.step (h : Windowed S capacity isn t) (hsize : S.length + capacity < 2 ^ 64)
    {c : Call} (hlegal : c.Legal S isn t.receiver) : Windowed S capacity isn (t.step c) := by
  cases c with
  | segment seg index =>
      obtain ⟨popped, hbefore, hafter⟩ := h.refines_segment hsize hlegal
      refine ⟨?_, (h.reassembler_eq hsize hlegal).1, popped, ?_⟩
      · change (t.receiver.segmentReceived seg).setIsn = true
        rw [setIsn_segmentReceived, h.setIsn_eq, Bool.true_or]
      · simp only [Trace.step]
        rw [takenIn_eq_admitted hbefore hafter]
        exact hafter
  | read len =>
      obtain ⟨popped, hrefines⟩ := h.refines
      exact ⟨h.setIsn_eq, h.isn_eq, _,
        hrefines.step hsize (c := .read len) trivial⟩

/-! ## What the peer sees -/

/-- The ackno is the position of the first index that was not taken in, or behind the FIN. -/
theorem Windowed.ackno_eq (h : Windowed S capacity isn t) :
    ∃ first, (∀ j < first, j ∈ t.accepted) ∧ first ∉ t.accepted ∧
      t.receiver.ackno = some (wrap (1 + first + if first = S.length then 1 else 0) isn) := by
  obtain ⟨popped, hrefines⟩ := h.refines
  have hhead : t.receiver.reassembler.headIndex = t.receiver.streamOut.bytesWritten :=
    hrefines.wellFormed.head_eq
  refine ⟨t.receiver.reassembler.headIndex, hrefines.mem_of_lt_head, hrefines.head_not_mem, ?_⟩
  have hended : (if t.receiver.reassembler.headIndex = S.length then 1 else 0) =
      t.receiver.streamOut.inputEnded.toNat := by
    have hiff : t.receiver.streamOut.inputEnded = true ↔
        t.receiver.reassembler.headIndex = S.length := hrefines.ended_iff
    cases hvalue : t.receiver.streamOut.inputEnded with
    | true => rw [if_pos (hiff.mp hvalue), Bool.toNat_true]
    | false =>
        rw [if_neg (fun heq => by rw [hiff.mpr heq] at hvalue; cases hvalue), Bool.toNat_false]
  rw [ackno, if_pos h.setIsn_eq, absoluteAckno, h.setIsn_eq, h.isn_eq, hended, hhead]
  rfl

/-- Before the end, the bytes taken in are those in the window. -/
theorem Windowed.mem_takenIn_iff (h : Windowed S capacity isn t)
    (hsize : S.length + capacity < 2 ^ 64) {seg : TCPSegment} {index : Nat}
    (hlegal : (Call.segment seg index).Legal S isn t.receiver)
    (hended : t.receiver.streamOut.inputEnded = false) {j : Nat}
    (hj : j ∈ Finset.Ico index (index + seg.payload.length)) :
    j ∈ takenIn t.receiver (t.receiver.segmentReceived seg) index seg.payload.length ↔
      t.receiver.absoluteAckno ≤ 1 + j ∧
        1 + j < t.receiver.absoluteAckno + t.receiver.windowSize := by
  obtain ⟨popped, hbefore, hafter⟩ := h.refines_segment hsize hlegal
  have hhead : t.receiver.reassembler.headIndex = t.receiver.streamOut.bytesWritten :=
    hbefore.wellFormed.head_eq
  have hroom : t.receiver.windowSize = t.receiver.reassembler.output.remainingCapacity := by
    rw [windowSize, ← t.receiver.capacity_eq]
    rfl
  rw [takenIn_eq_admitted hbefore hafter, admitted, Finset.mem_inter, and_iff_right hj,
    Finset.mem_Ico, absoluteAckno, h.setIsn_eq, hended, Bool.toNat_true, Bool.toNat_false, hroom,
    hhead]
  omega

/-- The right edge never moves back. -/
theorem Windowed.rightEdge_le (h : Windowed S capacity isn t)
    (hsize : S.length + capacity < 2 ^ 64) {c : Call} (hlegal : c.Legal S isn t.receiver) :
    t.receiver.rightEdge ≤ (t.step c).receiver.rightEdge := by
  have hset := h.setIsn_eq
  have hset' := (h.step hsize hlegal).setIsn_eq
  rw [rightEdge_eq, rightEdge_eq, hset, hset']
  cases c with
  | segment seg index =>
      obtain ⟨popped, hrefines⟩ := h.refines
      have hfull := hlegal.2.2.2.1
      have hpush := hrefines.pushed hsize
        (pushable_of_legal hsize hfull.legal (hfull.emptyOutside _))
      rw [← (h.reassembler_eq hsize hlegal).2] at hpush
      have hread : (t.receiver.segmentReceived seg).streamOut.bytesRead =
          t.receiver.streamOut.bytesRead := hpush.bytesRead_eq
      have hended : t.receiver.streamOut.inputEnded.toNat ≤
          (t.receiver.segmentReceived seg).streamOut.inputEnded.toNat := by
        have heq : (t.receiver.segmentReceived seg).streamOut.inputEnded =
          (t.receiver.streamOut.inputEnded || _) := hpush.inputEnded_eq
        rw [heq]
        exact Bool.toNat_le_toNat (Bool.left_le_or _ _)
      simp only [Trace.step, capacity_segmentReceived, hread]
      omega
  | read len =>
      have hread : t.receiver.streamOut.bytesRead ≤
          (t.receiver.popOutput len).streamOut.bytesRead := Nat.le_add_right _ _
      have hended : (t.receiver.popOutput len).streamOut.inputEnded =
          t.receiver.streamOut.inputEnded := rfl
      have hcapacity : (t.receiver.popOutput len).capacity = t.receiver.capacity := rfl
      simp only [Trace.step, hended, hcapacity]
      omega

/-- After the bare SYN, whatever substrings of `S` arrive and whatever is read: the ackno is the
position of the first index not taken in, and one more when all of `S` was; before the end of
the stream an arriving byte is taken in exactly when its position is in the window; and the
right edge of the window never moves back. -/
theorem receiver_window_law (capacity : Nat) (S : List Byte) (isn : WrappingInt32)
    (syn : TCPSegment) (calls : List Call) (hS : S ≠ []) (hsize : S.length + capacity < 2 ^ 64)
    (hsyn : syn.header.syn = true) (hfin : syn.header.fin = false) (hpayload : syn.payload = [])
    (hseqno : syn.header.seqno = isn)
    (hrun : Admissible Trace.step (fun t c => c.Legal S isn t.receiver) (Trace.new capacity syn)
      calls) :
    let t := run Trace.step (Trace.new capacity syn) calls
    (∃ first, (∀ j < first, j ∈ t.accepted) ∧ first ∉ t.accepted ∧
      t.receiver.ackno = some (wrap (1 + first + if first = S.length then 1 else 0) isn)) ∧
    (∀ seg index, (Call.segment seg index).Legal S isn t.receiver →
      t.receiver.streamOut.inputEnded = false →
      ∀ j ∈ Finset.Ico index (index + seg.payload.length),
        j ∈ takenIn t.receiver (t.receiver.segmentReceived seg) index seg.payload.length ↔
          t.receiver.absoluteAckno ≤ 1 + j ∧
            1 + j < t.receiver.absoluteAckno + t.receiver.windowSize) ∧
    ∀ c, Call.Legal S isn t.receiver c → t.receiver.rightEdge ≤ (t.step c).receiver.rightEdge := by
  intro t
  have h : Windowed S capacity isn t :=
    hrun.invariant (fun t c ht hc => ht.step hsize hc)
      (windowed_new hS capacity hsyn hfin hpayload hseqno)
  refine ⟨h.ackno_eq, ?_, ?_⟩
  · intro seg index hlegal hended j hj
    exact h.mem_takenIn_iff hsize hlegal hended hj
  · intro c hlegal
    exact h.rightEdge_le hsize hlegal

/-- A segment that reaches beyond a window of two, next to the wrap of the sequence numbers. -/
theorem receiver_window_law_beyond :
    let S : List Byte := [1, 2, 3]
    let isn : WrappingInt32 := ⟨4294967295⟩
    let calls : List Call := [.segment ⟨{ seqno := ⟨1⟩, fin := true }, [2, 3]⟩ 1,
      .segment ⟨{ seqno := ⟨0⟩ }, [1]⟩ 0, .read 1]
    let t := run Trace.step (Trace.new 2 ⟨{ syn := true, seqno := isn }, []⟩) calls
    t.accepted = {0, 1} ∧ t.receiver.ackno = some ⟨2⟩ ∧ t.receiver.rightEdge = 4 ∧
      ∃ first, (∀ j < first, j ∈ t.accepted) ∧ first ∉ t.accepted ∧
        t.receiver.ackno = some (wrap (1 + first + if first = S.length then 1 else 0) isn) := by
  intro S isn calls t
  exact ⟨by decide +kernel, by decide +kernel, by decide +kernel,
    (receiver_window_law 2 S isn ⟨{ syn := true, seqno := isn }, []⟩ calls (by decide) (by decide)
      rfl rfl rfl rfl (by decide +kernel)).1⟩

end TCPReceiver
end Sponge
