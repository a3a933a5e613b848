import Sponge.StreamReassembler.Runs

/-!
# The reassembler as a set of indices

For non-empty substrings the reassembler is fully described by one set: the indices it
has accepted, that is, those that were inside the window when a push that covers them
arrived.  Everything it reports can be computed from that set.  The bytes written are
the indices in front of the first gap, the unassembled bytes are the accepted indices
behind it, and the output is ended exactly when the gap is at the end of `S`.

Main results:

- Theorem {lit}`Refines.step`: pushes and reads keep the reassembler in step with the
  set of accepted indices.
- Theorem {lit}`reassembler_refines_accepted`: the refinement along every run.
-/

namespace Sponge

open Library

namespace StreamReassembler

/-- The indices `S[index], ..., S[index + len - 1]` that the window lets in. -/
def admitted (r : StreamReassembler) (index len : Nat) : Finset Nat :=
  Finset.Ico index (index + len) ∩
    Finset.Ico r.headIndex (r.headIndex + r.output.remainingCapacity)

/-- A run together with the set of indices accepted so far. -/
structure SpecTrace extends Trace where
  accepted : Finset Nat

namespace SpecTrace

def new (capacity : Nat) : SpecTrace where
  toTrace := Trace.new capacity
  accepted := ∅

/-- One call, and what it adds to the accepted indices. -/
def step (S : List Byte) (t : SpecTrace) (c : Call) : SpecTrace where
  toTrace := t.toTrace.step S c
  accepted :=
    match c with
    | .push index len _ => t.accepted ∪ t.reassembler.admitted index len
    | .read _ => t.accepted

/-- The accepted indices that have not been written. -/
def waiting (t : SpecTrace) : Finset Nat :=
  t.accepted.filter (t.reassembler.streamOut.bytesWritten ≤ ·)

end SpecTrace

/-- A call with a non-empty substring, marked as the end exactly when it ends `S`. -/
def Call.Full (S : List Byte) : Call → Prop
  | .push index len eof =>
      0 < len ∧ index + len ≤ S.length ∧ (eof = true ↔ index + len = S.length)
  | .read _ => True

instance (S : List Byte) : ∀ c, Decidable (Call.Full S c)
  | .push _ _ _ => inferInstanceAs (Decidable (_ ∧ _ ∧ _))
  | .read _ => inferInstanceAs (Decidable True)

theorem Call.Full.legal {S : List Byte} {c : Call} (h : c.Full S) : c.Legal S := by
  cases c with
  | push index len eof => exact ⟨h.2.1, h.2.2.mp⟩
  | read len => trivial

theorem Call.Full.emptyOutside {S : List Byte} {c : Call} (h : c.Full S)
    (r : StreamReassembler) : c.EmptyOutside r := by
  cases c with
  | push index len eof =>
      intro hzero
      have := h.1
      omega
  | read len => trivial

/-- The reassembler and the set of accepted indices describe the same state. -/
structure Refines (S : List Byte) (capacity : Nat) (t : SpecTrace) : Prop
    extends Prefixed S capacity t.toTrace where
  accepted_lt : ∀ j ∈ t.accepted, j < S.length
  head_not_mem : t.reassembler.headIndex ∉ t.accepted
  mem_of_lt_head : ∀ j, j < t.reassembler.headIndex → j ∈ t.accepted
  pending_iff : ∀ j, j ∈ t.reassembler.pending ↔
    j ∈ t.accepted ∧ t.reassembler.headIndex ≤ j
  eof_iff : t.reassembler.eof = true ↔ S.length - 1 ∈ t.accepted
  ended_iff : t.reassembler.output.inputEnded = true ↔
    t.reassembler.headIndex = S.length

variable {S : List Byte} {capacity : Nat} {t : SpecTrace}

theorem refines_new (hS : S ≠ []) (capacity : Nat) :
    Refines S capacity (SpecTrace.new capacity) where
  toPrefixed := prefixed_new S capacity
  accepted_lt := by simp [SpecTrace.new]
  head_not_mem := by simp [SpecTrace.new]
  mem_of_lt_head := by simp [SpecTrace.new, Trace.new, StreamReassembler.new]
  pending_iff := by
    simp [SpecTrace.new, Trace.new, StreamReassembler.new, pending]
  eof_iff := by simp [SpecTrace.new, Trace.new, StreamReassembler.new]
  ended_iff := by
    have hpos := List.length_pos_of_ne_nil hS
    simp only [SpecTrace.new, Trace.new, StreamReassembler.new, ByteStream.new]
    constructor
    · intro h
      cases h
    · intro h
      omega

/-! ## Pushes before the end -/

section Push

variable {r' : StreamReassembler} {index len : Nat} {eof : Bool}

/-- The accepted indices behind the new head are the ones still waiting. -/
theorem Refines.push_pending_iff (h : Refines S capacity t)
    (hpush : Pushed t.reassembler ((S.drop index).take len) index eof r')
    (hlen : ((S.drop index).take len).length = len)
    (hended : t.reassembler.output.inputEnded = false) (j : Nat) :
    j ∈ r'.pending ↔ j ∈ t.accepted ∪ t.reassembler.admitted index len ∧ r'.headIndex ≤ j := by
  have heq := hpush.pending_eq hended
  have hmono := hpush.head_mono
  rw [hlen, ← admitted] at heq
  constructor
  · intro hj
    have hlt := Finset.mem_Ioo.mp (hpush.wellFormed.pending_subset hj)
    have hmem : j ∈ t.reassembler.pending ∪ t.reassembler.admitted index len := by
      rw [heq]
      exact Finset.mem_union_right _ hj
    rcases Finset.mem_union.mp hmem with hold | hnew
    · exact ⟨Finset.mem_union_left _ ((h.pending_iff j).mp hold).1, hlt.1.le⟩
    · exact ⟨Finset.mem_union_right _ hnew, hlt.1.le⟩
  · rintro ⟨hj, hle⟩
    have hmem : j ∈ t.reassembler.pending ∪ t.reassembler.admitted index len := by
      rcases Finset.mem_union.mp hj with hold | hnew
      · exact Finset.mem_union_left _ ((h.pending_iff j).mpr ⟨hold, by omega⟩)
      · exact Finset.mem_union_right _ hnew
    rw [heq, Finset.mem_union, Finset.mem_Ico] at hmem
    rcases hmem with hmem | hmem
    · omega
    · exact hmem

/-- Everything in front of the new head has been accepted. -/
theorem Refines.push_mem_of_lt_head (h : Refines S capacity t)
    (hpush : Pushed t.reassembler ((S.drop index).take len) index eof r')
    (hlen : ((S.drop index).take len).length = len)
    (hended : t.reassembler.output.inputEnded = false) (j : Nat) (hj : j < r'.headIndex) :
    j ∈ t.accepted ∪ t.reassembler.admitted index len := by
  by_cases hold : j < t.reassembler.headIndex
  · exact Finset.mem_union_left _ (h.mem_of_lt_head j hold)
  · have heq := hpush.pending_eq hended
    rw [hlen, ← admitted] at heq
    have hmem : j ∈ t.reassembler.pending ∪ t.reassembler.admitted index len := by
      rw [heq, Finset.mem_union, Finset.mem_Ico]
      left
      omega
    rcases Finset.mem_union.mp hmem with hwait | hnew
    · exact Finset.mem_union_left _ ((h.pending_iff j).mp hwait).1
    · exact Finset.mem_union_right _ hnew

/-- The end of the stream is noted exactly when the last index is accepted. -/
theorem Refines.push_eof_iff (h : Refines S capacity t)
    (hpush : Pushed t.reassembler ((S.drop index).take len) index eof r')
    (hlen : ((S.drop index).take len).length = len)
    (hfull : Call.Full S (.push index len eof))
    (hended : t.reassembler.output.inputEnded = false) :
    r'.eof = true ↔ S.length - 1 ∈ t.accepted ∪ t.reassembler.admitted index len := by
  obtain ⟨hpos, hle, hiff⟩ := hfull
  have hhead : t.reassembler.headIndex ≠ S.length := by
    intro heq
    rw [h.ended_iff.mpr heq] at hended
    cases hended
  have hheadle := h.head_le
  rw [hpush.eof_eq, hlen, Bool.or_eq_true, Bool.and_eq_true, decide_eq_true_eq, h.eof_iff,
    Finset.mem_union, admitted, Finset.mem_inter, Finset.mem_Ico, Finset.mem_Ico]
  constructor
  · rintro (hold | ⟨hnew, hfit⟩)
    · exact Or.inl hold
    · have := hiff.mp hnew
      right
      omega
  · rintro (hold | hnew)
    · exact Or.inl hold
    · exact Or.inr ⟨hiff.mpr (by omega), by omega⟩

/-- The output is ended exactly when the head has reached the end of `S`. -/
theorem Refines.push_ended_iff (h : Refines S capacity t)
    (hpush : Pushed t.reassembler ((S.drop index).take len) index eof r')
    (hlen : ((S.drop index).take len).length = len)
    (hfull : Call.Full S (.push index len eof))
    (hended : t.reassembler.output.inputEnded = false)
    (hhead : r'.headIndex ≤ S.length)
    (hlt : ∀ j ∈ t.accepted ∪ t.reassembler.admitted index len, j < S.length) :
    r'.output.inputEnded = true ↔ r'.headIndex = S.length := by
  have hpos : 0 < S.length := by
    have := hfull.1
    have := hfull.2.1
    omega
  have heof := h.push_eof_iff hpush hlen hfull hended
  have hpending := h.push_pending_iff hpush hlen hended
  rw [hpush.inputEnded_eq, hended, Bool.false_or, Bool.and_eq_true, heof,
    hpush.wellFormed.empty_iff]
  constructor
  · rintro ⟨hlast, hnone⟩
    -- The last index is accepted and nothing waits, so the head has passed it.
    have hpassed : ¬ r'.headIndex ≤ S.length - 1 := by
      intro hle
      have hwait := (hpending _).mpr ⟨hlast, hle⟩
      rw [hnone] at hwait
      exact absurd hwait (Finset.notMem_empty _)
    omega
  · intro hdone
    refine ⟨h.push_mem_of_lt_head hpush hlen hended _ (by omega), ?_⟩
    apply Finset.eq_empty_of_forall_notMem
    intro j hj
    have hwait := (hpending j).mp hj
    have := hlt j hwait.1
    omega

end Push

/-- A push before the end of the stream. -/
theorem Refines.push (h : Refines S capacity t) (hS : S.length + capacity < 2 ^ 64)
    {index len : Nat} {eof : Bool} (hfull : Call.Full S (.push index len eof))
    (hended : t.reassembler.output.inputEnded = false) :
    Refines S capacity (t.step S (.push index len eof)) := by
  have hlen := length_of_legal hfull.legal
  have hpush := h.pushed hS (pushable_of_legal hS hfull.legal (hfull.emptyOutside _))
  have hprefixed := h.toPrefixed.step hS hfull.legal (hfull.emptyOutside _)
  have hpending := h.push_pending_iff hpush hlen hended
  have hlt : ∀ j ∈ t.accepted ∪ t.reassembler.admitted index len, j < S.length := by
    intro j hj
    rcases Finset.mem_union.mp hj with hold | hnew
    · exact h.accepted_lt j hold
    · have hrange := Finset.mem_Ico.mp (Finset.mem_inter.mp hnew).1
      have := hfull.2.1
      omega
  refine ⟨hprefixed, hlt, ?_, h.push_mem_of_lt_head hpush hlen hended, hpending,
    h.push_eof_iff hpush hlen hfull hended,
    h.push_ended_iff hpush hlen hfull hended hprefixed.head_le hlt⟩
  intro hmem
  have hwait := (hpending _).mpr ⟨hmem, le_rfl⟩
  exact absurd (Finset.mem_Ioo.mp (hpush.wellFormed.pending_subset hwait)).1 (lt_irrefl _)

/-- After the end nothing more is accepted and nothing changes. -/
theorem Refines.push_ended (h : Refines S capacity t) (hS : S.length + capacity < 2 ^ 64)
    {index len : Nat} {eof : Bool} (hfull : Call.Full S (.push index len eof))
    (hended : t.reassembler.output.inputEnded = true) :
    Refines S capacity (t.step S (.push index len eof)) := by
  have hlen := length_of_legal hfull.legal
  have hpush := h.pushed hS (pushable_of_legal hS hfull.legal (hfull.emptyOutside _))
  have hprefixed := h.toPrefixed.step hS hfull.legal (hfull.emptyOutside _)
  have hdone := h.ended_iff.mp hended
  have hnone : t.reassembler.admitted index len = ∅ := by
    apply Finset.eq_empty_of_forall_notMem
    intro j hj
    rw [admitted, Finset.mem_inter, Finset.mem_Ico, Finset.mem_Ico] at hj
    have := hfull.2.1
    omega
  have haccepted : (t.step S (.push index len eof)).accepted = t.accepted := by
    change t.accepted ∪ t.reassembler.admitted index len = t.accepted
    rw [hnone, Finset.union_empty]
  have hempty : ∀ j, j ∉ t.reassembler.pending := by
    intro j hj
    have hwait := (h.pending_iff j).mp hj
    have := h.accepted_lt j hwait.1
    omega
  have hhead : (t.step S (.push index len eof)).reassembler.headIndex = S.length :=
    le_antisymm hprefixed.head_le (hdone ▸ hpush.head_mono)
  have hpending : ∀ j, j ∉ (t.step S (.push index len eof)).reassembler.pending := by
    intro j hj
    have hold := hpush.pending_subset hj
    rw [hlen, ← admitted, hnone, Finset.union_empty] at hold
    exact hempty j hold
  have hstill : (t.step S (.push index len eof)).reassembler.output.inputEnded = true := by
    refine hpush.inputEnded_eq.trans ?_
    rw [hended, Bool.true_or]
  have heof : t.reassembler.eof = true := by
    have := hfull.1
    have := hfull.2.1
    exact h.eof_iff.mpr (h.mem_of_lt_head _ (by omega))
  refine ⟨hprefixed, ?_, ?_, ?_, ?_, ?_, ?_⟩
  · rw [haccepted]
    exact h.accepted_lt
  · rw [haccepted, hhead]
    exact fun hmem => lt_irrefl _ (h.accepted_lt _ hmem)
  · rw [haccepted, hhead, ← hdone]
    exact h.mem_of_lt_head
  · intro j
    rw [haccepted, hhead]
    constructor
    · intro hj
      exact absurd hj (hpending j)
    · rintro ⟨hj, hle⟩
      have := h.accepted_lt j hj
      omega
  · rw [haccepted, ← h.eof_iff, heof]
    have hnoted := hpush.eof_eq
    rw [heof, Bool.true_or] at hnoted
    exact iff_of_true hnoted rfl
  · exact iff_of_true hstill hhead

/-- Pushes and reads keep the reassembler in step with the accepted indices. -/
theorem Refines.step (h : Refines S capacity t) (hS : S.length + capacity < 2 ^ 64)
    {c : Call} (hfull : c.Full S) : Refines S capacity (t.step S c) := by
  cases c with
  | push index len eof =>
      cases hended : t.reassembler.output.inputEnded with
      | false => exact h.push hS hfull hended
      | true => exact h.push_ended hS hfull hended
  | read len =>
      exact ⟨h.toPrefixed.step hS hfull.legal (hfull.emptyOutside _), h.accepted_lt,
        h.head_not_mem, h.mem_of_lt_head, h.pending_iff, h.eof_iff, h.ended_iff⟩

/-! ## The refinement along runs -/

/-- The unassembled bytes are the accepted indices that wait behind the head. -/
theorem Refines.pending_eq_waiting (h : Refines S capacity t) :
    t.reassembler.pending = t.waiting := by
  ext j
  rw [h.pending_iff, SpecTrace.waiting, Finset.mem_filter, streamOut, ← h.wellFormed.head_eq]

/-- Along every run with non-empty substrings of a non-empty `S`, the reassembler is
determined by the set of accepted indices: the bytes written are those in front of the
first index never accepted, that index does not wait, each waiting index is counted
once, buffered and waiting bytes fit into the capacity, and the output is ended exactly
when all of `S` has been written. -/
theorem reassembler_refines_accepted (capacity : Nat) (S : List Byte) (calls : List Call)
    (hpos : S ≠ []) (hS : S.length + capacity < 2 ^ 64)
    (hrun : Admissible (SpecTrace.step S) (fun _ c => c.Full S) (SpecTrace.new capacity) calls) :
    let t := run (SpecTrace.step S) (SpecTrace.new capacity) calls
    let h := t.reassembler.streamOut.bytesWritten
    t.written = S.take h ∧ h ∉ t.waiting ∧
      t.reassembler.unassembledBytes = t.waiting.card ∧
      t.reassembler.streamOut.bufferSize + t.reassembler.unassembledBytes ≤ capacity ∧
      (∀ j < h, j ∈ t.accepted) ∧ h ∉ t.accepted ∧
      (t.reassembler.streamOut.inputEnded = true ↔ h = S.length) := by
  intro t h
  have hinv : Refines S capacity t :=
    hrun.invariant (fun t c ht hc => ht.step hS hc) (refines_new hpos capacity)
  have hhead : t.reassembler.headIndex = h := hinv.wellFormed.head_eq
  have hwaiting := hinv.pending_eq_waiting
  refine ⟨?_, ?_, ?_, ?_, ?_, ?_, ?_⟩
  · rw [← hhead]
    exact hinv.written_eq
  · intro hmem
    exact hinv.head_not_mem (hhead ▸ (Finset.mem_filter.mp hmem).1)
  · rw [← hwaiting, hinv.wellFormed.card_pending]
  · have hroom := t.reassembler.output.bufferSize_add_remainingCapacity
    have hle := hinv.wellFormed.unassembledBytes_le
    have hcap := hinv.capacity_eq
    rw [streamOut]
    omega
  · rw [← hhead]
    exact hinv.mem_of_lt_head
  · rw [← hhead]
    exact hinv.head_not_mem
  · rw [← hhead]
    exact hinv.ended_iff

/-- Substrings that overlap on both sides and run over the window, with a read. -/
theorem reassembler_refines_accepted_overlapping :
    let S : List Byte := [97, 98, 99, 100, 101, 102]
    let calls : List Call :=
      [.push 2 2 false, .push 1 4 false, .push 3 3 true, .push 0 1 false, .read 4,
        .push 0 6 true]
    let t := run (SpecTrace.step S) (SpecTrace.new 5) calls
    Admissible (SpecTrace.step S) (fun _ c => c.Full S) (SpecTrace.new 5) calls ∧
      t.written = S ∧ t.reassembler.streamOut.inputEnded = true := by
  intro S calls t
  have hrun : Admissible (SpecTrace.step S) (fun _ c => c.Full S) (SpecTrace.new 5) calls := by
    decide
  obtain ⟨hwritten, -, -, -, -, -, hended⟩ :=
    reassembler_refines_accepted 5 S calls (by decide) (by decide) hrun
  have hall : t.reassembler.streamOut.bytesWritten = S.length := by decide
  refine ⟨hrun, ?_, hended.mpr hall⟩
  rw [hwritten, hall, List.take_length]

end StreamReassembler
end Sponge
