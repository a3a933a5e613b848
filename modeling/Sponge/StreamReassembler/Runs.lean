import Sponge.Library.Execution
import Sponge.StreamReassembler.Assembly

/-!
# Runs of the reassembler

The reassembler receives substrings of one byte string `S` in any order, overlapping
and repeated as the network pleases, while the application reads the output.  These
runs are what the class promises to survive: its output is a prefix of `S`, and it is
ended only when all of `S` has been written.

Both promises fail on empty substrings.  An empty substring strictly inside a waiting
fragment is stored as a fragment of its own and hides the one it lies in from the next
merge, so bytes are written twice.  An empty substring that carries the end of the
stream is remembered as a bare flag, and the output is ended as soon as no byte is
waiting, however many are still missing.  The conditions below name exactly these two
kinds of calls.

Main results:

- Theorem {lit}`written_eq_take`: without empty substrings inside waiting fragments,
  the output is a prefix of `S`.
- Theorem {lit}`bytesWritten_of_inputEnded`: if moreover empty end markers come only
  after the last byte, the output is not ended early.
- Theorems {lit}`written_eq_take_fails` and {lit}`bytesWritten_of_inputEnded_fails`:
  without these conditions both fail.
-/

namespace Sponge

open Library

namespace StreamReassembler

/-- A call on the reassembler: `push_substring` with the substring of `S` of the given
index and length, or a read of `stream_out()`. -/
inductive Call where
  | push (index len : Nat) (eof : Bool)
  | read (len : Nat)
deriving DecidableEq, Repr

/-- A reassembler together with the bytes read from its output so far. -/
structure Trace where
  reassembler : StreamReassembler
  popped : List Byte

namespace Trace

/-- A fresh reassembler from whose output nothing has been read. -/
def new (capacity : Nat) : Trace where
  reassembler := StreamReassembler.new capacity
  popped := []

/-- All bytes ever written to the output: those read and those still buffered. -/
def written (t : Trace) : List Byte :=
  t.popped ++ t.reassembler.streamOut.contents

/-- One call. -/
def step (S : List Byte) (t : Trace) : Call → Trace
  | .push index len eof =>
      { t with reassembler := t.reassembler.pushSubstring ((S.drop index).take len) index eof }
  | .read len =>
      { reassembler := t.reassembler.popOutput len
        popped := t.popped ++ t.reassembler.streamOut.peekOutput len }

end Trace

/-- The calls a user may make: substrings of `S`, marked as its end only if they end
where `S` ends. -/
def Call.Legal (S : List Byte) : Call → Prop
  | .push index len eof => index + len ≤ S.length ∧ (eof = true → index + len = S.length)
  | .read _ => True

instance (S : List Byte) : ∀ c, Decidable (Call.Legal S c)
  | .push _ _ _ => inferInstanceAs (Decidable (_ ∧ _))
  | .read _ => inferInstanceAs (Decidable True)

/-- An empty substring does not fall strictly inside a waiting fragment. -/
def Call.EmptyOutside (r : StreamReassembler) : Call → Prop
  | .push index len _ => len = 0 → ∀ e ∈ r.auxiliaryCache.toList, ¬ e.Straddles index
  | .read _ => True

instance (r : StreamReassembler) : ∀ c, Decidable (Call.EmptyOutside r c)
  | .push _ _ _ => inferInstanceAs (Decidable (_ → _))
  | .read _ => inferInstanceAs (Decidable True)

/-- An empty end marker that falls into the window finds the byte in front of it
written or waiting. -/
def Call.EndArrived (r : StreamReassembler) : Call → Prop
  | .push index len eof => len = 0 → eof = true →
      index ≤ r.headIndex + r.output.remainingCapacity →
        index ≤ r.headIndex ∨ index - 1 ∈ r.pending
  | .read _ => True

instance (r : StreamReassembler) : ∀ c, Decidable (Call.EndArrived r c)
  | .push _ _ _ => inferInstanceAs (Decidable (_ → _ → _ → _))
  | .read _ => inferInstanceAs (Decidable True)

/-! ## The output is a prefix -/

/-- What holds along runs without empty substrings inside waiting fragments. -/
structure Prefixed (S : List Byte) (capacity : Nat) (t : Trace) : Prop where
  wellFormed : t.reassembler.WellFormed
  agrees : t.reassembler.Agrees S
  capacity_eq : t.reassembler.output.capacity = capacity
  written_eq : t.written = S.take t.reassembler.headIndex
  head_le : t.reassembler.headIndex ≤ S.length

variable {S : List Byte} {capacity : Nat} {t : Trace}

theorem prefixed_new (S : List Byte) (capacity : Nat) :
    Prefixed S capacity (Trace.new capacity) where
  wellFormed := wellFormed_new capacity
  agrees := by simp [Agrees, Trace.new, StreamReassembler.new]
  capacity_eq := rfl
  written_eq := by simp [Trace.written, Trace.new, StreamReassembler.new, streamOut]
  head_le := Nat.zero_le _

/-- A push that agrees with `S`: its data is a piece of `S`, an end mark stands at the
end of `S`, and an empty substring does not fall strictly inside a waiting fragment. -/
structure Pushable (S : List Byte) (r : StreamReassembler) (data : List Byte) (index : Nat)
    (eof : Bool) : Prop where
  excerpt : IsExcerpt S ⟨index, data⟩
  eof_stop : eof = true → index + data.length = S.length
  stop_lt : index + data.length < 2 ^ 64
  outside : data = [] → ∀ e ∈ r.auxiliaryCache.toList, ¬ e.Straddles index

variable {data : List Byte} {index : Nat} {eof : Bool}

/-- Such a push meets the specification of `push_substring`. -/
theorem Prefixed.pushed (h : Prefixed S capacity t) (hS : S.length + capacity < 2 ^ 64)
    (hpush : Pushable S t.reassembler data index eof) :
    Pushed t.reassembler data index eof (t.reassembler.pushSubstring data index eof) := by
  have hroom := t.reassembler.output.bufferSize_add_remainingCapacity
  have hhead := h.head_le
  have hcap := h.capacity_eq
  have hlen : data.length ≤ S.length := by
    by_cases hnil : data = []
    · simp [hnil]
    · have hstop := hpush.excerpt.stop_le hnil
      simp only [Fragment.stop] at hstop
      omega
  apply pushSubstring_pushed h.wellFormed
  · omega
  · exact hpush.stop_lt
  · omega
  · exact hpush.outside

/-- Such a push keeps the output a prefix of `S`. -/
theorem Prefixed.push (h : Prefixed S capacity t) (hS : S.length + capacity < 2 ^ 64)
    (hpush : Pushable S t.reassembler data index eof) :
    Prefixed S capacity
      { t with reassembler := t.reassembler.pushSubstring data index eof } := by
  have hpushed := h.pushed hS hpush
  obtain ⟨bytes, hcontents, hindex, htake⟩ := hpushed.written
  have htake' := htake S h.agrees hpush.excerpt
  refine ⟨hpushed.wellFormed, hpushed.agrees S h.agrees hpush.excerpt, ?_, ?_, ?_⟩
  · rw [hpushed.capacity_eq, h.capacity_eq]
  · have hold := h.written_eq
    rw [Trace.written, streamOut] at hold ⊢
    rw [hcontents, ← List.append_assoc, ← htake', ← hold]
  · have hlength := congrArg List.length htake'
    have := h.head_le
    rw [List.length_append, List.length_take, List.length_take] at hlength
    simp only
    omega

/-- The application reads the oldest bytes of the output. -/
theorem Prefixed.read (h : Prefixed S capacity t) (len : Nat) :
    Prefixed S capacity
      { reassembler := t.reassembler.popOutput len
        popped := t.popped ++ t.reassembler.streamOut.peekOutput len } := by
  refine ⟨h.wellFormed.popOutput len, h.agrees, h.capacity_eq, ?_, h.head_le⟩
  have hold := h.written_eq
  simp only [Trace.written, streamOut, StreamReassembler.popOutput, ByteStream.peekOutput_eq,
    ByteStream.contents_popOutput] at hold ⊢
  rw [List.append_assoc, List.take_append_drop]
  exact hold

/-- What has been written stays a prefix when more bytes are to come. -/
theorem Prefixed.append (h : Prefixed S capacity t) (T : List Byte) :
    Prefixed (S ++ T) capacity t where
  wellFormed := h.wellFormed
  agrees := h.agrees.append T
  capacity_eq := h.capacity_eq
  written_eq := by
    rw [List.take_append_of_le_length h.head_le]
    exact h.written_eq
  head_le := by
    rw [List.length_append]
    exact Nat.le_add_right_of_le h.head_le

/-- Marking the output as failed does not touch its contents. -/
theorem Prefixed.setError (h : Prefixed S capacity t) :
    Prefixed S capacity
      { t with reassembler := { t.reassembler with output := t.reassembler.output.setError } } :=
  ⟨⟨h.wellFormed.separated, h.wellFormed.head_lt, h.wellFormed.stop_le, h.wellFormed.count,
    h.wellFormed.head_eq⟩, h.agrees, h.capacity_eq, h.written_eq, h.head_le⟩

/-- A legal push passes a substring of the given length. -/
theorem length_of_legal {len : Nat} (hlegal : Call.Legal S (.push index len eof)) :
    ((S.drop index).take len).length = len := by
  have := hlegal.1
  rw [List.length_take, List.length_drop]
  omega

theorem pushable_of_legal {r : StreamReassembler} {len : Nat}
    (hS : S.length + capacity < 2 ^ 64) (hlegal : Call.Legal S (.push index len eof))
    (hempty : Call.EmptyOutside r (.push index len eof)) :
    Pushable S r ((S.drop index).take len) index eof := by
  have hlen := length_of_legal hlegal
  have hle := hlegal.1
  refine ⟨isExcerpt_ofSlice S index len, ?_, by omega, ?_⟩
  · rw [hlen]
    exact hlegal.2
  · intro hnil
    rw [hnil, List.length_nil] at hlen
    exact hempty hlen.symm

/-- Pushes and reads keep the output a prefix of `S`. -/
theorem Prefixed.step (h : Prefixed S capacity t) (hS : S.length + capacity < 2 ^ 64)
    {c : Call} (hlegal : c.Legal S) (hempty : c.EmptyOutside t.reassembler) :
    Prefixed S capacity (t.step S c) := by
  cases c with
  | push index len eof => exact h.push hS (pushable_of_legal hS hlegal hempty)
  | read len => exact h.read len

/-- The output is always a prefix of `S`, in every run in which no empty substring is
pushed strictly inside a waiting fragment. -/
theorem written_eq_take (capacity : Nat) (S : List Byte) (calls : List Call)
    (hS : S.length + capacity < 2 ^ 64)
    (hrun : Admissible (Trace.step S)
      (fun t c => c.Legal S ∧ c.EmptyOutside t.reassembler) (Trace.new capacity) calls) :
    let t := run (Trace.step S) (Trace.new capacity) calls
    t.written = S.take t.reassembler.streamOut.bytesWritten := by
  intro t
  have h : Prefixed S capacity t :=
    hrun.invariant (fun t c ht hc => ht.step hS hc.1 hc.2) (prefixed_new S capacity)
  have hhead : t.reassembler.headIndex = t.reassembler.streamOut.bytesWritten :=
    h.wellFormed.head_eq
  rw [h.written_eq, hhead]

/-- Overlapping, repeated and empty substrings in a bad order, with a read in between. -/
theorem written_eq_take_overlapping :
    let S : List Byte := [97, 98, 99, 100, 101, 102]
    let calls : List Call :=
      [.push 3 2 false, .push 5 0 false, .push 2 4 true, .push 0 3 false, .read 2,
        .push 1 5 true]
    let t := run (Trace.step S) (Trace.new 8) calls
    Admissible (Trace.step S)
        (fun t c => c.Legal S ∧ c.EmptyOutside t.reassembler) (Trace.new 8) calls ∧
      t.written = S.take t.reassembler.streamOut.bytesWritten := by
  intro S calls t
  have hrun : Admissible (Trace.step S)
      (fun t c => c.Legal S ∧ c.EmptyOutside t.reassembler) (Trace.new 8) calls := by decide
  exact ⟨hrun, written_eq_take 8 S calls (by decide) hrun⟩

/-- An empty substring inside a waiting fragment makes later bytes be written twice:
with `abcdef` waiting at 2, an empty push at 5 and then `efg` at 6, the two bytes `ef`
come out a second time. -/
theorem written_eq_take_fails :
    ¬ ∀ (capacity : Nat) (S : List Byte) (calls : List Call), 1 ≤ capacity →
      S.length + capacity < 2 ^ 64 →
      Admissible (Trace.step S) (fun _ c => c.Legal S) (Trace.new capacity) calls →
      (run (Trace.step S) (Trace.new capacity) calls).written =
        S.take
          (run (Trace.step S) (Trace.new capacity) calls).reassembler.streamOut.bytesWritten := by
  intro h
  have hbad := h 16 [120, 121, 97, 98, 99, 100, 101, 102, 103]
    [.push 2 6 false, .push 5 0 false, .push 6 3 true, .push 0 2 false]
    (by decide) (by decide) (by decide)
  exact absurd hbad (by decide)

/-! ## The output is not ended early -/

/-- What holds along runs whose empty end markers come after the last byte. -/
structure EndSound (S : List Byte) (capacity : Nat) (t : Trace) : Prop
    extends Prefixed S capacity t where
  eof_known : t.reassembler.eof = true →
    t.reassembler.headIndex = S.length ∨ S.length - 1 ∈ t.reassembler.pending
  ended : t.reassembler.output.inputEnded = true → t.reassembler.headIndex = S.length

theorem endSound_new (S : List Byte) (capacity : Nat) :
    EndSound S capacity (Trace.new capacity) where
  toPrefixed := prefixed_new S capacity
  eof_known := by simp [Trace.new, StreamReassembler.new]
  ended := by simp [Trace.new, StreamReassembler.new, ByteStream.new]

/-- After a push, the head has passed a place or the place is still waiting, if it was
waiting before or arrived now. -/
theorem Pushed.passed_or_pending {r r' : StreamReassembler} {data : List Byte}
    {index : Nat} {eof : Bool} (h : Pushed r data index eof r')
    (hended : r.output.inputEnded = false) {j : Nat}
    (hj : j ∈ r.pending ∪ (Finset.Ico index (index + data.length) ∩
      Finset.Ico r.headIndex (r.headIndex + r.output.remainingCapacity))) :
    j < r'.headIndex ∨ j ∈ r'.pending := by
  rw [h.pending_eq hended, Finset.mem_union, Finset.mem_Ico] at hj
  rcases hj with hj | hj
  · exact Or.inl hj.2
  · exact Or.inr hj

/-- The head does not move once it has reached the end of `S`. -/
theorem Pushed.head_mono {r r' : StreamReassembler} {data : List Byte}
    {index : Nat} {eof : Bool} (h : Pushed r data index eof r') :
    r.headIndex ≤ r'.headIndex := by
  obtain ⟨bytes, -, hindex, -⟩ := h.written
  omega

/-- The end mark stands for a last byte that is written or waiting. -/
theorem EndSound.push_eof_known (h : EndSound S capacity t) (hS : S.length + capacity < 2 ^ 64)
    (hpush : Pushable S t.reassembler data index eof)
    (harrived : Call.EndArrived t.reassembler (.push index data.length eof))
    (heof : (t.reassembler.pushSubstring data index eof).eof = true) :
    (t.reassembler.pushSubstring data index eof).headIndex = S.length ∨
      S.length - 1 ∈ (t.reassembler.pushSubstring data index eof).pending := by
  have hpushed := h.pushed hS hpush
  have hnext := (h.toPrefixed.push hS hpush).head_le
  have hmono := hpushed.head_mono
  simp only at hnext
  by_cases hended : t.reassembler.output.inputEnded = true
  · have := h.ended hended
    left
    omega
  rw [Bool.not_eq_true] at hended
  have hlast : t.reassembler.headIndex = S.length ∨
      S.length - 1 ∈ t.reassembler.pending ∪
        (Finset.Ico index (index + data.length) ∩ Finset.Ico t.reassembler.headIndex
          (t.reassembler.headIndex + t.reassembler.output.remainingCapacity)) := by
    rw [hpushed.eof_eq, Bool.or_eq_true, Bool.and_eq_true, decide_eq_true_eq] at heof
    rw [Finset.mem_union, Finset.mem_inter, Finset.mem_Ico, Finset.mem_Ico]
    have hhead := h.head_le
    rcases heof with hold | ⟨hnew, hfit⟩
    · rcases h.eof_known hold with hdone | hwait
      · exact Or.inl hdone
      · exact Or.inr (Or.inl hwait)
    · have hplace := hpush.eof_stop hnew
      by_cases hzero : data.length = 0
      · rcases harrived hzero hnew (by omega) with hdone | hwait
        · left
          omega
        · have hindex : index = S.length := by omega
          exact Or.inr (Or.inl (hindex ▸ hwait))
      · by_cases hdone : t.reassembler.headIndex = S.length
        · exact Or.inl hdone
        · right
          right
          omega
  rcases hlast with hdone | hwait
  · left
    omega
  · rcases hpushed.passed_or_pending hended hwait with hpassed | hpending
    · left
      omega
    · exact Or.inr hpending

/-- A push keeps the output from ending early. -/
theorem EndSound.push (h : EndSound S capacity t) (hS : S.length + capacity < 2 ^ 64)
    (hpush : Pushable S t.reassembler data index eof)
    (harrived : Call.EndArrived t.reassembler (.push index data.length eof)) :
    EndSound S capacity
      { t with reassembler := t.reassembler.pushSubstring data index eof } := by
  have hprefixed := h.toPrefixed.push hS hpush
  have hpushed := h.pushed hS hpush
  have hknown := h.push_eof_known hS hpush harrived
  refine ⟨hprefixed, hknown, ?_⟩
  intro hended
  have hhead := hprefixed.head_le
  simp only at hended hhead ⊢
  rw [hpushed.inputEnded_eq, Bool.or_eq_true, Bool.and_eq_true] at hended
  rcases hended with hold | ⟨heof, hnone⟩
  · have := h.ended hold
    have := hpushed.head_mono
    omega
  · -- Nothing waits any more, so the last byte must have been written.
    rcases hknown heof with hdone | hwait
    · exact hdone
    · rw [hpushed.wellFormed.empty_iff.mp hnone] at hwait
      exact absurd hwait (Finset.notMem_empty _)

/-- Pushes and reads keep the output from ending early. -/
theorem EndSound.step (h : EndSound S capacity t) (hS : S.length + capacity < 2 ^ 64)
    {c : Call} (hlegal : c.Legal S) (hempty : c.EmptyOutside t.reassembler)
    (harrived : c.EndArrived t.reassembler) : EndSound S capacity (t.step S c) := by
  cases c with
  | push index len eof =>
      refine h.push hS (pushable_of_legal hS hlegal hempty) ?_
      rw [length_of_legal hlegal]
      exact harrived
  | read len => exact ⟨h.toPrefixed.read len, h.eof_known, h.ended⟩

/-- The output is ended only when all of `S` has been written, in every run in which no
empty substring is pushed strictly inside a waiting fragment and an empty end marker
inside the window finds the last byte written or waiting. -/
theorem bytesWritten_of_inputEnded (capacity : Nat) (S : List Byte) (calls : List Call)
    (hS : S.length + capacity < 2 ^ 64)
    (hrun : Admissible (Trace.step S)
      (fun t c => c.Legal S ∧ c.EmptyOutside t.reassembler ∧ c.EndArrived t.reassembler)
      (Trace.new capacity) calls) :
    let t := run (Trace.step S) (Trace.new capacity) calls
    t.reassembler.streamOut.inputEnded = true →
      t.reassembler.streamOut.bytesWritten = S.length := by
  intro t hended
  have h : EndSound S capacity t :=
    hrun.invariant (fun t c ht hc => ht.step hS hc.1 hc.2.1 hc.2.2) (endSound_new S capacity)
  have hhead : t.reassembler.headIndex = t.reassembler.streamOut.bytesWritten :=
    h.wellFormed.head_eq
  rw [← hhead]
  exact h.ended hended

/-- The end marker arrives alone, after the last byte but before the first one. -/
theorem bytesWritten_of_inputEnded_marker :
    let S : List Byte := [97, 98, 99]
    let calls : List Call := [.push 2 1 false, .push 3 0 true, .read 1, .push 0 2 false]
    let t := run (Trace.step S) (Trace.new 8) calls
    Admissible (Trace.step S)
        (fun t c => c.Legal S ∧ c.EmptyOutside t.reassembler ∧ c.EndArrived t.reassembler)
        (Trace.new 8) calls ∧
      t.reassembler.streamOut.inputEnded = true ∧
      t.reassembler.streamOut.bytesWritten = S.length := by
  intro S calls t
  have hrun : Admissible (Trace.step S)
      (fun t c => c.Legal S ∧ c.EmptyOutside t.reassembler ∧ c.EndArrived t.reassembler)
      (Trace.new 8) calls := by decide
  have hended : t.reassembler.streamOut.inputEnded = true := by decide
  exact ⟨hrun, hended, bytesWritten_of_inputEnded 8 S calls (by decide) hrun hended⟩

/-- An empty end marker ahead of the data ends the output with no byte written. -/
theorem bytesWritten_of_inputEnded_fails :
    ¬ ∀ (capacity : Nat) (S : List Byte) (calls : List Call), 1 ≤ capacity →
      Admissible (Trace.step S) (fun _ c => c.Legal S) (Trace.new capacity) calls →
      (run (Trace.step S) (Trace.new capacity) calls).reassembler.streamOut.inputEnded = true →
      (run (Trace.step S) (Trace.new capacity) calls).reassembler.streamOut.bytesWritten =
        S.length := by
  intro h
  have hbad := h 8 [97] [.push 1 0 true] (by decide) (by decide) (by decide)
  exact absurd hbad (by decide)

end StreamReassembler
end Sponge
