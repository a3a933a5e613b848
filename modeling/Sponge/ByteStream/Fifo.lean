import Sponge.Library.Execution
import Sponge.ByteStream

/-!
# A byte stream is a bounded queue

The stream is driven by its writer, which writes and ends the input, and by its reader,
which peeks, pops and reads.  A trace records next to the stream the bytes that its writes
have accepted and the bytes that have left it.

Main results:

- Theorem {lit}`Queued.step`: what was accepted is what has left followed by what is
  buffered, and the counters count these bytes.
- Theorem {lit}`bounded_fifo`: over every sequence of calls the stream is a bounded queue,
  and no access leaves the ring.
-/

namespace Sponge

open Library

namespace ByteStream

/-- A call on the stream. -/
inductive Call where
  | write (data : List Byte)
  | peekOutput (len : Nat)
  | popOutput (len : Nat)
  | read (len : Nat)
  | endInput
deriving DecidableEq, Repr

/-- A stream with its history: the bytes accepted by its writes, and those popped or
read. -/
structure Trace where
  stream : ByteStream
  accepted : List Byte
  taken : List Byte

namespace Trace

/-- A fresh stream. -/
def new (capacity : Nat) : Trace where
  stream := ByteStream.new capacity
  accepted := []
  taken := []

/-- One call. -/
def step (t : Trace) : Call → Trace
  | .write data =>
      let written := t.stream.write data
      { t with stream := written.1, accepted := t.accepted ++ data.take written.2 }
  | .peekOutput _ => t
  | .popOutput len =>
      { t with
        stream := t.stream.popOutput len
        taken := t.taken ++ t.stream.peekOutput len }
  | .read len =>
      let result := t.stream.read len
      { t with stream := result.2, taken := t.taken ++ result.1 }
  | .endInput => { t with stream := t.stream.endInput }

end Trace

/-- After the calls `calls`, the bytes accepted are those that have left and those that are
buffered, the counters count them, and the input has ended if some call ended it. -/
structure Queued (capacity : Nat) (calls : List Call) (t : Trace) : Prop where
  capacity_eq : t.stream.capacity = capacity
  inputEnded_iff : t.stream.inputEnded = true ↔ .endInput ∈ calls
  accepted_eq : t.accepted = t.taken ++ t.stream.contents
  bytesRead_eq : t.stream.bytesRead = t.taken.length

variable {capacity : Nat} {calls : List Call} {t : Trace}

theorem queued_new (capacity : Nat) : Queued capacity [] (Trace.new capacity) where
  capacity_eq := rfl
  inputEnded_iff := by simp [Trace.new, ByteStream.new]
  accepted_eq := rfl
  bytesRead_eq := rfl

/-- Bytes that are popped leave in order. -/
theorem Queued.pop (h : Queued capacity calls t) (len : Nat) :
    t.accepted = t.taken ++ t.stream.peekOutput len ++ (t.stream.popOutput len).contents ∧
      (t.stream.popOutput len).bytesRead = (t.taken ++ t.stream.peekOutput len).length := by
  constructor
  · rw [peekOutput_eq, contents_popOutput, List.append_assoc, List.take_append_drop,
      h.accepted_eq]
  · rw [List.length_append, ← h.bytesRead_eq, peekOutput_eq, List.length_take, length_contents,
      Nat.min_comm]
    rfl

theorem endInput_mem_concat {c : Call} (hc : c ≠ .endInput) :
    .endInput ∈ calls ++ [c] ↔ .endInput ∈ calls := by
  simp [hc.symm]

/-- Every call keeps the bytes in order. -/
theorem Queued.step (h : Queued capacity calls t) (c : Call) :
    Queued capacity (calls ++ [c]) (t.step c) := by
  have hended : c ≠ .endInput → (t.stream.inputEnded = true ↔ .endInput ∈ calls ++ [c]) :=
    fun hc => h.inputEnded_iff.trans (endInput_mem_concat hc).symm
  cases c with
  | write data =>
      refine ⟨h.capacity_eq, hended (by simp), ?_, h.bytesRead_eq⟩
      change t.accepted ++ _ = t.taken ++ (t.stream.write data).1.contents
      rw [contents_write, h.accepted_eq, List.append_assoc]
      rfl
  | peekOutput len =>
      exact ⟨h.capacity_eq, hended (by simp), h.accepted_eq, h.bytesRead_eq⟩
  | popOutput len =>
      obtain ⟨haccepted, hread⟩ := h.pop len
      exact ⟨h.capacity_eq, hended (by simp), haccepted, hread⟩
  | read len =>
      obtain ⟨haccepted, hread⟩ := h.pop len
      exact ⟨h.capacity_eq, hended (by simp), haccepted, hread⟩
  | endInput => exact ⟨h.capacity_eq, by simp [Trace.step], h.accepted_eq, h.bytesRead_eq⟩

theorem Queued.bytesWritten_eq (h : Queued capacity calls t) :
    t.stream.bytesWritten = t.accepted.length := by
  rw [ByteStream.bytesWritten_eq, h.bytesRead_eq, h.accepted_eq, List.length_append,
    length_contents]

/-- What is buffered is what was accepted and has not left. -/
theorem Queued.contents_eq (h : Queued capacity calls t) :
    t.stream.contents = t.accepted.drop t.taken.length := by
  rw [h.accepted_eq, List.drop_left]

/-! ## Accesses to the ring -/

theorem front_lt (s : ByteStream) (h : 0 < s.capacity) : s.front < s.capacity := by
  rw [s.front_eq]
  exact Nat.mod_lt _ h

/-- The loop of `write` stays in the ring. -/
theorem writeChecked_write (s : ByteStream) (h : 0 < s.capacity) (data : List Byte) :
    RingBuffer.writeChecked s.capacity s.buf s.front (data.take (s.write data).2) =
      some ((s.write data).1.buf, (s.write data).1.front) :=
  RingBuffer.writeChecked_eq_some _ s.buf_length (s.front_lt h)

/-- The loop of `peek_output` stays in the ring. -/
theorem readChecked_peekOutput (s : ByteStream) (h : 0 < s.capacity) (len : Nat) :
    RingBuffer.readChecked s.capacity s.buf s.rear (min s.bufferSize len) =
      some (s.peekOutput len) :=
  RingBuffer.readChecked_eq_some _ s.buf_length (s.rear_lt h)

/-- After any sequence of calls on a stream of positive capacity: the loops of `write` and
`peek_output` access the ring in bounds only; the counters and sizes agree; a write accepts
the bytes that fit, and none once the input has ended; peeking shows the oldest bytes that
were accepted and have not left, and changes nothing; and the bytes that have left, followed
by those buffered, are all that was accepted. -/
theorem bounded_fifo (capacity : Nat) (hcapacity : 1 ≤ capacity) (calls : List Call) :
    let t := run Trace.step (Trace.new capacity) calls
    let s := t.stream
    (∀ data, RingBuffer.writeChecked s.capacity s.buf s.front (data.take (s.write data).2) =
        some ((s.write data).1.buf, (s.write data).1.front)) ∧
      (∀ len, RingBuffer.readChecked s.capacity s.buf s.rear (min s.bufferSize len) =
        some (s.peekOutput len)) ∧
      s.bytesWritten = t.accepted.length ∧ s.bytesRead = t.taken.length ∧
      s.bufferSize = s.bytesWritten - s.bytesRead ∧ s.bufferSize ≤ capacity ∧
      s.remainingCapacity = capacity - s.bufferSize ∧
      (∀ data, (s.write data).2 =
          (if .endInput ∈ calls then 0 else min s.remainingCapacity data.length) ∧
        (t.step (.write data)).stream.contents = s.contents ++ data.take (s.write data).2) ∧
      (∀ len, s.peekOutput len = (t.accepted.drop t.taken.length).take len ∧
        t.step (.peekOutput len) = t) ∧
      t.taken ++ s.contents = t.accepted := by
  intro t s
  have h : Queued capacity calls t :=
    run_history (fun _ _ c hdone => hdone.step c) (queued_new capacity) calls
  have hpos : 0 < s.capacity := by
    rw [h.capacity_eq]
    exact hcapacity
  have hsize := s.bufferSize_add_remainingCapacity
  have hcount := s.bytesWritten_eq
  rw [h.capacity_eq] at hsize
  refine ⟨s.writeChecked_write hpos, s.readChecked_peekOutput hpos, h.bytesWritten_eq,
    h.bytesRead_eq, by omega, by omega, by omega, ?_, ?_, h.accepted_eq.symm⟩
  · intro data
    refine ⟨?_, s.contents_write data⟩
    change s.writeLength data = _
    have hended : s.inputEnded = true ↔ .endInput ∈ calls := h.inputEnded_iff
    simp only [writeLength, hended]
  · intro len
    rw [peekOutput_eq, h.contents_eq]
    exact ⟨rfl, rfl⟩

/-- A ring of two bytes that has wrapped around and is full. -/
theorem bounded_fifo_wrapped :
    let t := run Trace.step (Trace.new 2) [.write [1, 2, 3], .read 1, .write [4, 5], .peekOutput 9]
    t.accepted = [1, 2, 4] ∧ t.taken = [1] ∧ t.stream.front = t.stream.rear ∧
      t.taken ++ t.stream.contents = t.accepted := by
  have h := bounded_fifo 2 (by decide)
    [.write [1, 2, 3], .read 1, .write [4, 5], .peekOutput 9]
  obtain ⟨-, -, -, -, -, -, -, -, -, hqueue⟩ := h
  exact ⟨by decide, by decide, by decide, hqueue⟩

end ByteStream
end Sponge
