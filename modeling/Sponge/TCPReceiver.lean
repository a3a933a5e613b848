import Sponge.StreamReassembler.Runs
import Sponge.TCPSegment

/-!
# The receiver

`TCPReceiver` of `libsponge/tcp_receiver.{hh,cc}`: it turns the sequence number of a
segment into an index of the stream and hands the payload to the reassembler.

A receiver is built with the capacity of its reassembler, and no operation changes
either; the structure carries this as a field, so that `window_size()` never
underflows.

Main results:

- Theorems {lit}`segmentReceived_syn` and {lit}`segmentReceived_at`: a segment whose
  position is known is a push at the index in front of it.
- Theorem {lit}`pushSubstring_wrapped`: a repeated SYN lies outside every window.
-/

namespace Sponge

open Library

namespace StreamReassembler

variable {P : ByteStream → Prop}

/-- What one round of `assemble_string` preserves, the loop does. -/
theorem assembleLoop_invariant {Q : StreamReassembler → Prop}
    (hone : ∀ r e, Q r → Q (assembleOne r e)) (fuel : Nat) (r : StreamReassembler) (h : Q r) :
    Q (assembleLoop fuel r) := by
  induction fuel generalizing r with
  | zero => exact h
  | succ fuel ih =>
      rw [assembleLoop]
      split
      · exact h
      · split
        · exact h
        · exact ih _ (hone _ _ h)

theorem assembleLoop_keeps (hwrite : ∀ stream data, P stream → P (stream.write data).1)
    (fuel : Nat) (r : StreamReassembler) (h : P r.output) : P (assembleLoop fuel r).output :=
  assembleLoop_invariant (Q := fun r => P r.output) (fun _ _ hr => hwrite _ _ hr) fuel r h

/-- Pushing only writes to the output and ends it. -/
theorem pushSubstring_keeps (hwrite : ∀ stream data, P stream → P (stream.write data).1)
    (hend : ∀ stream, P stream → P stream.endInput) (r : StreamReassembler) (data : List Byte)
    (index : Nat) (eof : Bool) (h : P r.output) : P (r.pushSubstring data index eof).output := by
  have hdone : ∀ r : StreamReassembler, P r.output → P r.endIfDone.output := by
    intro r hr
    unfold endIfDone
    split
    · exact hend _ hr
    · exact hr
  have hnoted : P (r.noteEof (word 64 (index + data.length)) eof).output := by
    rw [output_noteEof]
    exact h
  simp only [pushSubstring]
  split
  · exact hdone _ hnoted
  · exact hdone _ (assembleLoop_keeps hwrite _ _ hnoted)

/-- Nothing is written to an output that has ended. -/
theorem pushSubstring_ended {r : StreamReassembler} (hended : r.output.inputEnded = true)
    (data : List Byte) (index : Nat) (eof : Bool) :
    (r.pushSubstring data index eof).output.inputEnded = true ∧
      (r.pushSubstring data index eof).output.bytesWritten = r.output.bytesWritten := by
  refine pushSubstring_keeps
    (P := fun stream => stream.inputEnded = true ∧ stream.bytesWritten = r.output.bytesWritten)
    ?_ (fun _ h => ⟨rfl, h.2⟩) r data index eof ⟨hended, rfl⟩
  rintro stream data ⟨hstream, hwritten⟩
  refine ⟨hstream, ?_⟩
  rw [← hwritten]
  change stream.writeCount + stream.writeLength data = stream.writeCount
  rw [ByteStream.writeLength, if_pos hstream, Nat.add_zero]

theorem eof_assembleLoop (fuel : Nat) (r : StreamReassembler) :
    (assembleLoop fuel r).eof = r.eof :=
  assembleLoop_invariant (Q := fun r' => r'.eof = r.eof) (fun _ _ hr => hr) fuel r rfl

/-- The end of the stream is known if it was, or if a push that fits carries it. -/
theorem eof_pushSubstring (r : StreamReassembler) (data : List Byte) (index : Nat) (eof : Bool) :
    (r.pushSubstring data index eof).eof =
      (r.eof || (eof && decide (word 64 (index + data.length) ≤ r.windowEnd))) := by
  rw [← eof_noteEof]
  simp only [pushSubstring]
  split
  · rw [eof_endIfDone]
  · rw [eof_endIfDone, assembleString, eof_assembleLoop]
    rfl

/-- The end of the stream becomes known only by a push that carries it. -/
theorem eof_of_pushSubstring {r : StreamReassembler} {data : List Byte} {index : Nat} {eof : Bool}
    (h : (r.pushSubstring data index eof).eof = true) : r.eof = true ∨ eof = true := by
  rw [eof_pushSubstring, Bool.or_eq_true, Bool.and_eq_true] at h
  exact h.imp_right And.left

/-- The output ends only once the end of the stream is known. -/
theorem inputEnded_of_pushSubstring {r : StreamReassembler} {data : List Byte} {index : Nat}
    {eof : Bool} (h : (r.pushSubstring data index eof).output.inputEnded = true) :
    r.output.inputEnded = true ∨ (r.pushSubstring data index eof).eof = true := by
  have hdone : ∀ r' : StreamReassembler,
      (r'.output.inputEnded = true → r.output.inputEnded = true) →
      r'.endIfDone.output.inputEnded = true →
      r.output.inputEnded = true ∨ r'.endIfDone.eof = true := by
    intro r' hbefore hended
    rw [inputEnded_endIfDone, Bool.or_eq_true, Bool.and_eq_true] at hended
    rw [eof_endIfDone]
    exact hended.imp hbefore And.left
  simp only [pushSubstring] at h ⊢
  split at h
  · rename_i hout
    rw [if_pos hout]
    exact hdone _ (by rw [output_noteEof]; exact id) h
  · rename_i hin
    rw [if_neg hin]
    refine hdone _ (fun hended => ?_) h
    by_contra hrunning
    refine assembleLoop_keeps (P := fun stream => stream.inputEnded ≠ true) (fun _ _ hs => hs) _ _
      ?_ hended
    change (r.noteEof _ eof).output.inputEnded ≠ true
    rw [output_noteEof]
    exact hrunning

theorem noteEof_false (r : StreamReassembler) (dataEnd : Nat) : r.noteEof dataEnd false = r := by
  unfold noteEof
  rw [Bool.or_false]
  split <;> rfl

/-- A push of nothing at the start only looks for the end of the stream. -/
theorem pushSubstring_nothing (r : StreamReassembler) :
    r.pushSubstring [] 0 false = r.endIfDone := by
  have hstart : word 64 (0 + ([] : List Byte).length) ≤ r.headIndex := Nat.zero_le _
  simp only [pushSubstring]
  rw [if_pos (Or.inr hstart), noteEof_false]

/-- A push at the last 64-bit index, where the position in front of the stream lands, lies
outside every window and only notes the end of the stream. -/
theorem pushSubstring_last (r : StreamReassembler) (data : List Byte) (eof : Bool) :
    r.pushSubstring data (wordSub 64 0 1) eof =
      (r.noteEof (word 64 (wordSub 64 0 1 + data.length)) eof).endIfDone := by
  have hindex : r.windowEnd ≤ wordSub 64 0 1 := by
    have := word_lt 64 (r.headIndex + r.output.remainingCapacity)
    change word 64 _ ≤ 2 ^ 64 - 1
    omega
  simp only [pushSubstring]
  rw [if_pos (Or.inl hindex)]

/-- Without a FIN this is a push of nothing at the start. -/
theorem pushSubstring_wrapped (r : StreamReassembler) (data : List Byte) :
    r.pushSubstring data (wordSub 64 0 1) false = r.pushSubstring [] 0 false := by
  rw [pushSubstring_nothing, pushSubstring_last, noteEof_false]

end StreamReassembler

/-- `TCPReceiver`. -/
structure TCPReceiver where
  reassembler : StreamReassembler
  capacity : Nat
  isn : WrappingInt32
  setIsn : Bool
  capacity_eq : reassembler.output.capacity = capacity

namespace TCPReceiver

/-- `TCPReceiver(capacity)`. -/
def new (capacity : Nat) : TCPReceiver where
  reassembler := StreamReassembler.new capacity
  capacity := capacity
  isn := ⟨0⟩
  setIsn := false
  capacity_eq := rfl

/-- `stream_out()`. -/
def streamOut (r : TCPReceiver) : ByteStream :=
  r.reassembler.streamOut

/-- `unassembled_bytes()`. -/
def unassembledBytes (r : TCPReceiver) : Nat :=
  r.reassembler.unassembledBytes

/-- `segment_received(seg)`. -/
def segmentReceived (r : TCPReceiver) (seg : TCPSegment) : TCPReceiver :=
  if r.setIsn = false ∧ seg.header.syn = false then r
  else
    let bias := if r.setIsn then 1 else 0
    let isn := if r.setIsn then r.isn else seg.header.seqno
    let checkpoint := r.streamOut.bytesWritten
    let absoluteSeqno := unwrap seg.header.seqno isn checkpoint
    { r with
      isn := isn
      setIsn := r.setIsn || seg.header.syn
      reassembler := r.reassembler.pushSubstring seg.payload (wordSub 64 absoluteSeqno bias)
        seg.header.fin
      capacity_eq := StreamReassembler.pushSubstring_keeps
        (P := fun stream => stream.capacity = r.capacity) (fun _ _ h => h) (fun _ h => h) _ _ _ _
        r.capacity_eq }

/-- The absolute ackno: the SYN, the bytes written, and the FIN once the stream ended. -/
def absoluteAckno (r : TCPReceiver) : Nat :=
  r.setIsn.toNat + r.streamOut.bytesWritten + r.streamOut.inputEnded.toNat

/-- `ackno()`. -/
def ackno (r : TCPReceiver) : Option WrappingInt32 :=
  if r.setIsn then some (wrap r.absoluteAckno r.isn) else none

/-- `window_size()`. -/
def windowSize (r : TCPReceiver) : Nat :=
  r.capacity - r.streamOut.bufferSize

/-- An application read of `stream_out()`. -/
def popOutput (r : TCPReceiver) (len : Nat) : TCPReceiver :=
  { r with
    reassembler := r.reassembler.popOutput len
    capacity_eq := r.capacity_eq }

/-- `stream_out().set_error()`. -/
def setError (r : TCPReceiver) : TCPReceiver :=
  { r with
    reassembler := { r.reassembler with output := r.reassembler.output.setError }
    capacity_eq := r.capacity_eq }

variable {r : TCPReceiver} {seg : TCPSegment}

/-! ## What a segment does -/

/-- Before the SYN everything else is ignored. -/
theorem segmentReceived_ignored (hset : r.setIsn = false) (hsyn : seg.header.syn = false) :
    r.segmentReceived seg = r := by
  rw [segmentReceived, if_pos ⟨hset, hsyn⟩]

theorem setIsn_segmentReceived (r : TCPReceiver) (seg : TCPSegment) :
    (r.segmentReceived seg).setIsn = (r.setIsn || seg.header.syn) := by
  unfold segmentReceived
  split
  · rename_i hignored
    rw [hignored.1, hignored.2]
    rfl
  · rfl

@[simp]
theorem capacity_segmentReceived (r : TCPReceiver) (seg : TCPSegment) :
    (r.segmentReceived seg).capacity = r.capacity := by
  unfold segmentReceived
  split <;> rfl

/-- A segment only writes to the inbound stream and ends it. -/
theorem segmentReceived_keeps {P : ByteStream → Prop}
    (hwrite : ∀ stream data, P stream → P (stream.write data).1)
    (hend : ∀ stream, P stream → P stream.endInput) (seg : TCPSegment) (h : P r.streamOut) :
    P (r.segmentReceived seg).streamOut := by
  unfold segmentReceived
  split
  · exact h
  · exact StreamReassembler.pushSubstring_keeps hwrite hend _ _ _ _ h

@[simp]
theorem error_segmentReceived (r : TCPReceiver) (seg : TCPSegment) :
    (r.segmentReceived seg).streamOut.error = r.streamOut.error :=
  segmentReceived_keeps (P := fun stream => stream.error = r.streamOut.error) (fun _ _ h => h)
    (fun _ h => h) seg rfl

/-- The end of the inbound stream becomes known only by a FIN. -/
theorem eof_of_segmentReceived (h : (r.segmentReceived seg).reassembler.eof = true) :
    r.reassembler.eof = true ∨ seg.header.fin = true := by
  unfold segmentReceived at h
  split at h
  · exact Or.inl h
  · exact StreamReassembler.eof_of_pushSubstring h

/-- The inbound stream ends only once its end is known. -/
theorem inputEnded_of_segmentReceived
    (h : (r.segmentReceived seg).streamOut.inputEnded = true) :
    r.streamOut.inputEnded = true ∨ (r.segmentReceived seg).reassembler.eof = true := by
  unfold segmentReceived at h ⊢
  split at h
  · exact Or.inl h
  · rename_i hheard
    rw [if_neg hheard]
    exact StreamReassembler.inputEnded_of_pushSubstring h

/-- The first SYN sets the initial sequence number, and its payload starts the stream. -/
theorem segmentReceived_syn (hset : r.setIsn = false) (hsyn : seg.header.syn = true)
    (hnear : r.streamOut.bytesWritten < 2 ^ 31) :
    (r.segmentReceived seg).isn = seg.header.seqno ∧
      (r.segmentReceived seg).reassembler =
        r.reassembler.pushSubstring seg.payload 0 seg.header.fin := by
  have hzero := unwrap_wrap seg.header.seqno (show 0 < 2 ^ 64 by decide)
    (show r.streamOut.bytesWritten < 2 ^ 64 by omega) (by omega) (by omega)
  rw [wrap_zero] at hzero
  have hindex : wordSub 64 0 0 = 0 := by decide
  unfold segmentReceived
  rw [if_neg (by simp [hsyn])]
  simp [hset, hzero, hindex]

/-- Behind the SYN, a segment at position `n` is pushed at the index in front of it. -/
theorem segmentReceived_at {n : Nat} (hset : r.setIsn = true)
    (hseqno : seg.header.seqno = wrap n r.isn) (hn : n < 2 ^ 64)
    (hwritten : r.streamOut.bytesWritten < 2 ^ 64)
    (hlow : n < r.streamOut.bytesWritten + 2 ^ 31)
    (hhigh : r.streamOut.bytesWritten < n + 2 ^ 31) :
    (r.segmentReceived seg).isn = r.isn ∧
      (r.segmentReceived seg).reassembler =
        r.reassembler.pushSubstring seg.payload (wordSub 64 n 1) seg.header.fin := by
  have hunwrap := unwrap_wrap r.isn hn hwritten hlow hhigh
  unfold segmentReceived
  rw [if_neg (by simp [hset])]
  simp [hset, hseqno, hunwrap]

end TCPReceiver
end Sponge
