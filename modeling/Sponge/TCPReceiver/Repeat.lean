import Sponge.Library.Execution
import Sponge.TCPReceiver

/-!
# Repeated SYNs

The first SYN segment is pushed at index zero: the receiver takes no bias off its sequence
number.  On every later segment it takes one off, on a repeated SYN too.  The index of a
repeated SYN is then `2 ^ 64 - 1`, which lies outside every window, so its payload is dropped;
and its end, computed modulo `2 ^ 64`, is one place too low, so its FIN may be noted before the
payload is in.

Nothing is assumed about the segments of a run: they may contradict each other, and their
payloads may be empty.

Main results:

- Theorem {lit}`Settled.pushSubstring`: what holds between any two calls of the reassembler.
- Theorem {lit}`Settled.bytesWritten_lt`: a push that reaches beyond the head into a window
  that is not closed is written.
- Theorem {lit}`repeated_syn_same_iff`: when a repeated SYN means what the first one meant.
-/

namespace Sponge

open Library

/-! ## The reassembler between calls -/

namespace StreamReassembler

/-- What holds between any two calls: the head counts the bytes written, every waiting
fragment starts beyond it, and the count of unassembled bytes is a 64-bit word. -/
structure Settled (r : StreamReassembler) : Prop where
  head_eq : r.headIndex = r.output.bytesWritten
  head_lt : ∀ e ∈ r.auxiliaryCache.toList, r.headIndex < e.first
  count_lt : r.unassembledBytes < 2 ^ 64

/-- A fresh reassembler is settled. -/
theorem settled_new (capacity : Nat) : (new capacity).Settled where
  head_eq := rfl
  head_lt := by simp [new]
  count_lt := by simp [new]

variable {r : StreamReassembler} {data : List Byte}

/-- `assemble_string` leaves no fragment that the head has reached. -/
theorem settled_assembleLoop (fuel : Nat) (r : StreamReassembler)
    (hfuel : r.auxiliaryCache.toList.length ≤ fuel) (hhead : r.headIndex = r.output.bytesWritten)
    (hcount : r.unassembledBytes < 2 ^ 64) : (assembleLoop fuel r).Settled := by
  induction fuel generalizing r with
  | zero =>
      have hnil := List.length_eq_zero_iff.mp (Nat.le_zero.mp hfuel)
      exact ⟨hhead, by simp [assembleLoop, hnil], hcount⟩
  | succ fuel ih =>
      rw [assembleLoop]
      split
      · rename_i hnil
        exact ⟨hhead, by simp [hnil], hcount⟩
      · rename_i it es hcache
        split
        · rename_i hlt
          -- the first fragment is the lowest one
          refine ⟨hhead, fun e he => ?_, hcount⟩
          have hsorted := r.auxiliaryCache.sorted
          rw [hcache] at he hsorted
          rcases List.mem_cons.mp he with rfl | he
          · exact hlt
          · exact hlt.trans_le (E.first_le_of_lt ((List.pairwise_cons.mp hsorted).1 e he))
        · refine ih (r.assembleOne it) ?_ ?_ (wordSub_lt 64 _ _)
          · change (r.auxiliaryCache.erase it).toList.length ≤ fuel
            rw [OrderedSet.toList_erase_head hcache]
            rw [hcache, List.length_cons] at hfuel
            omega
          · change r.headIndex + _ = r.output.bytesWritten + _
            rw [hhead]
            rfl

/-- The count of waiting bytes stays a word. -/
theorem unassembledBytes_insertNode_lt (r : StreamReassembler) (node : E) (writeLen : Nat) :
    (r.insertNode node writeLen).unassembledBytes < 2 ^ 64 := by
  simp only [insertNode, mergeBefore]
  split
  · exact word_lt 64 _
  · exact wordSub_lt 64 _ _

/-- Noting the end keeps the reassembler settled. -/
theorem Settled.noteEof (h : r.Settled) (dataEnd : Nat) (eof : Bool) :
    (r.noteEof dataEnd eof).Settled := by
  refine ⟨?_, ?_, ?_⟩
  · rw [headIndex_noteEof, output_noteEof]
    exact h.head_eq
  · rw [headIndex_noteEof, auxiliaryCache_noteEof]
    exact h.head_lt
  · rw [unassembledBytes_noteEof]
    exact h.count_lt

/-- Ending the input keeps the reassembler settled. -/
theorem Settled.endIfDone (h : r.Settled) : r.endIfDone.Settled := by
  refine ⟨?_, ?_, ?_⟩
  · rw [headIndex_endIfDone, bytesWritten_endIfDone]
    exact h.head_eq
  · rw [headIndex_endIfDone, auxiliaryCache_endIfDone]
    exact h.head_lt
  · rw [unassembledBytes_endIfDone]
    exact h.count_lt

/-- Every push keeps this, whatever is pushed where. -/
theorem Settled.pushSubstring (h : r.Settled) (data : List Byte) (index : Nat) (eof : Bool) :
    (r.pushSubstring data index eof).Settled := by
  have hnoted := h.noteEof (word 64 (index + data.length)) eof
  simp only [StreamReassembler.pushSubstring]
  split
  · exact hnoted.endIfDone
  · refine (settled_assembleLoop _ _ le_rfl ?_ (unassembledBytes_insertNode_lt _ _ _)).endIfDone
    exact hnoted.head_eq

/-- Reading keeps the reassembler settled. -/
theorem Settled.popOutput (h : r.Settled) (len : Nat) : (r.popOutput len).Settled :=
  ⟨h.head_eq, h.head_lt, h.count_lt⟩

/-! ## A push that starts the stream -/

/-- The first merge keeps the start of the node, and never shortens it. -/
theorem mergeAfter_starts (newEnd fuel : Nat) (node : E) (cache : OrderedSet E)
    (unassembled : Nat) :
    (mergeAfter newEnd fuel node cache unassembled).1.first = node.first ∧
      node.second.length ≤ (mergeAfter newEnd fuel node cache unassembled).1.second.length ∧
      ∀ e ∈ (mergeAfter newEnd fuel node cache unassembled).2.1.toList, e ∈ cache.toList := by
  induction fuel generalizing cache unassembled with
  | zero => exact ⟨rfl, le_rfl, fun _ he => he⟩
  | succ fuel ih =>
      rw [mergeAfter]
      split
      · exact ⟨rfl, le_rfl, fun _ he => he⟩
      · rename_i it hit
        split
        · obtain ⟨hfirst, hlength, hsubset⟩ := ih (cache.erase it)
            (wordSub 64 unassembled it.second.length)
          exact ⟨hfirst, hlength, fun e he => OrderedSet.mem_of_mem_erase (hsubset e he)⟩
        · have hmerge : (merge node it).1.first = node.first ∧
              node.second.length ≤ (merge node it).1.second.length := by
            unfold merge
            split
            · exact ⟨rfl, le_rfl⟩
            · split
              · exact ⟨rfl, le_rfl⟩
              · refine ⟨rfl, ?_⟩
                rw [Fragment.join, List.length_append]
                exact Nat.le_add_right _ _
          refine ⟨hmerge.1, hmerge.2, fun e he => ?_⟩
          dsimp only at he
          split at he
          · exact he
          · exact OrderedSet.mem_of_mem_erase he

/-- A node in front of everything that waits goes to the front, with its bytes. -/
theorem insertNode_front (node : E) (writeLen : Nat)
    (hlt : ∀ e ∈ r.auxiliaryCache.toList, node.first < e.first) :
    ∃ node' rest, (r.insertNode node writeLen).auxiliaryCache.toList = node' :: rest ∧
      node'.first = node.first ∧ node.second.length ≤ node'.second.length := by
  obtain ⟨hfirst, hlength, hsubset⟩ := mergeAfter_starts (word 64 (node.first + writeLen))
    r.auxiliaryCache.toList.length node r.auxiliaryCache r.unassembledBytes
  simp only [insertNode]
  generalize mergeAfter (word 64 (node.first + writeLen)) r.auxiliaryCache.toList.length node
    r.auxiliaryCache r.unassembledBytes = after at *
  have hbehind : ∀ e ∈ after.2.1.toList, after.1 < e := fun e he =>
    E.lt_of_first_lt (hfirst ▸ hlt e (hsubset e he))
  have hnone : after.2.1.before after.1 = none := by
    rw [OrderedSet.before_of_split (List.nil_append _).symm (by simp)
      fun e he => (hbehind e he).le]
    rfl
  refine ⟨after.1, after.2.1.toList, ?_, hfirst, hlength⟩
  rw [mergeBefore, hnone]
  exact OrderedSet.toList_insert_of_split (List.nil_append _).symm (by simp) hbehind

/-- A fragment at the head is written as far as there is room. -/
theorem bytesWritten_lt_assembleString {node : E} {rest : List E}
    (hcache : r.auxiliaryCache.toList = node :: rest) (hfirst : node.first ≤ r.headIndex)
    (hnode : 0 < node.second.length) (hroom : 0 < r.output.remainingCapacity)
    (hopen : r.output.inputEnded = false) :
    r.output.bytesWritten < r.assembleString.output.bytesWritten := by
  have hwrite : r.output.bytesWritten < (r.assembleOne node).output.bytesWritten := by
    change r.output.writeCount < r.output.writeCount + r.output.writeLength node.second
    rw [ByteStream.writeLength, hopen]
    simp only [Bool.false_eq_true, if_false]
    omega
  rw [assembleString, hcache, List.length_cons, assembleLoop, hcache]
  simp only [not_lt.mpr hfirst, if_false]
  refine hwrite.trans_le (assembleLoop_keeps
    (P := fun stream => (r.assembleOne node).output.bytesWritten ≤ stream.bytesWritten)
    (fun stream data h => h.trans (Nat.le_add_right _ _)) _ _ le_rfl)

/-- The part of the stream's first bytes `data` that lies beyond the head and in the window. -/
def headNode (r : StreamReassembler) (data : List Byte) : E :=
  ⟨r.headIndex, (data.drop r.headIndex).take
    (min (r.headIndex + r.output.remainingCapacity) data.length - r.headIndex)⟩

/-- How much of a string lies between the head and the end of the window. -/
theorem length_headNode (r : StreamReassembler) (data : List Byte) :
    (r.headNode data).second.length =
      min (r.headIndex + r.output.remainingCapacity) data.length - r.headIndex := by
  rw [headNode, List.length_take, List.length_drop]
  omega

/-- A push from the start that reaches beyond the head stores the part beyond it. -/
theorem pushSubstring_beyond (eof : Bool)
    (hwindow : r.headIndex + r.output.remainingCapacity < 2 ^ 64) (hdata : data.length < 2 ^ 64)
    (hbeyond : r.headIndex < data.length)
    (hpos : 0 < r.headIndex + r.output.remainingCapacity) :
    r.pushSubstring data 0 eof =
      (((r.noteEof data.length eof).insertNode (r.headNode data)
        (r.headNode data).second.length).assembleString).endIfDone := by
  have hend : word 64 (0 + data.length) = data.length := by
    rw [Nat.zero_add]
    exact word_eq_self hdata
  have hwin : r.windowEnd = r.headIndex + r.output.remainingCapacity := word_eq_self hwindow
  have hlen : wordSub 64 (min (r.headIndex + r.output.remainingCapacity) data.length)
      r.headIndex = (r.headNode data).second.length := by
    rw [length_headNode, wordSub_eq_sub (by omega) (by omega)]
  simp only [pushSubstring, hend, hwin, Nat.max_eq_right (Nat.zero_le r.headIndex), hlen]
  rw [if_neg (by omega), length_headNode]
  rfl

/-- A push from the start that reaches beyond the head of an open window is written. -/
theorem Settled.bytesWritten_lt (h : r.Settled) (eof : Bool)
    (hwindow : r.headIndex + r.output.remainingCapacity < 2 ^ 64) (hdata : data.length < 2 ^ 64)
    (hbeyond : r.headIndex < data.length) (hroom : 0 < r.output.remainingCapacity)
    (hopen : r.output.inputEnded = false) :
    r.output.bytesWritten < (r.pushSubstring data 0 eof).output.bytesWritten := by
  have hlength := r.length_headNode data
  have houtput := r.output_noteEof data.length eof
  rw [pushSubstring_beyond eof hwindow hdata hbeyond (by omega), bytesWritten_endIfDone]
  obtain ⟨node, rest, hcache, hfirst, hle⟩ := insertNode_front (r := r.noteEof data.length eof)
    (r.headNode data) (r.headNode data).second.length
    (by rw [auxiliaryCache_noteEof]; exact h.head_lt)
  have hwritten := bytesWritten_lt_assembleString hcache
    (show node.first ≤ (r.noteEof data.length eof).headIndex by
      rw [hfirst, headIndex_noteEof]
      exact le_rfl)
    (by omega)
    (show 0 < (r.noteEof data.length eof).output.remainingCapacity by rwa [houtput])
    (show (r.noteEof data.length eof).output.inputEnded = false by rwa [houtput])
  change (r.noteEof data.length eof).output.bytesWritten < _ at hwritten
  rwa [houtput] at hwritten

/-- An empty node at the head takes nothing in. -/
theorem Settled.insertNode_empty (h : r.Settled) (hhead : r.headIndex < 2 ^ 64) :
    r.insertNode ⟨r.headIndex, []⟩ 0 =
      { r with auxiliaryCache := r.auxiliaryCache.insert ⟨r.headIndex, []⟩ } := by
  have hcount : wordSub 64 r.unassembledBytes 0 = r.unassembledBytes :=
    wordSub_eq_sub (Nat.zero_le _) h.count_lt
  have hafter : ∀ fuel, mergeAfter r.headIndex fuel ⟨r.headIndex, []⟩ r.auxiliaryCache
      r.unassembledBytes = (⟨r.headIndex, []⟩, r.auxiliaryCache, r.unassembledBytes) := by
    rintro (_ | fuel)
    · rfl
    · rw [mergeAfter]
      split
      · rfl
      · rename_i it hit
        have hlt := h.head_lt it (List.mem_of_find?_eq_some hit)
        have hstop := it.first_le_stop
        rw [if_neg (by omega), merge_apart (by simp only [Fragment.stop, List.length_nil]; omega),
          if_pos rfl, hcount]
  have hbefore : r.auxiliaryCache.before ⟨r.headIndex, []⟩ = none := by
    rw [OrderedSet.before_of_split (List.nil_append _).symm (by simp)
      fun e he => (E.lt_of_first_lt (h.head_lt e he)).le]
    rfl
  simp only [insertNode, Nat.add_zero, word_eq_self hhead, hafter, mergeBefore, hbefore,
    word_eq_self h.count_lt]

/-- The loop stops at once when the head has reached no fragment. -/
theorem Settled.assembleLoop_eq (h : r.Settled) (fuel : Nat) : assembleLoop fuel r = r := by
  cases fuel with
  | zero => rfl
  | succ fuel =>
      rw [assembleLoop]
      split
      · rfl
      · rename_i it es hcache
        rw [if_pos (h.head_lt it (by simp [hcache]))]

/-- An empty node at the head comes and goes. -/
theorem Settled.assembleString_empty (h : r.Settled) (hhead : r.headIndex < 2 ^ 64) :
    (r.insertNode ⟨r.headIndex, []⟩ 0).assembleString = r := by
  have hcache : (r.auxiliaryCache.insert ⟨r.headIndex, []⟩).toList =
      ⟨r.headIndex, []⟩ :: r.auxiliaryCache.toList :=
    OrderedSet.toList_insert_of_split (List.nil_append _).symm (by simp)
      fun e he => E.lt_of_first_lt (h.head_lt e he)
  have herase : (r.auxiliaryCache.insert ⟨r.headIndex, []⟩).erase ⟨r.headIndex, []⟩ =
      r.auxiliaryCache := OrderedSet.ext (OrderedSet.toList_erase_head hcache)
  have hlength : r.output.writeLength [] = 0 := Nat.le_zero.mp (r.output.writeLength_le [])
  have hcount : wordSub 64 r.unassembledBytes 0 = r.unassembledBytes :=
    wordSub_eq_sub (Nat.zero_le _) h.count_lt
  have hround : ({ r with
      auxiliaryCache := r.auxiliaryCache.insert ⟨r.headIndex, []⟩ } :
        StreamReassembler).assembleOne ⟨r.headIndex, []⟩ = r := by
    simp only [assembleOne, herase, ByteStream.write_of_writeLength_eq_zero hlength,
      List.length_nil, hcount, Nat.add_zero]
  rw [h.insertNode_empty hhead, assembleString, hcache, List.length_cons, assembleLoop]
  simp only [hcache, lt_irrefl, if_false]
  exact (congrArg (assembleLoop _) hround).trans (h.assembleLoop_eq _)

/-- A push from the start that does not reach beyond the head, or finds the window closed, only
notes the end of the stream. -/
theorem Settled.pushSubstring_start (h : r.Settled) (eof : Bool)
    (hwindow : r.headIndex + r.output.remainingCapacity < 2 ^ 64) (hdata : data.length < 2 ^ 64)
    (hquiet : data.length ≤ r.headIndex ∨ r.output.remainingCapacity = 0) :
    r.pushSubstring data 0 eof = (r.noteEof data.length eof).endIfDone := by
  by_cases hbeyond : r.headIndex < data.length ∧ 0 < r.headIndex + r.output.remainingCapacity
  · have hnil : (r.headNode data).second.length = 0 := by
      rw [length_headNode]
      omega
    have hnode : r.headNode data = ⟨r.headIndex, []⟩ :=
      Fragment.ext rfl (List.length_eq_zero_iff.mp hnil)
    have hempty := (h.noteEof data.length eof).assembleString_empty
      (by rw [headIndex_noteEof]; omega)
    rw [headIndex_noteEof] at hempty
    rw [pushSubstring_beyond eof hwindow hdata hbeyond.1 hbeyond.2, hnil, hnode, hempty]
  · have hend : word 64 (0 + data.length) = data.length := by
      rw [Nat.zero_add]
      exact word_eq_self hdata
    have hwin : r.windowEnd = r.headIndex + r.output.remainingCapacity := word_eq_self hwindow
    simp only [StreamReassembler.pushSubstring, hend, hwin]
    rw [if_pos (by omega)]

/-- A push into an output that has ended leaves it as it is. -/
theorem output_pushSubstring_ended (hended : r.output.inputEnded = true) (data : List Byte)
    (index : Nat) (eof : Bool) : (r.pushSubstring data index eof).output = r.output := by
  refine pushSubstring_keeps (P := fun stream => stream = r.output) ?_ ?_ r data index eof rfl
  · rintro stream bytes rfl
    rw [ByteStream.write_of_writeLength_eq_zero (by rw [ByteStream.writeLength, if_pos hended])]
  · rintro stream rfl
    simp only [ByteStream.endInput, ← hended]

/-- The two pushes agree on the end of the stream unless the wrapped end of the data and its
end fall on different sides of the end of the window. -/
theorem eof_pushSubstring_last_iff (eof : Bool)
    (hwindow : r.headIndex + r.output.remainingCapacity < 2 ^ 64 - 1)
    (hdata : data.length < 2 ^ 64) :
    (r.pushSubstring data (wordSub 64 0 1) eof).eof = (r.pushSubstring data 0 eof).eof ↔
      (eof = true → r.eof = true ∨
        (data ≠ [] ∧ data.length ≠ r.headIndex + r.output.remainingCapacity + 1)) := by
  have hwin : r.windowEnd = r.headIndex + r.output.remainingCapacity :=
    word_eq_self (by omega)
  have hend : word 64 (0 + data.length) = data.length := by
    rw [Nat.zero_add]
    exact word_eq_self hdata
  have hsides : (word 64 (wordSub 64 0 1 + data.length) ≤ r.windowEnd ↔
      data.length ≤ r.windowEnd) ↔
        data ≠ [] ∧ data.length ≠ r.headIndex + r.output.remainingCapacity + 1 := by
    have hlast : wordSub 64 0 1 = 2 ^ 64 - 1 := by decide
    rw [hlast, hwin]
    cases data with
    | nil =>
        have hzero : word 64 (2 ^ 64 - 1 + ([] : List Byte).length) = 2 ^ 64 - 1 := by decide
        rw [hzero, List.length_nil]
        simp only [ne_eq, not_true_eq_false, false_and, iff_false]
        omega
    | cons b bs =>
        have hpred : word 64 (2 ^ 64 - 1 + (b :: bs).length) = bs.length := by
          rw [List.length_cons] at hdata ⊢
          rw [word]
          omega
        rw [hpred, List.length_cons]
        simp only [ne_eq, reduceCtorEq, not_false_eq_true, true_and]
        omega
  rw [eof_pushSubstring, eof_pushSubstring, hend, ← hsides]
  cases r.eof <;> cases eof <;> simp

/-- Noting the end changes one flag. -/
theorem noteEof_eq (r : StreamReassembler) (dataEnd : Nat) (eof : Bool) :
    r.noteEof dataEnd eof = { r with eof := (r.noteEof dataEnd eof).eof } := by
  unfold noteEof
  split <;> rfl

/-- When a push at the last 64-bit index does what a push at index zero does. -/
theorem Settled.pushSubstring_last_iff (h : r.Settled) (eof : Bool)
    (hwindow : r.headIndex + r.output.remainingCapacity < 2 ^ 64 - 1)
    (hdata : data.length < 2 ^ 64) :
    ((r.pushSubstring data (wordSub 64 0 1) eof).output = (r.pushSubstring data 0 eof).output ∧
      (r.pushSubstring data (wordSub 64 0 1) eof).eof = (r.pushSubstring data 0 eof).eof) ↔
      (data.length ≤ r.headIndex ∨ r.output.remainingCapacity = 0 ∨
        r.output.inputEnded = true) ∧
      (eof = true → r.eof = true ∨
        (data ≠ [] ∧ data.length ≠ r.headIndex + r.output.remainingCapacity + 1)) := by
  rw [eof_pushSubstring_last_iff eof hwindow hdata]
  refine and_congr_left fun heof => ?_
  constructor
  · intro houtput
    by_contra hopen
    rw [not_or, not_or, Bool.not_eq_true] at hopen
    have hwritten := h.bytesWritten_lt eof (by omega) hdata (by omega) (by omega)
      hopen.2.2
    rw [← houtput, pushSubstring_last, bytesWritten_endIfDone, output_noteEof] at hwritten
    exact lt_irrefl _ hwritten
  · intro hquiet
    by_cases hended : r.output.inputEnded = true
    · rw [output_pushSubstring_ended hended, output_pushSubstring_ended hended]
    · -- both pushes only note the end of the stream, and note the same
      have hsame := (eof_pushSubstring_last_iff eof hwindow hdata).mpr heof
      have hstart := h.pushSubstring_start eof (by omega) hdata (by tauto)
      rw [hstart, pushSubstring_last, eof_endIfDone, eof_endIfDone] at hsame
      rw [hstart, pushSubstring_last, noteEof_eq, hsame, ← noteEof_eq]

end StreamReassembler

/-! ## The receiver -/

namespace TCPReceiver

open StreamReassembler

/-- What can happen to a receiver. -/
inductive Input where
  | segment (seg : TCPSegment)
  | read (len : Nat)
  | setError
deriving DecidableEq, Repr

/-- The receiver behind an input. -/
def receive (r : TCPReceiver) : Input → TCPReceiver
  | .segment seg => r.segmentReceived seg
  | .read len => r.popOutput len
  | .setError => r.setError

/-- Between inputs the reassembler is settled. -/
theorem settled_receive {r : TCPReceiver} (h : r.reassembler.Settled) (input : Input) :
    (r.receive input).reassembler.Settled := by
  cases input with
  | segment seg =>
      change (r.segmentReceived seg).reassembler.Settled
      unfold segmentReceived
      split
      · exact h
      · exact h.pushSubstring _ _ _
  | read len => exact h.popOutput len
  | setError => exact ⟨h.head_eq, h.head_lt, h.count_lt⟩

/-- No input changes the capacity. -/
theorem capacity_receive (r : TCPReceiver) (input : Input) :
    (r.receive input).capacity = r.capacity := by
  cases input with
  | segment seg => exact capacity_segmentReceived r seg
  | read len => rfl
  | setError => rfl

/-- Every run keeps the reassembler settled. -/
theorem settled_run (capacity : Nat) (inputs : List Input) :
    (run receive (TCPReceiver.new capacity) inputs).reassembler.Settled ∧
      (run receive (TCPReceiver.new capacity) inputs).capacity = capacity :=
  (admissible_true _ inputs).invariant
    (I := fun r : TCPReceiver => r.reassembler.Settled ∧ r.capacity = capacity)
    (fun r input h _ => ⟨settled_receive h.1 input, (capacity_receive r input).trans h.2⟩)
    ⟨settled_new capacity, rfl⟩

/-- A SYN segment that arrives again. -/
def RepeatsSyn (r : TCPReceiver) (seg : TCPSegment) : Prop :=
  r.setIsn = true ∧ seg.header.syn = true ∧ seg.header.seqno = r.isn

instance (r : TCPReceiver) (seg : TCPSegment) : Decidable (r.RepeatsSyn seg) :=
  inferInstanceAs (Decidable (_ ∧ _ ∧ _))

/-- The segment means what {lit}`segmentReceived_syn` says of the first SYN: its payload is
pushed at index zero, with the end of the stream behind it if it carries a FIN.  Compared are
the inbound stream and whether its end is known. -/
def MeansFirst (r : TCPReceiver) (seg : TCPSegment) : Prop :=
  (r.segmentReceived seg).streamOut =
      (r.reassembler.pushSubstring seg.payload 0 seg.header.fin).streamOut ∧
    (r.segmentReceived seg).reassembler.eof =
      (r.reassembler.pushSubstring seg.payload 0 seg.header.fin).eof

/-- In every run, a repeated SYN means what the first one meant if and only if it brings no byte
that would be written, and its FIN, unless the end is known already, neither comes with an empty
payload nor with one that ends one place beyond the window. -/
theorem repeated_syn_same_iff (capacity : Nat) (inputs : List Input) (seg : TCPSegment)
    (hcapacity : capacity < 2 ^ 63) (hpayload : seg.payload.length < 2 ^ 64) :
    let r := run receive (TCPReceiver.new capacity) inputs
    r.RepeatsSyn seg → r.streamOut.bytesWritten < 2 ^ 31 →
      (r.MeansFirst seg ↔
        (seg.payload.length ≤ r.streamOut.bytesWritten ∨ r.windowSize = 0 ∨
          r.streamOut.inputEnded = true) ∧
        (seg.header.fin = true → r.reassembler.eof = true ∨
          (seg.payload ≠ [] ∧
            seg.payload.length ≠ r.streamOut.bytesWritten + r.windowSize + 1))) := by
  intro r hrepeats hwritten
  obtain ⟨hsettled, hcap⟩ := settled_run capacity inputs
  obtain ⟨hset, -, hseqno⟩ := hrepeats
  obtain ⟨-, hat⟩ := segmentReceived_at (n := 0) hset (by rw [hseqno, wrap_zero]) (by decide)
    (by omega) (by omega) (by omega)
  have hhead : r.reassembler.headIndex = r.streamOut.bytesWritten := hsettled.head_eq
  have hroom : r.reassembler.output.remainingCapacity = r.windowSize := by
    have hsize := r.streamOut.bufferSize_add_remainingCapacity
    have heq : r.streamOut.capacity = r.capacity := r.capacity_eq
    change r.streamOut.remainingCapacity = r.capacity - r.streamOut.bufferSize
    omega
  have hwindow : r.windowSize ≤ capacity := by
    rw [← hcap]
    exact Nat.sub_le _ _
  have hpush := hsettled.pushSubstring_last_iff seg.header.fin
    (by change r.reassembler.headIndex + r.reassembler.output.remainingCapacity < _; omega)
    hpayload
  change (_ ↔ (_ ≤ r.reassembler.headIndex ∨ r.reassembler.output.remainingCapacity = 0 ∨ _) ∧
    (_ → _ ∨ (_ ∧ _ ≠ r.reassembler.headIndex + r.reassembler.output.remainingCapacity + 1)))
    at hpush
  rw [hhead, hroom] at hpush
  rw [MeansFirst, TCPReceiver.streamOut, hat]
  exact hpush

/-- A SYN with two bytes and a FIN that fitted the window at first changes nothing when it
arrives again. -/
theorem repeated_syn_same_whole :
    let seg : TCPSegment := ⟨{ seqno := ⟨7⟩, syn := true, fin := true }, [97, 98]⟩
    let r := run receive (TCPReceiver.new 4) [.segment seg]
    r.RepeatsSyn seg ∧ r.MeansFirst seg := by
  intro seg r
  have hrepeats : r.RepeatsSyn seg := by decide +kernel
  exact ⟨hrepeats, (repeated_syn_same_iff 4 [.segment seg] seg (by decide) (by decide) hrepeats
    (by decide +kernel)).mpr ⟨by decide +kernel, by decide +kernel⟩⟩

/-- Three bytes and a FIN for a window of two: once the two are read, the same segment again
ends the stream without the third. -/
theorem repeated_syn_same_fails :
    let seg : TCPSegment := ⟨{ seqno := ⟨7⟩, syn := true, fin := true }, [97, 98, 99]⟩
    let r := run receive (TCPReceiver.new 2) [.segment seg, .read 2]
    r.RepeatsSyn seg ∧ ¬ r.MeansFirst seg ∧
      (r.segmentReceived seg).streamOut.inputEnded = true ∧
      (r.segmentReceived seg).streamOut.bytesWritten = 2 := by
  intro seg r
  refine ⟨by decide +kernel, fun hmeans => ?_, by decide +kernel, by decide +kernel⟩
  have hwritten := congrArg ByteStream.bytesWritten hmeans.1
  exact absurd hwritten (by decide +kernel)

end TCPReceiver
end Sponge
