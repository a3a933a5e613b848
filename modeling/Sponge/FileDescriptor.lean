import Sponge.Buffer
import Sponge.ByteStream

/-!
# File descriptors

`FileDescriptor` of `libsponge/util/file_descriptor.{hh,cc}`.  All copies of a descriptor share
one record of whether it is at its end, whether it was closed, and how often it was read and
written.  What a system call returns is an input of the model: the bytes that `read` stored, the
number of bytes that `writev` took, or the text of a `unix_error`.

Main results:

- Theorem {lit}`FileDescriptor.writeLoop_faithful`: what the kernel has taken is the beginning of
  what was to be written, and the number that is returned is its length.
- Theorem {lit}`FileDescriptor.write_exactly_once`: with `write_all` everything is taken, once and
  in order, however small the pieces.
-/

namespace Sponge

/-- `FileDescriptor::FDWrapper`, which the copies of a descriptor share. -/
structure FileDescriptor where
  eof : Bool := false
  closed : Bool := false
  readCount : UInt32 := 0
  writeCount : UInt32 := 0
deriving DecidableEq, Repr

namespace FileDescriptor

/-- `register_read()`. -/
def registerRead (fd : FileDescriptor) : FileDescriptor :=
  { fd with readCount := fd.readCount + 1 }

/-- `register_write()`. -/
def registerWrite (fd : FileDescriptor) : FileDescriptor :=
  { fd with writeCount := fd.writeCount + 1 }

/-- `close()`. -/
def close (fd : FileDescriptor) : FileDescriptor :=
  { fd with eof := true, closed := true }

/-- `BUFFER_SIZE`, the largest read. -/
def bufferSize : Nat := 1024 * 1024

/-- `read(limit)`; `answer` is what the system call stored. -/
def read (fd : FileDescriptor) (limit : Nat) (answer : Except String (List Byte)) :
    Except String (List Byte) × FileDescriptor :=
  match answer with
  | .error e => (.error e, fd)
  | .ok bytes =>
      let fd := if limit > 0 ∧ bytes = [] then { fd with eof := true } else fd
      if bytes.length > min bufferSize limit then (.error "read() read more than requested", fd)
      else (.ok bytes, fd.registerRead)

/-- The call `write(buffer, write_all)` after some answers of `writev`.  It may have returned or
thrown; `taken` is what the kernel has taken from the buffer. -/
structure Writing where
  returned : Option (Except String Nat)
  fd : FileDescriptor
  taken : List Byte
deriving DecidableEq, Repr

/-- The call that had `taken` from its buffer before. -/
def Writing.after (w : Writing) (taken : List Byte) : Writing :=
  { w with taken := taken ++ w.taken }

/-- `write(buffer, write_all)`, with what it has written before in `total`. -/
def writeLoop (writeAll : Bool) (fd : FileDescriptor) (total : Nat) (buffer : BufferViewList) :
    List (Except String Nat) → Writing
  | [] => ⟨none, fd, []⟩
  | .error e :: _ => ⟨some (.error e), fd, []⟩
  | .ok bytesWritten :: answers =>
      let taken := buffer.gathered.take bytesWritten
      if bytesWritten = 0 ∧ buffer.size ≠ 0 then
        ⟨some (.error "write returned 0 given non-empty input buffer"), fd, taken⟩
      else if bytesWritten > buffer.size then
        ⟨some (.error "write wrote more than length of input buffer"), fd, taken⟩
      else
        let fd := fd.registerWrite
        match buffer.removePrefix bytesWritten with
        | (.error e, _) => ⟨some (.error e), fd, taken⟩
        | (.ok _, buffer) =>
            let total := total + bytesWritten
            if writeAll ∧ buffer.size ≠ 0 then
              (writeLoop writeAll fd total buffer answers).after taken
            else ⟨some (.ok total), fd, taken⟩

/-- `write(buffer, write_all)`. -/
def write (fd : FileDescriptor) (buffer : BufferViewList) (writeAll : Bool)
    (answers : List (Except String Nat)) : Writing :=
  writeLoop writeAll fd 0 buffer answers

/-! ## What is read -/

/-- Why a `read` of at most `limit` bytes throws. -/
inductive ReadFault (limit : Nat) : Except String (List Byte) → String → Prop
  | failed (e : String) : ReadFault limit (.error e) e
  | excess (bytes : List Byte) (h : min bufferSize limit < bytes.length) :
      ReadFault limit (.ok bytes) "read() read more than requested"

/-- A read that throws leaves the descriptor as it is; the others return no more than was asked
for. -/
theorem read_cases (fd : FileDescriptor) (limit : Nat) (answer : Except String (List Byte)) :
    (∃ e, ReadFault limit answer e ∧ fd.read limit answer = (.error e, fd)) ∨
      ∃ data, data.length ≤ limit ∧ fd.read limit answer =
        (.ok data, { fd.registerRead with eof := fd.eof || decide (limit > 0 ∧ data = []) }) := by
  cases answer with
  | error e => exact Or.inl ⟨e, .failed e, rfl⟩
  | ok bytes =>
      simp only [read]
      by_cases hmore : bytes.length > min bufferSize limit
      · have hne : ¬ (limit > 0 ∧ bytes = []) := by
          rintro ⟨-, rfl⟩
          exact absurd hmore (Nat.not_lt_zero _)
        rw [if_pos hmore, if_neg hne]
        exact Or.inl ⟨_, .excess bytes hmore, rfl⟩
      · have hle : bytes.length ≤ limit := by omega
        refine Or.inr ⟨bytes, hle, ?_⟩
        rw [if_neg hmore]
        by_cases hend : limit > 0 ∧ bytes = []
        · simp [hend, registerRead]
        · simp [hend, registerRead]

/-! ## What the kernel takes -/

/-- The kernel takes at least one byte, if there is one, and no more than there are. -/
def Honest (size : Nat) (bytesWritten : Nat) : Prop :=
  bytesWritten ≤ size ∧ (bytesWritten = 0 → size = 0)

/-- What the kernel has taken is the beginning of the buffer, and a number that is returned
counts it. -/
structure Faithful (writeAll : Bool) (total : Nat) (bytes : List Byte) (w : Writing) : Prop where
  taken_part : w.taken <+: bytes
  length_taken : ∀ n, w.returned = some (.ok n) → n = total + w.taken.length
  taken_eq : ∀ n, w.returned = some (.ok n) → writeAll = true → w.taken = bytes

/-- A call that has not returned a number. -/
theorem faithful_of_not_ok {writeAll : Bool} {total : Nat} {bytes : List Byte} {w : Writing}
    (hpart : w.taken <+: bytes) (hnot : ∀ n, w.returned ≠ some (.ok n)) :
    Faithful writeAll total bytes w :=
  ⟨hpart, fun n h => absurd h (hnot n), fun n h => absurd h (hnot n)⟩

/-- The first turn of the loop and the others. -/
theorem Faithful.after {writeAll : Bool} {total : Nat} {first rest : List Byte} {w : Writing}
    (h : Faithful writeAll (total + first.length) rest w) :
    Faithful writeAll total (first ++ rest) (w.after first) where
  taken_part := (List.prefix_append_right_inj _).mpr h.taken_part
  length_taken n hn := by
    rw [h.length_taken n hn, Writing.after, List.length_append, Nat.add_assoc]
  taken_eq n hn hall := by rw [Writing.after, h.taken_eq n hn hall]

variable (writeAll : Bool) (fd : FileDescriptor) (total : Nat) (buffer : BufferViewList)

/-- A turn of the loop with an honest kernel: the exception of `remove_prefix` is never thrown. -/
theorem writeLoop_honest {bytesWritten : Nat} (h : Honest buffer.size bytesWritten)
    (answers : List (Except String Nat)) :
    ∃ first : List Byte, ∃ rest : BufferViewList,
      first.length = bytesWritten ∧ buffer.gathered = first ++ rest.gathered ∧
      writeLoop writeAll fd total buffer (.ok bytesWritten :: answers) =
        if writeAll = true ∧ rest.size ≠ 0 then
          (writeLoop writeAll fd.registerWrite (total + bytesWritten) rest answers).after first
        else ⟨some (.ok (total + bytesWritten)), fd.registerWrite, first⟩ := by
  obtain ⟨hle, hzero⟩ := h
  obtain ⟨hgathered, hresult⟩ := buffer.removePrefix_spec bytesWritten
  rw [if_pos hle] at hresult
  refine ⟨buffer.gathered.take bytesWritten, (buffer.removePrefix bytesWritten).2, ?_, ?_, ?_⟩
  · rw [List.length_take, buffer.length_gathered, Nat.min_eq_left hle]
  · rw [hgathered, List.take_append_drop]
  · have hempty : ¬ (bytesWritten = 0 ∧ buffer.size ≠ 0) := fun ⟨h0, hne⟩ => hne (hzero h0)
    have hpair : buffer.removePrefix bytesWritten =
        (.ok (), (buffer.removePrefix bytesWritten).2) := Prod.ext hresult rfl
    rw [writeLoop, if_neg hempty, if_neg (Nat.not_lt.mpr hle), hpair]

/-- Why a `writev` of `size` bytes makes the loop throw. -/
inductive WriteFault (size : Nat) : Except String Nat → String → Prop
  | failed (e : String) : WriteFault size (.error e) e
  | nothing (h : size ≠ 0) :
      WriteFault size (.ok 0) "write returned 0 given non-empty input buffer"
  | excess (bytesWritten : Nat) (h : size < bytesWritten) :
      WriteFault size (.ok bytesWritten) "write wrote more than length of input buffer"

/-- The loop notices a kernel that is not honest. -/
theorem writeLoop_dishonest {bytesWritten : Nat} (h : ¬ Honest buffer.size bytesWritten)
    (answers : List (Except String Nat)) :
    ∃ e, WriteFault buffer.size (.ok bytesWritten) e ∧
      writeLoop writeAll fd total buffer (.ok bytesWritten :: answers) =
        ⟨some (.error e), fd, buffer.gathered.take bytesWritten⟩ := by
  rw [writeLoop]
  by_cases hzero : bytesWritten = 0 ∧ buffer.size ≠ 0
  · refine ⟨_, ?_, if_pos hzero⟩
    rw [hzero.1]
    exact .nothing hzero.2
  · have hmore : bytesWritten > buffer.size := by
      by_contra hle
      refine h ⟨Nat.le_of_not_lt hle, fun h0 => ?_⟩
      by_contra hne
      exact hzero ⟨h0, hne⟩
    rw [if_neg hzero]
    exact ⟨_, .excess _ hmore, if_pos hmore⟩

theorem writeLoop_faithful (answers : List (Except String Nat)) :
    Faithful writeAll total buffer.gathered (writeLoop writeAll fd total buffer answers) := by
  induction answers generalizing fd total buffer with
  | nil => exact faithful_of_not_ok List.nil_prefix fun n h => by cases h
  | cons answer answers ih =>
      cases answer with
      | error e => exact faithful_of_not_ok List.nil_prefix fun n h => by cases h
      | ok bytesWritten =>
          by_cases hhonest : Honest buffer.size bytesWritten
          · obtain ⟨first, rest, hfirst, hsplit, hstep⟩ :=
              writeLoop_honest writeAll fd total buffer hhonest answers
            rw [hstep, hsplit]
            split
            · subst hfirst
              exact (ih _ _ rest).after
            · rename_i hdone
              refine ⟨List.prefix_append _ _, fun n hn => ?_, fun n _ hall => ?_⟩
              · cases hn
                rw [hfirst]
              · have hnil : rest.gathered = [] := by
                  rw [← List.length_eq_zero_iff, rest.length_gathered]
                  by_contra hne
                  exact hdone ⟨hall, hne⟩
                rw [hnil, List.append_nil]
          · obtain ⟨e, -, he⟩ := writeLoop_dishonest writeAll fd total buffer hhonest answers
            rw [he]
            exact faithful_of_not_ok (List.take_prefix _ _) fun n h => by cases h

/-- The loop ends with the last piece that the kernel takes. -/
theorem writeLoop_pieces (pieces : List Nat) (hpos : ∀ piece ∈ pieces, 0 < piece)
    (hne : pieces ≠ []) (hsum : pieces.sum = buffer.size) (later : List (Except String Nat)) :
    writeLoop true fd total buffer (pieces.map .ok ++ later) =
      ⟨some (.ok (total + buffer.size)),
        { fd with writeCount := fd.writeCount + UInt32.ofNat pieces.length }, buffer.gathered⟩ := by
  induction pieces generalizing fd total buffer with
  | nil => exact absurd rfl hne
  | cons piece pieces ih =>
      have hpiece := hpos piece List.mem_cons_self
      rw [List.sum_cons] at hsum
      have hhonest : Honest buffer.size piece := ⟨by omega, by omega⟩
      obtain ⟨first, rest, hfirst, hsplit, hstep⟩ :=
        writeLoop_honest true fd total buffer hhonest (pieces.map .ok ++ later)
      have hsize : buffer.size = piece + rest.size := by
        rw [← buffer.length_gathered, hsplit, List.length_append, hfirst, rest.length_gathered]
      rw [List.map_cons, List.cons_append, hstep]
      by_cases hlast : pieces = []
      · have hempty : rest.size = 0 := by
          rw [hlast, List.sum_nil] at hsum
          omega
        have hnil : rest.gathered = [] := by
          rw [← List.length_eq_zero_iff, rest.length_gathered, hempty]
        rw [if_neg (fun h => h.2 hempty), hsplit, hnil, List.append_nil, hsize, hempty, hlast]
        rfl
      · have hmore : rest.size ≠ 0 := by
          obtain ⟨next, tail, rfl⟩ := List.exists_cons_of_ne_nil hlast
          have := hpos next (by simp)
          rw [List.sum_cons] at hsum
          omega
        rw [if_pos ⟨rfl, hmore⟩, ih _ _ rest (fun p hp => hpos p (List.mem_cons_of_mem _ hp)) hlast
          (by omega), hsplit, hsize]
        simp only [Writing.after, registerWrite, Nat.add_assoc, List.length_cons]
        rw [UInt32.add_assoc, Nat.add_comm pieces.length 1, UInt32.ofNat_add]
        rfl

/-- One answer is enough for a call without `write_all`.  Where it throws, the kernel may have taken
some of the bytes. -/
theorem write_once (answer : Except String Nat) :
    (∃ e taken, WriteFault buffer.size answer e ∧ taken <+: buffer.gathered ∧
        fd.write buffer false [answer] = ⟨some (.error e), fd, taken⟩) ∨
      ∃ n, n ≤ buffer.size ∧ fd.write buffer false [answer] =
        ⟨some (.ok n), fd.registerWrite, buffer.gathered.take n⟩ := by
  cases answer with
  | error e => exact Or.inl ⟨e, [], .failed e, List.nil_prefix, rfl⟩
  | ok n =>
      by_cases hhonest : Honest buffer.size n
      · obtain ⟨first, rest, hfirst, hsplit, hstep⟩ :=
          writeLoop_honest false fd 0 buffer hhonest []
        refine Or.inr ⟨n, hhonest.1, ?_⟩
        rw [write, hstep, if_neg (fun h => by cases h.1), Nat.zero_add, hsplit, ← hfirst,
          List.take_left]
      · obtain ⟨e, hfault, he⟩ := writeLoop_dishonest false fd 0 buffer hhonest []
        exact Or.inl ⟨e, _, hfault, List.take_prefix _ _, he⟩

/-- The same for the oldest bytes of a stream, of which at most `limit` are written. -/
theorem write_peekOutput (stream : ByteStream) (limit : Nat) (answer : Except String Nat) :
    (∃ e taken, WriteFault (min limit stream.bufferSize) answer e ∧ taken <+: stream.contents ∧
        fd.write (.ofString (stream.peekOutput (min limit stream.bufferSize))) false [answer] =
          ⟨some (.error e), fd, taken⟩) ∨
      ∃ n, fd.write (.ofString (stream.peekOutput (min limit stream.bufferSize))) false [answer] =
        ⟨some (.ok n), fd.registerWrite, stream.peekOutput n⟩ := by
  let len := min limit stream.bufferSize
  have hsize : (BufferViewList.ofString (stream.peekOutput len)).size = len := by
    rw [← BufferViewList.length_gathered, BufferViewList.gathered_ofString, stream.peekOutput_eq,
      List.length_take, stream.length_contents]
    exact Nat.min_eq_left (Nat.min_le_right _ _)
  have honce := fd.write_once (.ofString (stream.peekOutput len)) answer
  rw [hsize, BufferViewList.gathered_ofString, stream.peekOutput_eq] at honce
  rw [stream.peekOutput_eq]
  rcases honce with ⟨e, taken, hfault, hpart, heq⟩ | ⟨n, hn, heq⟩
  · exact Or.inl ⟨e, taken, hfault, hpart.trans (List.take_prefix _ _), heq⟩
  · refine Or.inr ⟨n, heq.trans ?_⟩
    rw [List.take_take, Nat.min_eq_left hn, stream.peekOutput_eq]

/-- Whatever the kernel answers, what it has taken is the beginning of the buffer, whether the
call has returned, has thrown or still waits.  A number that is returned counts it, and with
`write_all` it is everything.  A call with `write_all` returns with the last piece, when the
kernel takes the bytes in pieces of any sizes. -/
theorem write_exactly_once :
    (∀ writeAll answers,
      (fd.write buffer writeAll answers).taken <+: buffer.gathered ∧
      ∀ n, (fd.write buffer writeAll answers).returned = some (.ok n) →
        n = (fd.write buffer writeAll answers).taken.length ∧
        (writeAll = true → (fd.write buffer writeAll answers).taken = buffer.gathered)) ∧
    ∀ pieces : List Nat, (∀ piece ∈ pieces, 0 < piece) → pieces ≠ [] →
      pieces.sum = buffer.size → ∀ later,
        (fd.write buffer true (pieces.map .ok ++ later)).returned = some (.ok buffer.size) ∧
        (fd.write buffer true (pieces.map .ok ++ later)).taken = buffer.gathered := by
  refine ⟨fun writeAll answers => ?_, fun pieces hpos hne hsum later => ?_⟩
  · have hfaithful := writeLoop_faithful writeAll fd 0 buffer answers
    refine ⟨hfaithful.taken_part, fun n hn => ⟨?_, hfaithful.taken_eq n hn⟩⟩
    have hlength := hfaithful.length_taken n hn
    rwa [Nat.zero_add] at hlength
  · have hpieces := writeLoop_pieces fd 0 buffer pieces hpos hne hsum later
    rw [write, hpieces, Nat.zero_add]
    exact ⟨rfl, rfl⟩

/-- Three views, of which one is empty, in three pieces. -/
theorem write_exactly_once_pieces :
    let buffer : BufferViewList := ⟨[[1, 2], [], [3, 4, 5]]⟩
    (write {} buffer true ([1, 3, 1].map .ok ++ [])).returned = some (.ok 5) ∧
      (write {} buffer true ([1, 3, 1].map .ok ++ [])).taken = [1, 2, 3, 4, 5] :=
  (write_exactly_once {} ⟨[[1, 2], [], [3, 4, 5]]⟩).2 [1, 3, 1] (by decide) (by decide) (by decide)
    []

end FileDescriptor
end Sponge
