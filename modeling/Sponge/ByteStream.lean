import Sponge.Library.RingBuffer

/-!
# The byte stream

`ByteStream` is the bounded in-order queue of bytes that every layer above is built
on: `libsponge/byte_stream.cc`.  Its bytes sit in a ring of `capacity` slots, with a
write index moved by compare-and-reset, a read index moved by a remainder, and a
separate size.  How the five numbers hang together is part of the structure, so the
queue of buffered bytes, `contents`, can be read off every stream.

A stream of capacity zero cannot be read in the source (its read index is taken
modulo the capacity); here its read index stays where it is.  Byte counts are
natural numbers: the source's 64-bit counters do not wrap within a connection.

Main results:

- Theorem {lit}`contents_write`: a write appends the bytes that fit, and nothing
  once the input has ended.
- Theorems {lit}`peekOutput_eq` and {lit}`contents_popOutput`: reading takes the
  oldest bytes.
-/

namespace Sponge

open Library

/-- A character of a `std::string`. -/
abbrev Byte := UInt8

/-- `ByteStream`: a ring of bytes with its indices and counters. -/
structure ByteStream where
  buf : List Byte
  capacity : Nat
  front : Nat
  rear : Nat
  curSize : Nat
  readCount : Nat
  writeCount : Nat
  inputEnded : Bool
  error : Bool
  buf_length : buf.length = capacity
  rear_lt : 0 < capacity → rear < capacity
  front_eq : front = (rear + curSize) % capacity
  curSize_le : curSize ≤ capacity
  writeCount_eq : writeCount = readCount + curSize

namespace ByteStream

/-- `ByteStream(capacity)`: an empty stream whose slots hold blanks. -/
def new (capacity : Nat) : ByteStream where
  buf := List.replicate capacity 32
  capacity := capacity
  front := 0
  rear := 0
  curSize := 0
  readCount := 0
  writeCount := 0
  inputEnded := false
  error := false
  buf_length := List.length_replicate
  rear_lt := id
  front_eq := by simp
  curSize_le := Nat.zero_le _
  writeCount_eq := rfl

/-! ## Accessors -/

/-- `remaining_capacity()`. -/
def remainingCapacity (s : ByteStream) : Nat :=
  s.capacity - s.curSize

/-- `buffer_size()`. -/
def bufferSize (s : ByteStream) : Nat :=
  s.curSize

/-- `buffer_empty()`. -/
def bufferEmpty (s : ByteStream) : Bool :=
  s.curSize == 0

/-- `eof()`. -/
def eof (s : ByteStream) : Bool :=
  s.inputEnded && s.bufferEmpty

/-- `bytes_written()`. -/
def bytesWritten (s : ByteStream) : Nat :=
  s.writeCount

/-- `bytes_read()`. -/
def bytesRead (s : ByteStream) : Nat :=
  s.readCount

/-- The buffered bytes, oldest first. -/
def contents (s : ByteStream) : List Byte :=
  RingBuffer.view s.capacity s.buf s.rear s.curSize

/-! ## Operations -/

/-- How many bytes of `data` a write accepts. -/
def writeLength (s : ByteStream) (data : List Byte) : Nat :=
  if s.inputEnded then 0 else min s.remainingCapacity data.length

theorem writeLength_le (s : ByteStream) (data : List Byte) :
    s.writeLength data ≤ data.length := by
  unfold writeLength
  split
  · exact Nat.zero_le _
  · exact Nat.min_le_right _ _

theorem curSize_add_writeLength_le (s : ByteStream) (data : List Byte) :
    s.curSize + s.writeLength data ≤ s.capacity := by
  have := s.curSize_le
  unfold writeLength remainingCapacity
  split <;> omega

/-- The write index lands behind the bytes written. -/
private theorem front_write (s : ByteStream) (data : List Byte) :
    (RingBuffer.writeFrom s.capacity s.buf s.front (data.take (s.writeLength data))).2 =
      (s.rear + (s.curSize + s.writeLength data)) % s.capacity := by
  have hfit := s.curSize_add_writeLength_le data
  rcases Nat.eq_zero_or_pos s.capacity with hzero | hpos
  · have hlen : s.writeLength data = 0 := by omega
    rw [hlen, List.take_zero, RingBuffer.writeFrom, s.front_eq, Nat.add_zero]
  · have hfront : s.front < s.capacity := by
      rw [s.front_eq]
      exact Nat.mod_lt _ hpos
    rw [RingBuffer.front_writeFrom _ _ hfront, s.front_eq, Nat.mod_add_mod,
      List.length_take, Nat.min_eq_left (s.writeLength_le data), Nat.add_assoc]

/-- `write(data)`: the stream behind the write and the number of bytes accepted. -/
def write (s : ByteStream) (data : List Byte) : ByteStream × Nat :=
  let ring := RingBuffer.writeFrom s.capacity s.buf s.front (data.take (s.writeLength data))
  ({ s with
      buf := ring.1
      front := ring.2
      curSize := s.curSize + s.writeLength data
      writeCount := s.writeCount + s.writeLength data
      buf_length := by rw [RingBuffer.length_writeFrom, s.buf_length]
      front_eq := s.front_write data
      curSize_le := s.curSize_add_writeLength_le data
      writeCount_eq := by rw [s.writeCount_eq, Nat.add_assoc] },
    s.writeLength data)

/-- `peek_output(len)`. -/
def peekOutput (s : ByteStream) (len : Nat) : List Byte :=
  RingBuffer.readFrom s.capacity s.buf s.rear (min s.curSize len)

/-- `pop_output(len)`, of a stream that can hold a byte.  At capacity zero the source divides by
zero; here the index stays as it is. -/
def popOutput (s : ByteStream) (len : Nat) : ByteStream :=
  { s with
    rear := (s.rear + min s.curSize len) % s.capacity
    curSize := s.curSize - min s.curSize len
    readCount := s.readCount + min s.curSize len
    rear_lt := fun hpos => Nat.mod_lt _ hpos
    front_eq := by
      rw [s.front_eq, Nat.mod_add_mod]
      congr 1
      omega
    curSize_le := (Nat.sub_le _ _).trans s.curSize_le
    writeCount_eq := by
      rw [s.writeCount_eq]
      omega }

/-- `read(len)`: peek, then pop. -/
def read (s : ByteStream) (len : Nat) : List Byte × ByteStream :=
  (s.peekOutput len, s.popOutput len)

/-- `end_input()`. -/
def endInput (s : ByteStream) : ByteStream :=
  { s with inputEnded := true }

/-- `set_error()`. -/
def setError (s : ByteStream) : ByteStream :=
  { s with error := true }

/-! ## The queue of buffered bytes -/

@[simp]
theorem contents_new (capacity : Nat) : (new capacity).contents = [] :=
  rfl

@[simp]
theorem inputEnded_endInput (s : ByteStream) : s.endInput.inputEnded = true :=
  rfl

@[simp]
theorem length_contents (s : ByteStream) : s.contents.length = s.bufferSize := by
  simp [contents, bufferSize]

theorem bufferSize_add_remainingCapacity (s : ByteStream) :
    s.bufferSize + s.remainingCapacity = s.capacity := by
  have := s.curSize_le
  simp only [bufferSize, remainingCapacity]
  omega

theorem bytesWritten_eq (s : ByteStream) :
    s.bytesWritten = s.bytesRead + s.bufferSize :=
  s.writeCount_eq

/-- An empty buffer is a queue without bytes. -/
theorem bufferEmpty_iff (s : ByteStream) : s.bufferEmpty = true ↔ s.contents = [] := by
  rw [← List.length_eq_zero_iff, length_contents, bufferEmpty, bufferSize, beq_iff_eq]

/-- A write that accepts nothing changes nothing. -/
theorem write_of_writeLength_eq_zero {s : ByteStream} {data : List Byte}
    (h : s.writeLength data = 0) : s.write data = (s, 0) := by
  simp only [write, h, List.take_zero, RingBuffer.writeFrom, Nat.add_zero]

/-- A write appends the bytes it accepts. -/
theorem contents_write (s : ByteStream) (data : List Byte) :
    (s.write data).1.contents = s.contents ++ data.take (s.writeLength data) := by
  have hlen : (data.take (s.writeLength data)).length = s.writeLength data := by
    rw [List.length_take, Nat.min_eq_left (s.writeLength_le data)]
  have happend := RingBuffer.view_writeFrom s.rear s.curSize
    (data.take (s.writeLength data)) s.buf_length
    (by rw [hlen]; exact s.curSize_add_writeLength_le data)
  rw [hlen, ← s.front_eq] at happend
  exact happend

/-- Peeking reads the oldest bytes. -/
theorem peekOutput_eq (s : ByteStream) (len : Nat) :
    s.peekOutput len = s.contents.take len := by
  have hle := s.curSize_le
  rcases Nat.eq_zero_or_pos s.capacity with hzero | hpos
  · have hsize : s.curSize = 0 := by omega
    simp [peekOutput, contents, hsize, RingBuffer.readFrom]
  · rw [peekOutput, RingBuffer.readFrom_eq_view _ _ (s.rear_lt hpos),
      ← RingBuffer.take_view _ _ _ (Nat.min_le_left _ len), contents]
    rw [← List.take_take, List.take_of_length_le (i := s.curSize)]
    simp

/-- Popping drops the oldest bytes. -/
theorem contents_popOutput (s : ByteStream) (len : Nat) :
    (s.popOutput len).contents = s.contents.drop len := by
  have hdrop := RingBuffer.drop_view s.capacity s.buf s.rear (min s.curSize len) s.curSize
  have hview : (s.popOutput len).contents = s.contents.drop (min s.curSize len) :=
    hdrop.symm
  rw [hview]
  rcases Nat.le_total len s.curSize with h | h
  · rw [Nat.min_eq_right h]
  · rw [Nat.min_eq_left h, List.drop_of_length_le (i := len) (by simpa [bufferSize] using h),
      List.drop_of_length_le]
    simp [bufferSize]

/-- Popping more than is buffered pops what is buffered. -/
theorem popOutput_length_peekOutput (s : ByteStream) (len : Nat) :
    s.popOutput (s.peekOutput len).length = s.popOutput len := by
  have hlen : min s.curSize (s.peekOutput len).length = min s.curSize len := by
    rw [peekOutput_eq, List.length_take, length_contents, bufferSize]
    omega
  simp only [popOutput, hlen]

/-- Popping nothing changes nothing. -/
theorem popOutput_zero (s : ByteStream) : s.popOutput 0 = s := by
  have hrear : s.rear % s.capacity = s.rear := by
    rcases Nat.eq_zero_or_pos s.capacity with hzero | hpos
    · rw [hzero, Nat.mod_zero]
    · exact Nat.mod_eq_of_lt (s.rear_lt hpos)
  simp only [popOutput, Nat.min_zero, Nat.add_zero, Nat.sub_zero, hrear]

end ByteStream
end Sponge
