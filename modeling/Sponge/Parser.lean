import Sponge.ByteStream
import Sponge.Library.BigEndian

/-!
# Buffers and parsers

`Buffer` and `BufferList` of `libsponge/util/buffer.{hh,cc}`, `NetParser` and
`NetUnparser` of `libsponge/util/parser.{hh,cc}`, and what the code reads off an
`Address`.

A `Buffer` is the string that it shows.  A parser that has run into an error consumes
nothing more and reads zeros.  An exception is the text of its `runtime_error`.

Main results:

- Theorems {lit}`u8_cons`, {lit}`u16_append` and {lit}`u32_append`: a number that was
  written in front of a buffer is read back.
- Theorem {lit}`parseInt_of_le`: what is read from an arbitrary buffer.
- Theorem {lit}`Consumes.trans`: a parser without an error has consumed what was read.
-/

namespace Sponge

open Library

/-! ## Buffers -/

/-- `Buffer`. -/
abbrev Buffer := List Byte

/-- `BufferList`. -/
structure BufferList where
  buffers : List Buffer := []
deriving DecidableEq, Repr

namespace BufferList

/-- `BufferList(buffer)`. -/
def ofBuffer (buffer : Buffer) : BufferList :=
  ⟨[buffer]⟩

/-- `append(other)`. -/
def append (list other : BufferList) : BufferList :=
  ⟨list.buffers ++ other.buffers⟩

/-- `size()`. -/
def size (list : BufferList) : Nat :=
  (list.buffers.map List.length).sum

/-- `concatenate()`. -/
def concatenate (list : BufferList) : Buffer :=
  list.buffers.flatten

/-- The conversion to a `Buffer`, which only a contiguous list allows. -/
def toBuffer (list : BufferList) : Except String Buffer :=
  match list.buffers with
  | [] => .ok []
  | [buffer] => .ok buffer
  | _ :: _ :: _ => .error ("BufferList: please use concatenate() to combine a multi-Buffer " ++
      "BufferList into one Buffer")

/-- A list of one buffer converts to that buffer. -/
@[simp]
theorem toBuffer_ofBuffer (buffer : Buffer) : (ofBuffer buffer).toBuffer = .ok buffer :=
  rfl

/-- The conversion of a list of one buffer does not throw. -/
theorem exists_toBuffer {list : BufferList} (h : list.buffers.length = 1) :
    ∃ buffer, list.toBuffer = .ok buffer := by
  obtain ⟨buffer, hbuffer⟩ := List.length_eq_one_iff.mp h
  exact ⟨buffer, by rw [toBuffer, hbuffer]⟩

/-- A list of one buffer holds its bytes. -/
@[simp]
theorem concatenate_ofBuffer (buffer : Buffer) : (ofBuffer buffer).concatenate = buffer := by
  simp [concatenate, ofBuffer]

/-- The bytes of a list come before those that are appended. -/
@[simp]
theorem concatenate_append (list other : BufferList) :
    (list.append other).concatenate = list.concatenate ++ other.concatenate := by
  simp [concatenate, append]

/-- `size()` counts the bytes of a list. -/
theorem length_concatenate (list : BufferList) : list.concatenate.length = list.size := by
  simp [concatenate, size, List.length_flatten]

@[simp]
theorem size_ofBuffer (buffer : Buffer) : (ofBuffer buffer).size = buffer.length := by
  simp [size, ofBuffer]

end BufferList

/-! ## Parsing -/

/-- `ParseResult`. -/
inductive ParseResult where
  | noError
  | badChecksum
  | packetTooShort
  | wrongIPVersion
  | headerTooShort
  | truncatedPacket
  | unsupported
deriving DecidableEq, Repr

/-- `NetParser`. -/
structure NetParser where
  buffer : Buffer
  error : ParseResult := .noError
deriving DecidableEq, Repr

namespace NetParser

/-- `_check_size(size)`. -/
def checkSize (p : NetParser) (size : Nat) : NetParser :=
  if size > p.buffer.length then { p with error := .packetTooShort } else p

/-- `_parse_int()` for an integer of `len` bytes. -/
def parseInt (p : NetParser) (len : Nat) : Nat × NetParser :=
  let p := p.checkSize len
  if p.error ≠ .noError then (0, p)
  else (bigEndian (p.buffer.take len), { p with buffer := p.buffer.drop len })

/-- `u32()`. -/
def u32 (p : NetParser) : UInt32 × NetParser :=
  let (val, p) := p.parseInt 4
  (UInt32.ofNat val, p)

/-- `u16()`. -/
def u16 (p : NetParser) : UInt16 × NetParser :=
  let (val, p) := p.parseInt 2
  (UInt16.ofNat val, p)

/-- `u8()`. -/
def u8 (p : NetParser) : UInt8 × NetParser :=
  let (val, p) := p.parseInt 1
  (UInt8.ofNat val, p)

/-- `u8()` for each byte of an array of `n` bytes. -/
def u8s : Nat → NetParser → List Byte × NetParser
  | 0, p => ([], p)
  | n + 1, p =>
      let (byte, p) := p.u8
      let (bytes, p) := u8s n p
      (byte :: bytes, p)

/-- `remove_prefix(n)`. -/
def removePrefix (p : NetParser) (n : Nat) : NetParser :=
  let p := p.checkSize n
  if p.error ≠ .noError then p else { p with buffer := p.buffer.drop n }

end NetParser

namespace NetUnparser

/-- `u32(s, val)`: what is appended to `s`. -/
def u32 (val : UInt32) : List Byte :=
  toBigEndian 4 val.toNat

/-- `u16(s, val)`. -/
def u16 (val : UInt16) : List Byte :=
  toBigEndian 2 val.toNat

/-- `u8(s, val)`. -/
def u8 (val : UInt8) : List Byte :=
  toBigEndian 1 val.toNat

/-- Four bytes are written. -/
@[simp]
theorem length_u32 (val : UInt32) : (u32 val).length = 4 :=
  length_toBigEndian _ _

/-- Two bytes are written. -/
@[simp]
theorem length_u16 (val : UInt16) : (u16 val).length = 2 :=
  length_toBigEndian _ _

/-- A byte is written as it is. -/
@[simp]
theorem u8_eq (val : UInt8) : u8 val = [val] := by
  simp [u8, toBigEndian]

end NetUnparser

/-- `string::resize(n)`: cut off, or filled up with zeros. -/
def resize (n : Nat) (s : List Byte) : List Byte :=
  s.take n ++ List.replicate (n - s.length) 0

/-- A longer string is filled up with zeros. -/
theorem resize_eq_append {n : Nat} {s : List Byte} (h : s.length ≤ n) :
    resize n s = s ++ List.replicate (n - s.length) 0 := by
  rw [resize, List.take_of_length_le h]

theorem length_resize (n : Nat) (s : List Byte) : (resize n s).length = n := by
  simp [resize]
  omega

/-! ## Fields of a string -/

/-- The number in network byte order that stands in the `len` bytes from `start` on. -/
def field (b : Buffer) (start len : Nat) : Nat :=
  bigEndian ((b.drop start).take len)

/-- A field of `len` bytes is below `256 ^ len`. -/
theorem field_lt (b : Buffer) (start len : Nat) : field b start len < 256 ^ len := by
  have hle : ((b.drop start).take len).length ≤ len := List.length_take_le _ _
  exact (bigEndian_lt _).trans_le (Nat.pow_le_pow_right (by decide) hle)

/-- A field of one byte fits its type. -/
theorem toNat_field_one (b : Buffer) (start : Nat) :
    (UInt8.ofNat (field b start 1)).toNat = field b start 1 :=
  UInt8.toNat_ofNat_of_lt' (field_lt b start 1)

/-- A field of two bytes fits its type. -/
theorem toNat_field_two (b : Buffer) (start : Nat) :
    (UInt16.ofNat (field b start 2)).toNat = field b start 2 :=
  UInt16.toNat_ofNat_of_lt' (field_lt b start 2)

/-- A field of four bytes fits its type. -/
theorem toNat_field_four (b : Buffer) (start : Nat) :
    (UInt32.ofNat (field b start 4)).toNat = field b start 4 :=
  UInt32.toNat_ofNat_of_lt' (field_lt b start 4)

/-- Writing a number that stands in a string gives the bytes where it stands. -/
theorem toBigEndian_field {b : Buffer} {start len : Nat} (h : start + len ≤ b.length) :
    toBigEndian len (field b start len) = (b.drop start).take len := by
  have hlength : ((b.drop start).take len).length = len := by
    rw [List.length_take, List.length_drop]
    omega
  have hback := toBigEndian_bigEndian ((b.drop start).take len)
  rwa [hlength] at hback

/-- Writing a field of one byte gives back the byte that it was read from. -/
theorem u8_field {b : Buffer} {start : Nat} (h : start + 1 ≤ b.length) :
    NetUnparser.u8 (UInt8.ofNat (field b start 1)) = (b.drop start).take 1 := by
  rw [NetUnparser.u8, toNat_field_one, toBigEndian_field h]

/-- Writing a field of two bytes gives back the bytes that it was read from. -/
theorem u16_field {b : Buffer} {start : Nat} (h : start + 2 ≤ b.length) :
    NetUnparser.u16 (UInt16.ofNat (field b start 2)) = (b.drop start).take 2 := by
  rw [NetUnparser.u16, toNat_field_two, toBigEndian_field h]

/-- Writing a field of four bytes gives back the bytes that it was read from. -/
theorem u32_field {b : Buffer} {start : Nat} (h : start + 4 ≤ b.length) :
    NetUnparser.u32 (UInt32.ofNat (field b start 4)) = (b.drop start).take 4 := by
  rw [NetUnparser.u32, toNat_field_four, toBigEndian_field h]

/-- Two pieces of a string, one behind the other. -/
theorem take_append_take_drop {b : Buffer} (start len len' : Nat) :
    (b.drop start).take len ++ (b.drop (start + len)).take len' =
      (b.drop start).take (len + len') := by
  rw [List.take_add, List.drop_drop]

/-- A mask with one bit reads that bit. -/
theorem decide_and_two_pow (n i : Nat) : decide (n &&& 2 ^ i ≠ 0) = n.testBit i := by
  rw [Nat.and_two_pow]
  cases n.testBit i <;> simp

/-- A flag of a byte is one of its bits. -/
theorem decide_and_flag_eight {x mask : UInt8} {i : Nat} (h : mask.toNat = 2 ^ i) :
    decide (x &&& mask ≠ 0) = x.toNat.testBit i := by
  rw [← decide_and_two_pow, decide_eq_decide, ne_eq, ne_eq, ← UInt8.toNat_inj, UInt8.toNat_and, h]
  rfl

/-- A flag of a word is one of its bits. -/
theorem decide_and_flag_sixteen {x mask : UInt16} {i : Nat} (h : mask.toNat = 2 ^ i) :
    decide (x &&& mask ≠ 0) = x.toNat.testBit i := by
  rw [← decide_and_two_pow, decide_eq_decide, ne_eq, ne_eq, ← UInt16.toNat_inj, UInt16.toNat_and,
    h]
  rfl

namespace NetParser

variable {p : NetParser} {buffer : Buffer} {len : Nat}

/-- A parser without an error reads what is there. -/
theorem parseInt_of_le (h : len ≤ buffer.length) :
    parseInt ⟨buffer, .noError⟩ len =
      (bigEndian (buffer.take len), ⟨buffer.drop len, .noError⟩) := by
  have hcheck : checkSize ⟨buffer, .noError⟩ len = ⟨buffer, .noError⟩ :=
    if_neg (Nat.not_lt.mpr h)
  rw [parseInt, hcheck]
  rfl

/-- Bytes that are there are removed without an error. -/
theorem removePrefix_of_le (h : len ≤ buffer.length) :
    removePrefix ⟨buffer, .noError⟩ len = ⟨buffer.drop len, .noError⟩ := by
  have hcheck : checkSize ⟨buffer, .noError⟩ len = ⟨buffer, .noError⟩ :=
    if_neg (Nat.not_lt.mpr h)
  rw [removePrefix, hcheck]
  rfl

/-- An integer is read from the bytes in front. -/
theorem parseInt_append (bytes rest : List Byte) (h : bytes.length = len) :
    parseInt ⟨bytes ++ rest, .noError⟩ len = (bigEndian bytes, ⟨rest, .noError⟩) := by
  rw [parseInt_of_le (by simp [← h]), ← h, List.take_left, List.drop_left]

/-- What `u32` has written is read back. -/
@[simp]
theorem u32_append (val : UInt32) (rest : List Byte) :
    u32 ⟨NetUnparser.u32 val ++ rest, .noError⟩ = (val, ⟨rest, .noError⟩) := by
  rw [u32, parseInt_append _ _ (NetUnparser.length_u32 val), NetUnparser.u32,
    bigEndian_toBigEndian val.toNat_lt]
  simp

/-- What `u16` has written is read back. -/
@[simp]
theorem u16_append (val : UInt16) (rest : List Byte) :
    u16 ⟨NetUnparser.u16 val ++ rest, .noError⟩ = (val, ⟨rest, .noError⟩) := by
  rw [u16, parseInt_append _ _ (NetUnparser.length_u16 val), NetUnparser.u16,
    bigEndian_toBigEndian val.toNat_lt]
  simp

/-- `u8` reads the first byte. -/
@[simp]
theorem u8_cons (byte : Byte) (rest : List Byte) :
    u8 ⟨byte :: rest, .noError⟩ = (byte, ⟨rest, .noError⟩) := by
  have hread : parseInt ⟨byte :: rest, .noError⟩ 1 = (bigEndian [byte], ⟨rest, .noError⟩) :=
    parseInt_append [byte] rest rfl
  rw [u8, hread]
  simp [bigEndian]

/-! ### Reading from an arbitrary string -/

/-- `u8` reads the field at its place. -/
theorem u8_drop {b : Buffer} {start : Nat} (h : start + 1 ≤ b.length) :
    u8 ⟨b.drop start, .noError⟩ =
      (UInt8.ofNat (field b start 1), ⟨b.drop (start + 1), .noError⟩) := by
  rw [u8, parseInt_of_le (by rw [List.length_drop]; omega), List.drop_drop]
  rfl

/-- `u16` reads the field at its place. -/
theorem u16_drop {b : Buffer} {start : Nat} (h : start + 2 ≤ b.length) :
    u16 ⟨b.drop start, .noError⟩ =
      (UInt16.ofNat (field b start 2), ⟨b.drop (start + 2), .noError⟩) := by
  rw [u16, parseInt_of_le (by rw [List.length_drop]; omega), List.drop_drop]
  rfl

/-- `u32` reads the field at its place. -/
theorem u32_drop {b : Buffer} {start : Nat} (h : start + 4 ≤ b.length) :
    u32 ⟨b.drop start, .noError⟩ =
      (UInt32.ofNat (field b start 4), ⟨b.drop (start + 4), .noError⟩) := by
  rw [u32, parseInt_of_le (by rw [List.length_drop]; omega), List.drop_drop]
  rfl

/-! ### Running out of bytes -/

/-- Between the two parsers `n` bytes were consumed, unless an error was met. -/
def Consumes (p q : NetParser) (n : Nat) : Prop :=
  q.error = .noError → p.error = .noError ∧ n ≤ p.buffer.length ∧ q.buffer = p.buffer.drop n

/-- Two reads in a row. -/
theorem Consumes.trans {p q r : NetParser} {n m : Nat} (hpq : Consumes p q n)
    (hqr : Consumes q r m) : Consumes p r (n + m) := by
  intro hr
  obtain ⟨hq, hm, hrest⟩ := hqr hr
  obtain ⟨hp, hn, hmiddle⟩ := hpq hq
  rw [hmiddle, List.length_drop] at hm
  exact ⟨hp, by omega, by rw [hrest, hmiddle, List.drop_drop]⟩

/-- A check that passes changes nothing, and the bytes are there. -/
theorem checkSize_eq_self {p : NetParser} {n : Nat} (h : (p.checkSize n).error = .noError) :
    p.checkSize n = p ∧ n ≤ p.buffer.length := by
  unfold checkSize at h ⊢
  split at h
  · cases h
  · rename_i hle
    exact ⟨if_neg hle, Nat.not_lt.mp hle⟩

/-- `remove_prefix(n)` consumes `n` bytes. -/
theorem consumes_removePrefix (p : NetParser) (n : Nat) : Consumes p (p.removePrefix n) n := by
  intro h
  simp only [removePrefix] at h ⊢
  split at h
  · rename_i hbad
    exact absurd h hbad
  · rename_i hgood
    rw [not_not] at hgood
    obtain ⟨hsame, hle⟩ := checkSize_eq_self hgood
    rw [hsame] at hgood ⊢
    rw [if_neg (not_not.mpr hgood)]
    exact ⟨hgood, hle, rfl⟩

/-- An integer takes its bytes off the buffer. -/
theorem parseInt_snd (p : NetParser) (len : Nat) : (p.parseInt len).2 = p.removePrefix len := by
  simp only [parseInt, removePrefix]
  split <;> rfl

/-- An integer of `len` bytes consumes them. -/
theorem consumes_parseInt (p : NetParser) (len : Nat) : Consumes p (p.parseInt len).2 len := by
  rw [parseInt_snd]
  exact consumes_removePrefix p len

theorem consumes_u8 (p : NetParser) : Consumes p p.u8.2 1 :=
  consumes_parseInt p 1

theorem consumes_u16 (p : NetParser) : Consumes p p.u16.2 2 :=
  consumes_parseInt p 2

theorem consumes_u32 (p : NetParser) : Consumes p p.u32.2 4 :=
  consumes_parseInt p 4

/-- An array is read byte by byte. -/
theorem u8s_append (bytes rest : List Byte) :
    u8s bytes.length ⟨bytes ++ rest, .noError⟩ = (bytes, ⟨rest, .noError⟩) := by
  induction bytes with
  | nil => rfl
  | cons byte bytes ih =>
      rw [List.length_cons, List.cons_append, u8s, u8_cons]
      simp only [ih]

/-- The bytes of an array are read off the string. -/
theorem u8s_drop {b : Buffer} {start n : Nat} (h : start + n ≤ b.length) :
    u8s n ⟨b.drop start, .noError⟩ = ((b.drop start).take n, ⟨b.drop (start + n), .noError⟩) := by
  have hread := u8s_append ((b.drop start).take n) ((b.drop start).drop n)
  rwa [List.take_append_drop, List.length_take, List.length_drop, Nat.min_eq_left (by omega),
    List.drop_drop] at hread

/-- An array has the length that was asked for. -/
theorem length_u8s (n : Nat) (p : NetParser) : (u8s n p).1.length = n := by
  induction n generalizing p with
  | zero => rfl
  | succ n ih => simp [u8s, ih]

end NetParser

/-! ## Addresses -/

/-- `Address`: the `ipv4_numeric()` and the `port()` that it stores. -/
structure Address where
  ipv4Numeric : UInt32
  port : UInt16 := 0
deriving DecidableEq, Repr

end Sponge
