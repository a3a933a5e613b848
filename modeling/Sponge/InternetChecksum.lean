import Sponge.Library.OnesComplement
import Sponge.Parser

/-!
# The Internet checksum

`InternetChecksum` of `libsponge/util/util.{hh,cc}`: a 32-bit sum of 16-bit words, whose
carries are added back when the value is asked for.

Main results:

- Theorem {lit}`toNat_sum_add`: while the sum does not overflow, the bytes added so far are
  summed as words, however they were cut into pieces.
- Theorem {lit}`value_eq`: the value is the complement of the one's-complement sum.
- Theorem {lit}`value_eq_zero_iff`: it is zero exactly on strings that verify.
- Theorem {lit}`value_add_filled`: a string with the value of its sum in it verifies.
- Theorem {lit}`value_foldl_add`: the value of a string added in pieces is the complement of
  the one's-complement sum of its words, computed without overflow, and verifies in place of
  a zero word.
-/

namespace Sponge

open Library

/-- `InternetChecksum`. -/
structure InternetChecksum where
  sum : UInt32 := 0
  parity : Bool := false
deriving DecidableEq, Repr

namespace InternetChecksum

/-- `InternetChecksum(initial_sum)`. -/
def new (initialSum : UInt32) : InternetChecksum where
  sum := initialSum

/-- `add(data)`. -/
def add (check : InternetChecksum) : List Byte → InternetChecksum
  | [] => check
  | byte :: data =>
      let val : UInt16 := if check.parity then byte.toUInt16 else byte.toUInt16 <<< 8
      add ⟨check.sum + val.toUInt32, !check.parity⟩ data

/-- The loop of `value()`; a 32-bit sum takes at most two rounds. -/
def foldLoop : Nat → UInt32 → UInt32
  | 0, ret => ret
  | fuel + 1, ret =>
      if ret > 0xffff then foldLoop fuel ((ret >>> 16) + (ret &&& 0xffff)) else ret

/-- `value()`. -/
def value (check : InternetChecksum) : UInt16 :=
  (~~~ foldLoop 2 check.sum).toUInt16

variable {check : InternetChecksum} {data : List Byte}

theorem add_append (check : InternetChecksum) (xs ys : List Byte) :
    check.add (xs ++ ys) = (check.add xs).add ys := by
  induction xs generalizing check with
  | nil => rfl
  | cons x xs ih => exact ih _

/-- The word that a byte counts as. -/
theorem toNat_word (odd : Bool) (byte : Byte) :
    (if odd then byte.toUInt16 else byte.toUInt16 <<< 8 : UInt16).toUInt32.toNat =
      if odd then byte.toNat else byte.toNat * 256 := by
  have hbyte := byte.toNat_lt
  cases odd with
  | true => simp
  | false =>
      simp only [Bool.false_eq_true, if_false, UInt16.toNat_toUInt32, UInt16.toNat_shiftLeft,
        UInt8.toNat_toUInt16, Nat.shiftLeft_eq]
      rw [show (8 : UInt16).toNat % 16 = 8 by decide]
      omega

/-- The bytes added so far are summed as words. -/
theorem toNat_sum_add (check : InternetChecksum) (data : List Byte)
    (h : check.sum.toNat + wordSum check.parity data < 2 ^ 32) :
    (check.add data).sum.toNat = check.sum.toNat + wordSum check.parity data := by
  induction data generalizing check with
  | nil => rfl
  | cons byte data ih =>
      rw [wordSum_cons, ← toNat_word] at h ⊢
      rw [add]
      generalize (if check.parity then byte.toUInt16 else byte.toUInt16 <<< 8 : UInt16).toUInt32 =
        val at h ⊢
      have hsum : (check.sum + val).toNat = check.sum.toNat + val.toNat := by
        rw [UInt32.toNat_add, Nat.mod_eq_of_lt (by omega)]
      have hrest := ih ⟨check.sum + val, !check.parity⟩ (by rw [hsum, Nat.add_assoc]; exact h)
      rw [hrest, hsum, Nat.add_assoc]

theorem toNat_sum_new_add (initialSum : UInt32) (data : List Byte)
    (h : initialSum.toNat + wordSum false data < 2 ^ 32) :
    ((new initialSum).add data).sum.toNat = initialSum.toNat + wordSum false data :=
  toNat_sum_add (new initialSum) data h

/-- The round of the loop adds the carries back. -/
theorem toNat_round (ret : UInt32) :
    ((ret >>> 16) + (ret &&& 0xffff)).toNat = endAround 16 ret.toNat := by
  have hret := ret.toNat_lt
  rw [UInt32.toNat_add, UInt32.toNat_shiftRight, UInt32.toNat_and, endAround,
    show (16 : UInt32).toNat % 32 = 16 by decide,
    show (0xffff : UInt32).toNat = 2 ^ 16 - 1 by decide,
    Nat.and_two_pow_sub_one_eq_mod, Nat.shiftRight_eq_div_pow]
  omega

theorem residue_foldLoop (fuel : Nat) (ret : UInt32) :
    residue 16 (foldLoop fuel ret).toNat = residue 16 ret.toNat := by
  induction fuel generalizing ret with
  | zero => rfl
  | succ fuel ih =>
      rw [foldLoop]
      split
      · rw [ih, toNat_round, residue_endAround]
      · rfl

/-- Two rounds are enough. -/
theorem foldLoop_lt (ret : UInt32) : (foldLoop 2 ret).toNat < 2 ^ 16 := by
  have hlimit : (0xffff : UInt32).toNat = 65535 := by decide
  have hret := ret.toNat_lt
  have hround := toNat_round ret
  have hround' := toNat_round ((ret >>> 16) + (ret &&& 0xffff))
  rw [hround] at hround'
  unfold endAround at hround hround'
  simp only [foldLoop, gt_iff_lt, UInt32.lt_iff_toNat_lt, hlimit]
  split
  · split
    · omega
    · omega
  · omega

/-- The loop leaves the one's-complement sum. -/
theorem toNat_foldLoop (ret : UInt32) : (foldLoop 2 ret).toNat = residue 16 ret.toNat := by
  rw [← residue_foldLoop 2, residue_eq_self (foldLoop_lt ret)]

/-- The value is the complement of the one's-complement sum. -/
theorem value_eq (check : InternetChecksum) :
    check.value.toNat = 2 ^ 16 - 1 - residue 16 check.sum.toNat := by
  have hlt := foldLoop_lt check.sum
  have hfold := toNat_foldLoop check.sum
  rw [value, UInt32.toNat_toUInt16, UInt32.toNat_not, UInt32.size, ← hfold]
  omega

/-- The value is zero exactly on strings that verify. -/
theorem value_eq_zero_iff {initialSum : UInt32} {data : List Byte}
    (h : initialSum.toNat + wordSum false data < 2 ^ 32) :
    ((new initialSum).add data).value = 0 ↔ Verifies initialSum.toNat data := by
  have hlt := residue_lt (w := 16) (by decide) (initialSum.toNat + wordSum false data)
  have hvalue := value_eq ((new initialSum).add data)
  rw [toNat_sum_new_add initialSum data h] at hvalue
  rw [← UInt16.toNat_inj, hvalue, Verifies]
  change _ = 0 ↔ _
  omega

/-- The sum over a datagram does not overflow. -/
theorem sum_lt {initialSum : UInt32} {data : List Byte} (hinitial : initialSum.toNat < 2 ^ 20)
    (hdata : data.length ≤ 65535) : initialSum.toNat + wordSum false data < 2 ^ 32 := by
  have hsum := wordSum_le false data
  omega

/-- A string that has the value of its sum in it, where the string summed had zeros,
verifies. -/
theorem value_add_filled (initialSum : UInt32) (zeroed filled : List Byte)
    (hbound : initialSum.toNat + wordSum false filled < 2 ^ 32)
    (hfilled : wordSum false filled =
      wordSum false zeroed + ((new initialSum).add zeroed).value.toNat) :
    ((new initialSum).add filled).value = 0 := by
  have hzeroed := toNat_sum_new_add initialSum zeroed (by omega)
  have hsum : ((new initialSum).add filled).sum.toNat =
      initialSum.toNat + wordSum false zeroed + ((new initialSum).add zeroed).value.toNat := by
    rw [toNat_sum_new_add initialSum filled hbound, hfilled, Nat.add_assoc]
  apply UInt16.toNat_inj.mp
  rw [value_eq, hsum, value_eq, hzeroed, residue_add_complement (by decide)]
  rfl

end InternetChecksum

/-! ## Words on the wire -/

theorem wordSum_u16 (val : UInt16) : wordSum false (NetUnparser.u16 val) = val.toNat := by
  have hval := val.toNat_lt
  simp only [NetUnparser.u16, toBigEndian, wordSum_cons, wordSum_nil, Bool.false_eq_true,
    if_false, Bool.not_false, if_true, UInt8.toNat_ofNat', pow_one, pow_zero, Nat.div_one]
  omega

/-- The bytes that fill a header up do not count. -/
theorem wordSum_resize {n : Nat} {s : List Byte} (h : s.length ≤ n) :
    wordSum false (resize n s) = wordSum false s := by
  rw [resize_eq_append h, wordSum_append, wordSum_replicate_zero, Nat.add_zero]

/-! ## Strings in pieces -/

namespace InternetChecksum

/-- It does not matter how a string is cut into pieces. -/
theorem foldl_add (check : InternetChecksum) (pieces : List (List Byte)) :
    pieces.foldl add check = check.add pieces.flatten := by
  induction pieces generalizing check with
  | nil => rfl
  | cons piece pieces ih => rw [List.foldl_cons, ih, List.flatten_cons, add_append]

/-- The parity says whether an odd number of bytes has been added. -/
theorem parity_add (check : InternetChecksum) (data : List Byte) :
    (check.add data).parity = (check.parity ^^ data.length.bodd) := by
  induction data generalizing check with
  | nil => simp [add]
  | cons byte data ih =>
      rw [add, ih, List.length_cons, Nat.bodd_succ]
      cases check.parity <;> simp

/-- The next byte of a string that is short enough does not make the sum overflow. -/
theorem sum_add_cons_lt {initialSum : UInt32} {front back : List Byte} {byte : Byte}
    (h : initialSum.toNat + wordSum false (front ++ byte :: back) < 2 ^ 32) :
    ((new initialSum).add front).sum.toNat +
        (if ((new initialSum).add front).parity then byte.toNat else byte.toNat * 256) <
      2 ^ 32 := by
  rw [wordSum_append, wordSum_cons] at h
  rw [toNat_sum_new_add initialSum front (by omega), parity_add]
  change initialSum.toNat + wordSum false front +
    (if (false ^^ front.length.bodd) = true then byte.toNat else byte.toNat * 256) < 2 ^ 32
  omega

/-- The value is the complement of the one's-complement sum of the words. -/
theorem toNat_value_add {initialSum : UInt32} {data : List Byte}
    (h : initialSum.toNat + wordSum false data < 2 ^ 32) :
    ((new initialSum).add data).value.toNat = 2 ^ 16 - 1 -
      onesSum 16 (initialSum.toNat / 2 ^ 16 :: initialSum.toNat % 2 ^ 16 :: words data) := by
  have hinitial := initialSum.toNat_lt
  have hwords : ∀ word ∈ initialSum.toNat / 2 ^ 16 :: initialSum.toNat % 2 ^ 16 :: words data,
      word < 2 ^ 16 := by
    intro word hword
    rcases List.mem_cons.mp hword with rfl | hword
    · omega
    · rcases List.mem_cons.mp hword with rfl | hword
      · omega
      · exact words_lt hword
  rw [value_eq, toNat_sum_new_add initialSum data h, onesSum_eq_residue hwords, List.sum_cons,
    List.sum_cons, sum_words, ← Nat.add_assoc]
  -- the two words of the initial sum are that sum with its carry added back
  rw [← endAround, residue_endAround_add]

/-- The words of a string around one of them. -/
theorem wordSum_around {front : List Byte} (heven : Even front.length) (val : UInt16)
    (back : List Byte) :
    wordSum false (front ++ NetUnparser.u16 val ++ back) =
      wordSum false front + val.toNat + wordSum false back := by
  have hfront : front.length.bodd = false := by
    obtain ⟨k, hk⟩ := heven
    rw [hk, Nat.bodd_add, Bool.xor_self]
  have hword : (front ++ NetUnparser.u16 val).length.bodd = false := by
    rw [List.length_append, NetUnparser.length_u16, Nat.bodd_add, hfront]
    rfl
  rw [wordSum_append, wordSum_append, hfront, hword, Bool.false_xor, wordSum_u16]

/-- A string of at most 65535 bytes, added in pieces of any length to an initial sum below
`2 ^ 20`: no addition overflows; the value is the complement of the one's-complement sum of
the initial sum's two words and the words of the string; and where the string has a zero word
at an even place, the same string with the value written there has the value zero, however it
is cut. -/
theorem value_foldl_add (initialSum : UInt32) (hinitial : initialSum.toNat < 2 ^ 20)
    (pieces : List (List Byte)) (htotal : pieces.flatten.length ≤ 65535) :
    (∀ (before after : List (List Byte)) (front back : List Byte) (byte : Byte),
      pieces = before ++ (front ++ byte :: back) :: after →
        ((before.foldl add (new initialSum)).add front).sum.toNat +
            (if ((before.foldl add (new initialSum)).add front).parity then byte.toNat
              else byte.toNat * 256) < 2 ^ 32) ∧
    (pieces.foldl add (new initialSum)).value.toNat = 2 ^ 16 - 1 -
      onesSum 16 (initialSum.toNat / 2 ^ 16 :: initialSum.toNat % 2 ^ 16 ::
        words pieces.flatten) ∧
    ∀ (front back : List Byte) (filled : List (List Byte)), Even front.length →
      pieces.flatten = front ++ [0, 0] ++ back →
      filled.flatten = front ++
        NetUnparser.u16 (pieces.foldl add (new initialSum)).value ++ back →
      (filled.foldl add (new initialSum)).value = 0 := by
  have hlt := sum_lt hinitial htotal
  refine ⟨?_, ?_, ?_⟩
  · intro before after front back byte hpieces
    have hflatten : pieces.flatten =
        (before.flatten ++ front) ++ byte :: (back ++ after.flatten) := by
      simp [hpieces]
    rw [hflatten] at hlt
    rw [foldl_add, ← add_append]
    exact sum_add_cons_lt hlt
  · rw [foldl_add]
    exact toNat_value_add hlt
  · intro front back filled heven hzeroed hfilled
    have hlength : filled.flatten.length = pieces.flatten.length := by
      rw [hfilled, hzeroed, List.length_append, List.length_append, List.length_append,
        List.length_append, NetUnparser.length_u16]
      rfl
    have hzero : pieces.flatten = front ++ NetUnparser.u16 0 ++ back := hzeroed
    rw [foldl_add]
    apply value_add_filled initialSum pieces.flatten filled.flatten
      (sum_lt hinitial (by omega))
    rw [hfilled, hzero, wordSum_around heven, wordSum_around heven, ← hzero, foldl_add]
    change _ = _ + 0 + _ + _
    omega

/-- Three pieces of odd and even length, the second with the field in it. -/
theorem value_foldl_add_three :
    (0x12345 : UInt32).toNat < 2 ^ 20 ∧
      ([[0x45], [0x10, 0, 0], [0xff]].foldl add (new 0x12345)).value.toNat = 2 ^ 16 - 1 -
        onesSum 16 [0x1, 0x2345, 0x4510, 0, 0xff00] ∧
      ([[0x45, 0x10], NetUnparser.u16 0x98a8, [0xff]].foldl add (new 0x12345)).value = 0 := by
  obtain ⟨-, hvalue, hverifies⟩ := value_foldl_add 0x12345 (by decide)
    [[0x45], [0x10, 0, 0], [0xff]] (by decide)
  have hfield : ([[0x45], [0x10, 0, 0], [0xff]].foldl add (new 0x12345)).value = 0x98a8 := by
    decide
  refine ⟨by decide, hvalue, hverifies [0x45, 0x10] [0xff] _ (by decide) rfl ?_⟩
  rw [hfield]
  rfl

end InternetChecksum

end Sponge
