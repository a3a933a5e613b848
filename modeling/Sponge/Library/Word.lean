import Mathlib

/-!
# Unsigned machine words

Arithmetic on natural numbers modulo a power of two, for the places where a program
adds or subtracts unsigned words and the result may wrap.

Main results:

- Theorems {lit}`word_eq_self` and {lit}`wordSub_eq_sub`: within range the wrapped
  operations are the plain ones.
- Theorem {lit}`high_or_low`: replacing the low half of a double word.
-/

namespace Sponge
namespace Library

/-- The value of an unsigned word of `w` bits that was computed as `n`. -/
def word (w n : Nat) : Nat :=
  n % 2 ^ w

/-- Subtraction of unsigned words of `w` bits. -/
def wordSub (w a b : Nat) : Nat :=
  (a + (2 ^ w - b % 2 ^ w)) % 2 ^ w

theorem word_lt (w n : Nat) : word w n < 2 ^ w :=
  Nat.mod_lt _ (Nat.two_pow_pos w)

theorem word_eq_self {w n : Nat} (h : n < 2 ^ w) : word w n = n :=
  Nat.mod_eq_of_lt h

theorem wordSub_lt (w a b : Nat) : wordSub w a b < 2 ^ w :=
  Nat.mod_lt _ (Nat.two_pow_pos w)

/-- A difference of words that does not underflow is the plain difference. -/
theorem wordSub_eq_sub {w a b : Nat} (hle : b ≤ a) (ha : a < 2 ^ w) :
    wordSub w a b = a - b := by
  have hb : b % 2 ^ w = b := Nat.mod_eq_of_lt (by omega)
  have hsum : a + (2 ^ w - b) = (a - b) + 2 ^ w := by omega
  rw [wordSub, hb, hsum, Nat.add_mod_right, Nat.mod_eq_of_lt (by omega)]

/-- Masking off the low half of a double word and putting `d` in its place. -/
theorem high_or_low {w x d : Nat} (hx : x < 2 ^ (2 * w)) (hd : d < 2 ^ w) :
    (x &&& (2 ^ w - 1) <<< w) ||| d = x / 2 ^ w * 2 ^ w + d := by
  rw [← Nat.shiftLeft_eq, Nat.shiftLeft_add_eq_or_of_lt hd]
  apply Nat.eq_of_testBit_eq
  intro i
  rw [Nat.testBit_or, Nat.testBit_or, Nat.testBit_and, Nat.testBit_shiftLeft,
    Nat.testBit_shiftLeft, Nat.testBit_two_pow_sub_one, Nat.testBit_div_two_pow]
  by_cases hi : w ≤ i
  · by_cases hhigh : i < 2 * w
    · have hlow : i - w < w := by omega
      simp [hi, hlow]
    · have hbit : x.testBit i = false :=
        Nat.testBit_lt_two_pow (lt_of_lt_of_le hx (Nat.pow_le_pow_right (by omega) (by omega)))
      simp [hi, hbit]
  · simp [hi]

end Library
end Sponge
