import Mathlib

/-!
# Numbers in network byte order

A number as a string of bytes, the most significant one first.

Main results:

- Theorem {lit}`bigEndian_toBigEndian`: a number that fits is read back.
- Theorem {lit}`toBigEndian_bigEndian`: a string is written back.
-/

namespace Sponge
namespace Library

/-- The number that a string of bytes stands for. -/
def bigEndian (bytes : List UInt8) : Nat :=
  bytes.foldl (fun ret byte => ret * 256 + byte.toNat) 0

/-- The last `len` bytes of a number. -/
def toBigEndian : Nat → Nat → List UInt8
  | 0, _ => []
  | len + 1, n => UInt8.ofNat (n / 256 ^ len) :: toBigEndian len n

variable {bytes : List UInt8} {len n : Nat}

theorem foldl_bigEndian (start : Nat) (bytes : List UInt8) :
    bytes.foldl (fun ret byte => ret * 256 + byte.toNat) start =
      start * 256 ^ bytes.length + bigEndian bytes := by
  induction bytes generalizing start with
  | nil => simp [bigEndian]
  | cons byte bytes ih =>
      have hcons : bigEndian (byte :: bytes) =
          (0 * 256 + byte.toNat) * 256 ^ bytes.length + bigEndian bytes := ih _
      rw [List.foldl_cons, ih, hcons, List.length_cons, pow_succ]
      ring

theorem bigEndian_cons (byte : UInt8) (bytes : List UInt8) :
    bigEndian (byte :: bytes) = byte.toNat * 256 ^ bytes.length + bigEndian bytes := by
  rw [bigEndian, List.foldl_cons, foldl_bigEndian, Nat.zero_mul, Nat.zero_add]

theorem bigEndian_lt (bytes : List UInt8) : bigEndian bytes < 256 ^ bytes.length := by
  induction bytes with
  | nil => decide
  | cons byte bytes ih =>
      have hbyte : byte.toNat + 1 ≤ 256 := byte.toNat_lt
      rw [bigEndian_cons, List.length_cons, pow_succ]
      calc byte.toNat * 256 ^ bytes.length + bigEndian bytes
          < (byte.toNat + 1) * 256 ^ bytes.length := by rw [Nat.add_one_mul]; omega
        _ ≤ 256 * 256 ^ bytes.length := Nat.mul_le_mul_right _ hbyte
        _ = 256 ^ bytes.length * 256 := Nat.mul_comm _ _

@[simp]
theorem length_toBigEndian (len n : Nat) : (toBigEndian len n).length = len := by
  induction len with
  | zero => rfl
  | succ len ih => rw [toBigEndian, List.length_cons, ih]

theorem bigEndian_toBigEndian_mod (len n : Nat) :
    bigEndian (toBigEndian len n) = n % 256 ^ len := by
  induction len with
  | zero => simp [toBigEndian, bigEndian, Nat.mod_one]
  | succ len ih =>
      have hbyte : (UInt8.ofNat (n / 256 ^ len)).toNat = n / 256 ^ len % 256 := by
        rw [UInt8.toNat_ofNat']
      rw [toBigEndian, bigEndian_cons, ih, length_toBigEndian, hbyte, pow_succ, Nat.mod_mul,
        Nat.mul_comm, Nat.add_comm]

/-- A number that fits is read back. -/
theorem bigEndian_toBigEndian (h : n < 256 ^ len) : bigEndian (toBigEndian len n) = n := by
  rw [bigEndian_toBigEndian_mod, Nat.mod_eq_of_lt h]

/-- Only the last bytes of a number are written. -/
theorem toBigEndian_add_mul (len n k : Nat) :
    toBigEndian len (k * 256 ^ len + n) = toBigEndian len n := by
  induction len generalizing k with
  | zero => rfl
  | succ len ih =>
      have hshift : k * 256 ^ (len + 1) + n = k * 256 * 256 ^ len + n := by ring
      rw [toBigEndian, toBigEndian, hshift, ih]
      congr 1
      rw [Nat.add_comm, Nat.add_mul_div_right _ _ (Nat.pow_pos (by decide))]
      apply UInt8.toNat_inj.mp
      simp only [UInt8.toNat_ofNat']
      omega

/-- A string is written back. -/
theorem toBigEndian_bigEndian (bytes : List UInt8) :
    toBigEndian bytes.length (bigEndian bytes) = bytes := by
  induction bytes with
  | nil => rfl
  | cons byte bytes ih =>
      have hlt := bigEndian_lt bytes
      rw [List.length_cons, toBigEndian, bigEndian_cons, toBigEndian_add_mul, ih, Nat.add_comm,
        Nat.add_mul_div_right _ _ (Nat.pow_pos (by decide)), Nat.div_eq_of_lt hlt,
        Nat.zero_add, UInt8.ofNat_toNat]

end Library
end Sponge
