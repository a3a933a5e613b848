import Sponge.Library.Word

/-!
# Wrapping integers

`WrappingInt32` and the functions `wrap` and `unwrap` of
`libsponge/wrapping_integers.{hh,cc}`.  A 64-bit absolute sequence number travels as 32
bits relative to an initial sequence number; the other side recovers it as the value
closest to a checkpoint it knows.

Main results:

- Theorem {lit}`wrap_unwrap`: what `unwrap` returns wraps to the number given.
- Theorem {lit}`distance_unwrap_le`: no other such value is closer to the checkpoint.
- Theorem {lit}`unwrap_wrap`: within half the 32-bit space, `unwrap` inverts `wrap`.
- Theorem {lit}`unwrap_closest_preimage`: the three together, over all 64-bit checkpoints.
-/

namespace Sponge

open Library

/-- `WrappingInt32`. -/
@[ext]
structure WrappingInt32 where
  rawValue : UInt32
deriving DecidableEq, Repr

namespace WrappingInt32

/-- `operator+(a, b)`: the point `b` steps past `a`. -/
def add (a : WrappingInt32) (b : UInt32) : WrappingInt32 :=
  ⟨a.rawValue + b⟩

/-- `operator-(a, b)`: the point `b` steps before `a`. -/
def sub (a : WrappingInt32) (b : UInt32) : WrappingInt32 :=
  a.add (-b)

end WrappingInt32

/-- `wrap(n, isn)`. -/
def wrap (n : Nat) (isn : WrappingInt32) : WrappingInt32 :=
  ⟨UInt32.ofNat (word 64 (n + isn.rawValue.toNat) &&& (2 ^ 32 - 1))⟩

/-- The distance that `unwrap` compares. -/
def distance (checkpoint a : Nat) : Nat :=
  if checkpoint > a then checkpoint - a else a - checkpoint

/-- The comparison of `std::min_element` in `unwrap`: `b` replaces `a` if it is closer. -/
def closer (checkpoint a b : Nat) : Nat :=
  if distance checkpoint b < distance checkpoint a then b else a

/-- `unwrap(n, isn, checkpoint)`. -/
def unwrap (n isn : WrappingInt32) (checkpoint : Nat) : Nat :=
  let diff := (n.rawValue - isn.rawValue).toNat
  let mask := (2 ^ 32 - 1) <<< 32
  let same := (checkpoint &&& mask) ||| diff
  let above := (word 64 (checkpoint + 2 ^ 32) &&& mask) ||| diff
  let below := (wordSub 64 checkpoint (2 ^ 32) &&& mask) ||| diff
  closer checkpoint (closer checkpoint same above) below

/-! ## Wrapping -/

/-- The raw value of a wrapped number. -/
theorem toNat_wrap (n : Nat) (isn : WrappingInt32) :
    (wrap n isn).rawValue.toNat = (n + isn.rawValue.toNat) % 2 ^ 32 := by
  rw [wrap, Nat.and_two_pow_sub_one_eq_mod, word, UInt32.toNat_ofNat', Nat.mod_mod,
    Nat.mod_mod_of_dvd _ (by decide)]

/-- Two positions wrap to the same number when they agree modulo `2 ^ 32`. -/
theorem wrap_eq_wrap_iff {a b : Nat} {isn : WrappingInt32} :
    wrap a isn = wrap b isn ↔ a % 2 ^ 32 = b % 2 ^ 32 := by
  rw [WrappingInt32.ext_iff, ← UInt32.toNat_inj, toNat_wrap, toNat_wrap]
  omega

/-- Every number is the wrapping of its offset from the initial sequence number. -/
theorem wrap_toNat_sub (n isn : WrappingInt32) :
    wrap (n.rawValue - isn.rawValue).toNat isn = n := by
  have hn := n.rawValue.toNat_lt
  have hisn := isn.rawValue.toNat_lt
  rw [WrappingInt32.ext_iff, ← UInt32.toNat_inj, toNat_wrap, UInt32.toNat_sub]
  omega

/-- Stepping past a wrapped number steps past the position. -/
theorem add_wrap (a b : Nat) (isn : WrappingInt32) :
    (wrap a isn).add (UInt32.ofNat b) = wrap (a + b) isn := by
  rw [WrappingInt32.ext_iff, ← UInt32.toNat_inj, toNat_wrap, WrappingInt32.add,
    UInt32.toNat_add, toNat_wrap, UInt32.toNat_ofNat']
  omega

@[simp] theorem wrap_zero (isn : WrappingInt32) : wrap 0 isn = isn := by
  have hisn := isn.rawValue.toNat_lt
  rw [WrappingInt32.ext_iff, ← UInt32.toNat_inj, toNat_wrap]
  omega

/-! ## Unwrapping -/

theorem distance_eq (checkpoint a : Nat) :
    distance checkpoint a = (checkpoint - a) + (a - checkpoint) := by
  unfold distance
  split <;> omega

/-- The distance is the absolute difference. -/
theorem natCast_distance (checkpoint a : Nat) :
    (distance checkpoint a : ℤ) = |(a : ℤ) - checkpoint| := by
  rw [distance_eq, ← Int.natCast_natAbs]
  omega

theorem closer_eq_or (checkpoint a b : Nat) :
    closer checkpoint a b = a ∨ closer checkpoint a b = b := by
  unfold closer
  split
  · exact Or.inr rfl
  · exact Or.inl rfl

theorem distance_closer_le (checkpoint a b : Nat) :
    distance checkpoint (closer checkpoint a b) ≤ distance checkpoint a ∧
      distance checkpoint (closer checkpoint a b) ≤ distance checkpoint b := by
  unfold closer
  split <;> omega

/-- The candidate of block `k`: the offset of `n` from `isn`, `k` blocks of `2 ^ 32` up. -/
def candidate (n isn : WrappingInt32) (k : Nat) : Nat :=
  k * 2 ^ 32 + (n.rawValue - isn.rawValue).toNat

/-- The result is the closest of three candidates: those in the block of the checkpoint,
in the one above and in the one below, where the last two may wrap around. -/
theorem unwrap_eq (n isn : WrappingInt32) {checkpoint : Nat} (hc : checkpoint < 2 ^ 64) :
    unwrap n isn checkpoint = closer checkpoint
      (closer checkpoint (candidate n isn (checkpoint / 2 ^ 32))
        (candidate n isn ((checkpoint / 2 ^ 32 + 1) % 2 ^ 32)))
      (candidate n isn ((checkpoint / 2 ^ 32 + (2 ^ 32 - 1)) % 2 ^ 32)) := by
  have hcand : ∀ x < 2 ^ 64, (x &&& (2 ^ 32 - 1) <<< 32) |||
      (n.rawValue - isn.rawValue).toNat = candidate n isn (x / 2 ^ 32) :=
    fun x hx => high_or_low hx (n.rawValue - isn.rawValue).toNat_lt
  have habove : word 64 (checkpoint + 2 ^ 32) / 2 ^ 32 = (checkpoint / 2 ^ 32 + 1) % 2 ^ 32 := by
    unfold word
    omega
  have hbelow : wordSub 64 checkpoint (2 ^ 32) / 2 ^ 32 =
      (checkpoint / 2 ^ 32 + (2 ^ 32 - 1)) % 2 ^ 32 := by
    unfold wordSub
    omega
  rw [← habove, ← hbelow, ← hcand _ hc, ← hcand _ (word_lt 64 _), ← hcand _ (wordSub_lt 64 _ _)]
  rfl

theorem candidate_lt (n isn : WrappingInt32) {k : Nat} (hk : k < 2 ^ 32) :
    candidate n isn k < 2 ^ 64 := by
  have hd := (n.rawValue - isn.rawValue).toNat_lt
  unfold candidate
  omega

theorem wrap_candidate (n isn : WrappingInt32) (k : Nat) : wrap (candidate n isn k) isn = n := by
  have hoffset := wrap_toNat_sub n isn
  rw [← hoffset, wrap_eq_wrap_iff, hoffset, candidate]
  omega

/-- The result is a candidate that is a 64-bit number. -/
theorem unwrap_eq_candidate (n isn : WrappingInt32) {checkpoint : Nat}
    (hc : checkpoint < 2 ^ 64) :
    ∃ k < 2 ^ 32, unwrap n isn checkpoint = candidate n isn k := by
  rw [unwrap_eq n isn hc]
  rcases closer_eq_or checkpoint (closer checkpoint (candidate n isn (checkpoint / 2 ^ 32))
      (candidate n isn ((checkpoint / 2 ^ 32 + 1) % 2 ^ 32)))
    (candidate n isn ((checkpoint / 2 ^ 32 + (2 ^ 32 - 1)) % 2 ^ 32)) with hfirst | hbelow
  · rw [hfirst]
    rcases closer_eq_or checkpoint (candidate n isn (checkpoint / 2 ^ 32))
      (candidate n isn ((checkpoint / 2 ^ 32 + 1) % 2 ^ 32)) with hsame | habove
    · exact ⟨_, by omega, hsame⟩
    · exact ⟨_, Nat.mod_lt _ (by decide), habove⟩
  · exact ⟨_, Nat.mod_lt _ (by decide), hbelow⟩

theorem unwrap_lt (n isn : WrappingInt32) {checkpoint : Nat} (hc : checkpoint < 2 ^ 64) :
    unwrap n isn checkpoint < 2 ^ 64 := by
  obtain ⟨k, hk, heq⟩ := unwrap_eq_candidate n isn hc
  rw [heq]
  exact candidate_lt n isn hk

/-- What `unwrap` returns wraps to the number it was given. -/
theorem wrap_unwrap (n isn : WrappingInt32) {checkpoint : Nat} (hc : checkpoint < 2 ^ 64) :
    wrap (unwrap n isn checkpoint) isn = n := by
  obtain ⟨k, -, heq⟩ := unwrap_eq_candidate n isn hc
  rw [heq, wrap_candidate]

/-- Every position that wraps to `n` is the candidate of its own block. -/
theorem eq_candidate_of_wrap {n isn : WrappingInt32} {a : Nat} (h : wrap a isn = n) :
    a = candidate n isn (a / 2 ^ 32) := by
  have hsame : wrap a isn = wrap (candidate n isn (a / 2 ^ 32)) isn := by
    rw [h, wrap_candidate]
  have hd := (n.rawValue - isn.rawValue).toNat_lt
  rw [wrap_eq_wrap_iff, candidate] at hsame
  unfold candidate
  omega

/-- No 64-bit position that wraps to `n` is closer to the checkpoint than the result. -/
theorem distance_unwrap_le {n isn : WrappingInt32} {checkpoint a : Nat}
    (hc : checkpoint < 2 ^ 64) (ha : a < 2 ^ 64) (hwrap : wrap a isn = n) :
    distance checkpoint (unwrap n isn checkpoint) ≤ distance checkpoint a := by
  have hcand := eq_candidate_of_wrap hwrap
  have hd := (n.rawValue - isn.rawValue).toNat_lt
  obtain ⟨hfirst, hbelow⟩ := distance_closer_le checkpoint
    (closer checkpoint (candidate n isn (checkpoint / 2 ^ 32))
      (candidate n isn ((checkpoint / 2 ^ 32 + 1) % 2 ^ 32)))
    (candidate n isn ((checkpoint / 2 ^ 32 + (2 ^ 32 - 1)) % 2 ^ 32))
  obtain ⟨hsame, habove⟩ := distance_closer_le checkpoint
    (candidate n isn (checkpoint / 2 ^ 32)) (candidate n isn ((checkpoint / 2 ^ 32 + 1) % 2 ^ 32))
  rw [unwrap_eq n isn hc]
  -- The block of `a` is one of the three, or `a` is more than a block away.
  by_cases hup : a / 2 ^ 32 = checkpoint / 2 ^ 32 + 1
  · have hblock : (checkpoint / 2 ^ 32 + 1) % 2 ^ 32 = a / 2 ^ 32 := by omega
    rw [hblock, ← hcand] at habove
    exact (hfirst.trans (by rw [hblock, ← hcand])).trans habove
  by_cases hdown : a / 2 ^ 32 + 1 = checkpoint / 2 ^ 32
  · have hblock : (checkpoint / 2 ^ 32 + (2 ^ 32 - 1)) % 2 ^ 32 = a / 2 ^ 32 := by omega
    rw [hblock, ← hcand] at hbelow
    rw [hblock, ← hcand]
    exact hbelow
  · refine (hfirst.trans hsame).trans ?_
    rw [distance_eq, distance_eq]
    unfold candidate at hcand ⊢
    omega

/-- Within half of the 32-bit space around the checkpoint, `unwrap` inverts `wrap`. -/
theorem unwrap_wrap {a checkpoint : Nat} (isn : WrappingInt32) (ha : a < 2 ^ 64)
    (hc : checkpoint < 2 ^ 64) (hlow : a < checkpoint + 2 ^ 31)
    (hhigh : checkpoint < a + 2 ^ 31) : unwrap (wrap a isn) isn checkpoint = a := by
  have hclose := distance_unwrap_le hc ha (n := wrap a isn) rfl
  have hsame := wrap_unwrap (wrap a isn) isn hc
  rw [wrap_eq_wrap_iff] at hsame
  rw [distance_eq, distance_eq] at hclose
  omega

/-- For all 32-bit numbers and every 64-bit checkpoint, `unwrap` returns a 64-bit position
that wraps to the number, and none that does is closer to the checkpoint; so a position
less than `2 ^ 31` away from the checkpoint is recovered from its wrapping. -/
theorem unwrap_closest_preimage (n isn : WrappingInt32) (checkpoint : UInt64) :
    unwrap n isn checkpoint.toNat < 2 ^ 64 ∧
      wrap (unwrap n isn checkpoint.toNat) isn = n ∧
      (∀ r : UInt64, wrap r.toNat isn = n →
        ¬ |(r.toNat : ℤ) - checkpoint.toNat| <
          |(unwrap n isn checkpoint.toNat : ℤ) - checkpoint.toNat|) ∧
      ∀ a : UInt64, |(a.toNat : ℤ) - checkpoint.toNat| < 2 ^ 31 →
        unwrap (wrap a.toNat isn) isn checkpoint.toNat = a.toNat := by
  have hc := checkpoint.toNat_lt
  refine ⟨unwrap_lt n isn hc, wrap_unwrap n isn hc, ?_, ?_⟩
  · intro r hr
    have hclose := distance_unwrap_le hc r.toNat_lt hr
    rw [← natCast_distance, ← natCast_distance, Nat.cast_lt]
    exact Nat.not_lt.mpr hclose
  · intro a ha
    rw [abs_lt] at ha
    exact unwrap_wrap isn a.toNat_lt hc (by omega) (by omega)

end Sponge
