import Mathlib

/-!
# One's-complement sums

A sum of words of `w` bits in one's-complement arithmetic is the plain sum whose carries
are added back at the low end until none is left.  What remains is the residue of the
sum modulo `2 ^ w - 1`, where a positive multiple of the modulus is represented by the
modulus itself.

Main results:

- Theorem {lit}`residue_endAround`: adding the carry back does not change the residue.
- Theorem {lit}`onesSum_eq_residue`: it does not matter whether the carries are added back at
  every word or at the end.
- Theorem {lit}`residue_add_complement`: a sum with the complement of its residue added is
  all ones.
- Theorem {lit}`wordSum_append`: the sum of the words of a string, piece by piece.
- Theorem {lit}`not_verifies_of_exchange`: a string that verifies does not survive the change
  of one word, except between the two representations of zero.
-/

namespace Sponge
namespace Library

/-- The carries of a sum are added back at its low end. -/
def endAround (w n : Nat) : Nat :=
  n / 2 ^ w + n % 2 ^ w

/-- The word of `w` bits that a sum amounts to. -/
def residue (w n : Nat) : Nat :=
  if n = 0 then 0 else (n - 1) % (2 ^ w - 1) + 1

variable {w n m : Nat}

/-- The residue does not see multiples of the modulus in front of a positive sum. -/
theorem residue_add_mul (hn : 0 < n) (k : Nat) :
    residue w (n + k * (2 ^ w - 1)) = residue w n := by
  rw [residue, residue, if_neg (by omega), if_neg (by omega),
    show n + k * (2 ^ w - 1) - 1 = n - 1 + k * (2 ^ w - 1) by omega, Nat.add_mul_mod_self_right]

/-- Adding the carry of a part of a sum back does not change the residue. -/
theorem residue_endAround_add (w n m : Nat) :
    residue w (endAround w n + m) = residue w (n + m) := by
  have hpos : 0 < 2 ^ w := Nat.two_pow_pos w
  have hsplit : n = endAround w n + n / 2 ^ w * (2 ^ w - 1) := by
    have hdiv := Nat.div_add_mod n (2 ^ w)
    rw [endAround, Nat.mul_sub_one, Nat.mul_comm]
    have hle : n / 2 ^ w ≤ 2 ^ w * (n / 2 ^ w) := Nat.le_mul_of_pos_left _ hpos
    omega
  rcases Nat.eq_zero_or_pos (endAround w n + m) with hzero | hpos'
  · have hdiv : n / 2 ^ w = 0 := (Nat.add_eq_zero_iff.mp (Nat.add_eq_zero_iff.mp hzero).1).1
    rw [hdiv, Nat.zero_mul, Nat.add_zero] at hsplit
    rw [← hsplit]
  · have hsum : n + m = endAround w n + m + n / 2 ^ w * (2 ^ w - 1) := by omega
    rw [hsum, residue_add_mul hpos']

/-- Adding the carry back does not change the residue. -/
theorem residue_endAround (w n : Nat) : residue w (endAround w n) = residue w n :=
  residue_endAround_add w n 0

/-- A word is its own residue. -/
theorem residue_eq_self (h : n < 2 ^ w) : residue w n = n := by
  rw [residue]
  split
  · omega
  · rw [Nat.mod_eq_of_lt (by omega)]
    omega

/-- A sum with the complement of its residue added is all ones. -/
theorem residue_add_complement (hw : 0 < w) (n : Nat) :
    residue w (n + (2 ^ w - 1 - residue w n)) = 2 ^ w - 1 := by
  have htwo : 2 ≤ 2 ^ w := Nat.le_pow hw
  rcases Nat.eq_zero_or_pos n with rfl | hn
  · have hzero : residue w 0 = 0 := if_pos rfl
    rw [hzero, Nat.zero_add, Nat.sub_zero, residue_eq_self (by omega)]
  · have hres : residue w n = (n - 1) % (2 ^ w - 1) + 1 := by rw [residue, if_neg (by omega)]
    have hlt := Nat.mod_lt (n - 1) (show 0 < 2 ^ w - 1 by omega)
    have hdiv := Nat.div_add_mod (n - 1) (2 ^ w - 1)
    have hsum : n + (2 ^ w - 1 - residue w n) =
        (2 ^ w - 1) + (n - 1) / (2 ^ w - 1) * (2 ^ w - 1) := by
      rw [hres, Nat.mul_comm ((n - 1) / _)]
      omega
    rw [hsum, residue_add_mul (by omega), residue_eq_self (by omega)]

/-- A residue is a word. -/
theorem residue_lt (hw : 0 < w) (n : Nat) : residue w n < 2 ^ w := by
  have htwo : 2 ≤ 2 ^ w := Nat.le_pow hw
  have hlt := Nat.mod_lt (n - 1) (show 0 < 2 ^ w - 1 by omega)
  unfold residue
  split <;> omega

/-- A sum is all ones if it is a positive multiple of the modulus. -/
theorem residue_eq_ones_iff (hw : 0 < w) :
    residue w n = 2 ^ w - 1 ↔ 0 < n ∧ 2 ^ w - 1 ∣ n := by
  have htwo : 2 ≤ 2 ^ w := Nat.le_pow hw
  rcases Nat.eq_zero_or_pos n with rfl | hn
  · rw [residue, if_pos rfl]
    omega
  · have hlt := Nat.mod_lt (n - 1) (show 0 < 2 ^ w - 1 by omega)
    have hdiv := Nat.div_add_mod (n - 1) (2 ^ w - 1)
    have hone : 2 ^ w - 1 ∣ n ↔ 2 ^ w - 1 ∣ (n - 1) % (2 ^ w - 1) + 1 := by
      have hsplit : n = (2 ^ w - 1) * ((n - 1) / (2 ^ w - 1)) + ((n - 1) % (2 ^ w - 1) + 1) := by
        omega
      conv_lhs => rw [hsplit]
      exact Nat.dvd_add_right (Nat.dvd_mul_right _ _)
    rw [residue, if_neg (by omega), hone]
    constructor
    · intro hres
      rw [hres]
      exact ⟨hn, dvd_rfl⟩
    · rintro ⟨-, hdvd⟩
      have := Nat.le_of_dvd (Nat.succ_pos _) hdvd
      omega

/-- Two words whose exchange leaves a sum all ones are equal, or the two that stand for
zero. -/
theorem eq_or_of_residue_eq_ones {x y : Nat} (hw : 0 < w) (hx : x < 2 ^ w) (hy : y < 2 ^ w)
    (hn : residue w n = 2 ^ w - 1) (hm : residue w m = 2 ^ w - 1) (hsum : m + x = n + y) :
    x = y ∨ x = 0 ∧ y = 2 ^ w - 1 ∨ x = 2 ^ w - 1 ∧ y = 0 := by
  obtain ⟨-, hdvdn⟩ := (residue_eq_ones_iff hw).mp hn
  obtain ⟨-, hdvdm⟩ := (residue_eq_ones_iff hw).mp hm
  rcases Nat.lt_trichotomy x y with hlt | heq | hgt
  · have hdvd : 2 ^ w - 1 ∣ y - x := by
      rw [show y - x = m - n by omega]
      exact Nat.dvd_sub hdvdm hdvdn
    have := Nat.le_of_dvd (by omega) hdvd
    omega
  · exact Or.inl heq
  · have hdvd : 2 ^ w - 1 ∣ x - y := by
      rw [show x - y = n - m by omega]
      exact Nat.dvd_sub hdvdn hdvdm
    have := Nat.le_of_dvd (by omega) hdvd
    omega

/-! ## Sums word by word -/

/-- The one's-complement sum of two words: the carry is added back at once. -/
def onesAdd (w a b : Nat) : Nat :=
  endAround w (a + b)

/-- The one's-complement sum of a list of words. -/
def onesSum (w : Nat) (words : List Nat) : Nat :=
  words.foldl (onesAdd w) 0

/-- The sum of two words is a word. -/
theorem onesAdd_lt {a b : Nat} (ha : a < 2 ^ w) (hb : b < 2 ^ w) : onesAdd w a b < 2 ^ w := by
  have hdiv := Nat.div_add_mod (a + b) (2 ^ w)
  have hmod := Nat.mod_lt (a + b) (Nat.two_pow_pos w)
  have hcarry : (a + b) / 2 ^ w < 2 := by
    rw [Nat.div_lt_iff_lt_mul (Nat.two_pow_pos w)]
    omega
  rw [onesAdd, endAround]
  rcases Nat.le_one_iff_eq_zero_or_eq_one.mp (Nat.le_of_lt_succ hcarry) with hzero | hone
  · rw [hzero, Nat.zero_add]
    exact hmod
  · rw [hone] at hdiv ⊢
    omega

/-- Adding the carries back at every word is the same as adding them back at the end. -/
theorem foldl_onesAdd {words : List Nat} (hwords : ∀ word ∈ words, word < 2 ^ w) {acc : Nat}
    (hacc : acc < 2 ^ w) : words.foldl (onesAdd w) acc = residue w (acc + words.sum) := by
  induction words generalizing acc with
  | nil => exact (residue_eq_self hacc).symm
  | cons word words ih =>
      have hlt := onesAdd_lt hacc (hwords word List.mem_cons_self)
      rw [List.foldl_cons, ih (fun x hx => hwords x (List.mem_cons_of_mem word hx)) hlt,
        List.sum_cons, onesAdd, residue_endAround_add, Nat.add_assoc]

/-- The end-around-carry sum is the residue of the sum. -/
theorem onesSum_eq_residue {words : List Nat} (hwords : ∀ word ∈ words, word < 2 ^ w) :
    onesSum w words = residue w words.sum := by
  rw [onesSum, foldl_onesAdd hwords (Nat.two_pow_pos w), Nat.zero_add]

/-! ## Words of a string -/

/-- The sum of the 16-bit words of a string, in network byte order and with a zero
behind a last odd byte; `odd` says that the string starts in the middle of a word. -/
def wordSum : Bool → List UInt8 → Nat
  | _, [] => 0
  | odd, byte :: bytes => (if odd then byte.toNat else byte.toNat * 256) + wordSum (!odd) bytes

@[simp]
theorem wordSum_nil (odd : Bool) : wordSum odd [] = 0 :=
  rfl

/-- A byte counts as an upper or a lower half. -/
@[simp]
theorem wordSum_cons (odd : Bool) (byte : UInt8) (bytes : List UInt8) :
    wordSum odd (byte :: bytes) =
      (if odd then byte.toNat else byte.toNat * 256) + wordSum (!odd) bytes :=
  rfl

/-- The sum of the words of a string, piece by piece. -/
theorem wordSum_append (odd : Bool) (xs ys : List UInt8) :
    wordSum odd (xs ++ ys) = wordSum odd xs + wordSum (odd ^^ xs.length.bodd) ys := by
  induction xs generalizing odd with
  | nil => simp
  | cons x xs ih =>
      rw [List.cons_append, wordSum_cons, wordSum_cons, ih, List.length_cons, Nat.bodd_succ,
        Nat.add_assoc]
      cases odd <;> simp

/-- The 16-bit words of a string, in network byte order and with a zero behind a last odd
byte. -/
def words : List UInt8 → List Nat
  | [] => []
  | [x] => [x.toNat * 256]
  | x :: y :: rest => (x.toNat * 256 + y.toNat) :: words rest

/-- The sum of the words of a string, byte by byte. -/
theorem sum_words (bytes : List UInt8) : (words bytes).sum = wordSum false bytes := by
  fun_induction words bytes with
  | case1 => rfl
  | case2 x => simp
  | case3 x y rest ih => simp [ih, Nat.add_assoc]

/-- The words of a string are words. -/
theorem words_lt {bytes : List UInt8} {word : Nat} (h : word ∈ words bytes) : word < 2 ^ 16 := by
  fun_induction words bytes with
  | case1 => exact absurd h List.not_mem_nil
  | case2 x =>
      have hx := x.toNat_lt
      rw [List.mem_singleton] at h
      omega
  | case3 x y rest ih =>
      have hx := x.toNat_lt
      have hy := y.toNat_lt
      rcases List.mem_cons.mp h with rfl | hrest
      · omega
      · exact ih hrest

/-- The word with number `i` of a string, with a zero behind a last odd byte. -/
def wordAt (bytes : List UInt8) (i : Nat) : Nat :=
  (bytes.getD (2 * i) 0).toNat * 256 + (bytes.getD (2 * i + 1) 0).toNat

/-- A word at a place is a word. -/
theorem wordAt_lt (bytes : List UInt8) (i : Nat) : wordAt bytes i < 2 ^ 16 := by
  have hhigh := (bytes.getD (2 * i) 0).toNat_lt
  have hlow := (bytes.getD (2 * i + 1) 0).toNat_lt
  unfold wordAt
  omega

/-- The first word and the others. -/
theorem wordSum_eq_wordAt_zero (bytes : List UInt8) :
    wordSum false bytes = wordAt bytes 0 + wordSum false (bytes.drop 2) := by
  match bytes with
  | [] => simp [wordAt]
  | [x] => simp [wordAt]
  | x :: y :: rest => simp [wordAt, Nat.add_assoc]

/-- The words in front of word `i`, that word, and those behind it. -/
theorem wordSum_eq_wordAt (bytes : List UInt8) (i : Nat) (h : 2 * i ≤ bytes.length) :
    wordSum false bytes = wordSum false (bytes.take (2 * i)) + wordAt bytes i +
      wordSum false (bytes.drop (2 * i + 2)) := by
  have hfirst : wordAt (bytes.drop (2 * i)) 0 = wordAt bytes i := by
    simp [wordAt, List.getD_eq_getElem?_getD]
  have hlength : (bytes.take (2 * i)).length.bodd = false := by
    rw [List.length_take, Nat.min_eq_left h, Nat.bodd_mul]
    rfl
  conv_lhs => rw [← List.take_append_drop (2 * i) bytes]
  rw [wordSum_append, hlength, Bool.false_xor, wordSum_eq_wordAt_zero (bytes.drop (2 * i)), hfirst,
    List.drop_drop, Nat.add_assoc]

/-- Two strings that differ in one word only have sums that differ by the words. -/
theorem wordSum_exchange {xs ys : List UInt8} (i : Nat) (hlen : xs.length = ys.length)
    (hsame : ∀ j, j / 2 ≠ i → xs[j]? = ys[j]?) :
    wordSum false ys + wordAt xs i = wordSum false xs + wordAt ys i := by
  rcases Nat.lt_or_ge xs.length (2 * i) with hout | hin
  · have heq : xs = ys := by
      apply List.ext_getElem?
      intro j
      by_cases hj : j < xs.length
      · exact hsame j (by omega)
      · rw [List.getElem?_eq_none (by omega), List.getElem?_eq_none (by omega)]
    rw [heq]
  · have htake : xs.take (2 * i) = ys.take (2 * i) := by
      apply List.ext_getElem?
      intro j
      rw [List.getElem?_take, List.getElem?_take]
      split
      · exact hsame j (by omega)
      · rfl
    have hdrop : xs.drop (2 * i + 2) = ys.drop (2 * i + 2) := by
      apply List.ext_getElem?
      intro j
      rw [List.getElem?_drop, List.getElem?_drop]
      exact hsame _ (by omega)
    rw [wordSum_eq_wordAt xs i hin, wordSum_eq_wordAt ys i (by omega), htake, hdrop]
    omega

/-- Two strings that differ in one word at most and agree in that word are equal. -/
theorem eq_of_wordAt_eq {xs ys : List UInt8} {i : Nat} (hlen : xs.length = ys.length)
    (hsame : ∀ j, j / 2 ≠ i → xs[j]? = ys[j]?) (hword : wordAt xs i = wordAt ys i) : xs = ys := by
  have hbytes : ∀ j, j / 2 = i → xs.getD j 0 = ys.getD j 0 := by
    intro j hj
    have hxs := (xs.getD (2 * i + 1) 0).toNat_lt
    have hys := (ys.getD (2 * i + 1) 0).toNat_lt
    unfold wordAt at hword
    apply UInt8.toNat_inj.mp
    rcases (show j = 2 * i ∨ j = 2 * i + 1 by omega) with rfl | rfl <;> omega
  apply List.ext_getElem hlen
  intro j hxs hys
  by_cases hj : j / 2 = i
  · have hbyte := hbytes j hj
    rwa [List.getD_eq_getElem xs 0 hxs, List.getD_eq_getElem ys 0 hys] at hbyte
  · have hbyte := hsame j hj
    rwa [List.getElem?_eq_getElem hxs, List.getElem?_eq_getElem hys, Option.some.injEq] at hbyte

/-- A string verifies if the one's-complement sum of its words and an initial sum is all
ones. -/
def Verifies (initial : Nat) (bytes : List UInt8) : Prop :=
  residue 16 (initial + wordSum false bytes) = 2 ^ 16 - 1

instance (initial : Nat) (bytes : List UInt8) : Decidable (Verifies initial bytes) :=
  inferInstanceAs (Decidable (_ = _))

/-- A string that verifies does not verify any more when one of its words is changed,
except between the two representations of zero. -/
theorem not_verifies_of_exchange {initial i : Nat} {xs ys : List UInt8}
    (h : Verifies initial xs) (hlen : xs.length = ys.length)
    (hsame : ∀ j, j / 2 ≠ i → xs[j]? = ys[j]?) (hne : xs ≠ ys)
    (hzero : ¬ (wordAt xs i = 0 ∧ wordAt ys i = 2 ^ 16 - 1))
    (hones : ¬ (wordAt xs i = 2 ^ 16 - 1 ∧ wordAt ys i = 0)) : ¬ Verifies initial ys := by
  intro hys
  have hsum := wordSum_exchange i hlen hsame
  rcases eq_or_of_residue_eq_ones (by decide) (wordAt_lt xs i) (wordAt_lt ys i) h hys
    (by omega) with heq | hexchange | hexchange
  · exact hne (eq_of_wordAt_eq hlen hsame heq)
  · exact hzero hexchange
  · exact hones hexchange

/-- A string that verifies does not verify any more when one of its bytes is changed. -/
theorem not_verifies_set {initial j : Nat} {xs : List UInt8} {x : UInt8}
    (h : Verifies initial xs) (hj : j < xs.length) (hne : xs.getD j 0 ≠ x) :
    ¬ Verifies initial (xs.set j x) := by
  have hother : ∀ k, k ≠ j → (xs.set j x).getD k 0 = xs.getD k 0 := by
    intro k hk
    rw [List.getD_eq_getElem?_getD, List.getD_eq_getElem?_getD, List.getElem?_set_ne hk.symm]
  -- An exchange of the two zeros would change both bytes of the word.
  have hbyte : (xs.set j x).getD (2 * (j / 2)) 0 = xs.getD (2 * (j / 2)) 0 ∨
      (xs.set j x).getD (2 * (j / 2) + 1) 0 = xs.getD (2 * (j / 2) + 1) 0 := by
    rcases (show j = 2 * (j / 2) ∨ j = 2 * (j / 2) + 1 by omega) with heq | heq
    · exact Or.inr (hother _ (by omega))
    · exact Or.inl (hother _ (by omega))
  have hhigh := (xs.getD (2 * (j / 2)) 0).toNat_lt
  have hlow := (xs.getD (2 * (j / 2) + 1) 0).toNat_lt
  have hhigh' := ((xs.set j x).getD (2 * (j / 2)) 0).toNat_lt
  have hlow' := ((xs.set j x).getD (2 * (j / 2) + 1) 0).toNat_lt
  refine not_verifies_of_exchange (i := j / 2) h (List.length_set).symm ?_ ?_ ?_ ?_
  · intro k hk
    rw [List.getElem?_set_ne (by omega)]
  · intro heq
    apply hne
    rw [List.getD_eq_getElem xs 0 hj]
    have hx : xs[j]? = (xs.set j x)[j]? := congrArg (fun l => l[j]?) heq
    rw [List.getElem?_set_self hj, List.getElem?_eq_getElem hj, Option.some.injEq] at hx
    exact hx
  · rintro ⟨hzero, hones⟩
    unfold wordAt at hzero hones
    rcases hbyte with heq | heq <;> rw [heq] at hones <;> omega
  · rintro ⟨hones, hzero⟩
    unfold wordAt at hzero hones
    rcases hbyte with heq | heq <;> rw [heq] at hzero <;> omega

/-- A string of bytes has a bounded sum. -/
theorem wordSum_le (odd : Bool) (bytes : List UInt8) :
    wordSum odd bytes ≤ bytes.length * 65280 := by
  induction bytes generalizing odd with
  | nil => simp
  | cons byte bytes ih =>
      have hbyte := byte.toNat_lt
      have hrest := ih (!odd)
      rw [wordSum_cons, List.length_cons, Nat.add_one_mul]
      split <;> omega

/-- Zeros do not count. -/
theorem wordSum_replicate_zero (odd : Bool) (n : Nat) :
    wordSum odd (List.replicate n 0) = 0 := by
  induction n generalizing odd with
  | zero => rfl
  | succ n ih => simp [List.replicate_succ, ih]

end Library
end Sponge
