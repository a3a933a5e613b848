import Mathlib

/-!
# Indexed fragments of a sequence

A fragment is a piece of data together with the place of its first element in some
larger sequence.  This file treats lists of fragments: when they do not overlap,
which places they cover, when they agree with one underlying sequence, and what
joining two overlapping fragments does to all of this.

Main results:

- Theorem {lit}`card_coverage`: separated fragments cover as many places as their
  lengths add up to.
- Theorems {lit}`IsExcerpt.join` and {lit}`mem_Ico_join`: joining two overlapping
  excerpts of a sequence gives an excerpt of it that covers both.
- Theorem {lit}`not_straddles_join`: a join does not swallow a place that neither
  of its parts has in its inside.
- Theorem {lit}`IsExcerpt.take_append`: an excerpt that starts where a known start
  of the sequence ends continues it.
-/

namespace Sponge
namespace Library

variable {α : Type}

/-- A piece of a sequence: the index of its first element and its elements. -/
@[ext]
structure Fragment (α : Type) where
  first : Nat
  second : List α
deriving DecidableEq, Repr

namespace Fragment

/-- The index behind the last element. -/
def stop (e : Fragment α) : Nat :=
  e.first + e.second.length

theorem first_le_stop (e : Fragment α) : e.first ≤ e.stop :=
  Nat.le_add_right _ _

/-- The place `c` lies strictly inside the fragment, so that it would cut it in two. -/
def Straddles (e : Fragment α) (c : Nat) : Prop :=
  e.first < c ∧ c < e.stop

instance (e : Fragment α) (c : Nat) : Decidable (e.Straddles c) :=
  inferInstanceAs (Decidable (_ ∧ _))

/-- The elements `S[i], ..., S[i + len - 1]` of a sequence as a fragment. -/
def ofSlice (S : List α) (i len : Nat) : Fragment α where
  first := i
  second := (S.drop i).take len

/-- Continue `a` by the part of `b` that lies behind it. -/
def join (a b : Fragment α) : Fragment α where
  first := a.first
  second := a.second ++ b.second.drop (a.stop - b.first)

@[simp]
theorem first_join (a b : Fragment α) : (a.join b).first = a.first :=
  rfl

/-- Two fragments that overlap, the second reaching further, join to their union. -/
theorem stop_join {a b : Fragment α} (hle : b.first ≤ a.stop) (hlt : a.stop ≤ b.stop) :
    (a.join b).stop = b.stop := by
  simp only [stop, join, List.length_append, List.length_drop] at *
  omega

/-- The bytes of a join, with those that overlap counted twice. -/
theorem length_join {a b : Fragment α} (hle : b.first ≤ a.stop) (hlt : a.stop ≤ b.stop) :
    (a.join b).second.length + (a.stop - b.first) = a.second.length + b.second.length := by
  simp only [stop, join, List.length_append, List.length_drop] at *
  omega

/-- A place inside the join is inside one of the parts, unless it is where they meet. -/
theorem not_straddles_join {a b : Fragment α} {c : Nat} (hlt : b.first < a.stop)
    (hab : a.stop ≤ b.stop) (ha : ¬ a.Straddles c) (hb : ¬ b.Straddles c) :
    ¬ (a.join b).Straddles c := by
  intro hc
  rw [Straddles, stop_join hlt.le hab, first_join] at hc
  have hca : a.stop ≤ c := by
    by_contra hca
    exact ha ⟨hc.1, by omega⟩
  exact hb ⟨by omega, hc.2⟩

/-- The part of a fragment between `lo` and `hi`. -/
def clip (e : Fragment α) (lo hi : Nat) : Fragment α where
  first := max e.first lo
  second := (e.second.drop (max e.first lo - e.first)).take (min hi e.stop - max e.first lo)

variable {e : Fragment α} {lo hi c : Nat}

@[simp]
theorem first_clip : (e.clip lo hi).first = max e.first lo :=
  rfl

/-- A fragment that reaches into the interval is clipped to their intersection. -/
theorem length_clip (hlo : lo < e.stop) :
    (e.clip lo hi).second.length = min hi e.stop - max e.first lo := by
  simp only [stop, clip, List.length_take, List.length_drop] at *
  omega

/-- A clipped fragment ends at the window or at its own end. -/
theorem stop_clip (hlo : lo < e.stop) (hhi : e.first < hi) (hle : lo ≤ hi) :
    (e.clip lo hi).stop = min hi e.stop := by
  have := e.first_le_stop
  rw [stop, length_clip hlo, first_clip]
  omega

/-- A clipped fragment covers what it covered inside the window. -/
theorem Ico_clip (hlo : lo < e.stop) (hhi : e.first < hi) (hle : lo ≤ hi) :
    Finset.Ico (e.clip lo hi).first (e.clip lo hi).stop =
      Finset.Ico e.first e.stop ∩ Finset.Ico lo hi := by
  rw [stop_clip hlo hhi hle, first_clip]
  ext j
  simp only [Finset.mem_inter, Finset.mem_Ico]
  omega

/-- A place that a clipped fragment straddles is straddled by the fragment. -/
theorem Straddles.of_clip (hlo : lo < e.stop) (hhi : e.first < hi) (hle : lo ≤ hi)
    (h : (e.clip lo hi).Straddles c) : e.Straddles c := by
  rw [Straddles, stop_clip hlo hhi hle, first_clip] at h
  exact ⟨by omega, by omega⟩

end Fragment

/-! ## Lists of fragments that do not overlap -/

/-- Every fragment ends before the later ones start. -/
def Separated (l : List (Fragment α)) : Prop :=
  l.Pairwise fun a b => a.stop ≤ b.first

theorem separated_nil : Separated ([] : List (Fragment α)) :=
  List.Pairwise.nil

/-- The first fragment ends before the others begin. -/
theorem separated_cons {e : Fragment α} {l : List (Fragment α)} :
    Separated (e :: l) ↔ (∀ b ∈ l, e.stop ≤ b.first) ∧ Separated l :=
  List.pairwise_cons

/-- Two separated lists, the first of which ends before the second one begins. -/
theorem separated_append {l m : List (Fragment α)} :
    Separated (l ++ m) ↔
      Separated l ∧ Separated m ∧ ∀ a ∈ l, ∀ b ∈ m, a.stop ≤ b.first :=
  List.pairwise_append

/-- The number of elements held by a list of fragments. -/
def totalLength (l : List (Fragment α)) : Nat :=
  (l.map fun e => e.second.length).sum

@[simp]
theorem totalLength_nil : totalLength ([] : List (Fragment α)) = 0 :=
  rfl

/-- The bytes of the first fragment and of the others. -/
@[simp]
theorem totalLength_cons (e : Fragment α) (l : List (Fragment α)) :
    totalLength (e :: l) = e.second.length + totalLength l := by
  simp [totalLength]

/-- The bytes of both lists. -/
@[simp]
theorem totalLength_append (l m : List (Fragment α)) :
    totalLength (l ++ m) = totalLength l + totalLength m := by
  simp [totalLength]

/-- The places that some fragment of the list covers. -/
def coverage : List (Fragment α) → Finset Nat
  | [] => ∅
  | e :: es => Finset.Ico e.first e.stop ∪ coverage es

@[simp]
theorem coverage_nil : coverage ([] : List (Fragment α)) = ∅ :=
  rfl

/-- The indices of the first fragment and of the others. -/
@[simp]
theorem coverage_cons (e : Fragment α) (l : List (Fragment α)) :
    coverage (e :: l) = Finset.Ico e.first e.stop ∪ coverage l :=
  rfl

/-- The indices of both lists. -/
@[simp]
theorem coverage_append (l m : List (Fragment α)) :
    coverage (l ++ m) = coverage l ∪ coverage m := by
  induction l with
  | nil => simp
  | cons e es ih => simp [ih, Finset.union_assoc]

/-- A covered index lies in a fragment. -/
theorem mem_coverage {l : List (Fragment α)} {j : Nat} :
    j ∈ coverage l ↔ ∃ e ∈ l, e.first ≤ j ∧ j < e.stop := by
  induction l with
  | nil => simp
  | cons e es ih => simp [ih]

/-- A list that starts no earlier than `n` covers nothing below `n`. -/
theorem not_mem_coverage_of_lt {l : List (Fragment α)} {n j : Nat}
    (hl : ∀ e ∈ l, n ≤ e.first) (hj : j < n) : j ∉ coverage l := by
  rw [mem_coverage]
  rintro ⟨e, he, hfirst, -⟩
  have := hl e he
  omega

/-- Separated fragments cover as many places as their lengths add up to. -/
theorem card_coverage {l : List (Fragment α)} (hl : Separated l) :
    (coverage l).card = totalLength l := by
  induction l with
  | nil => simp
  | cons e es ih =>
      rw [separated_cons] at hl
      have hdisjoint : Disjoint (Finset.Ico e.first e.stop) (coverage es) := by
        rw [Finset.disjoint_left]
        intro j hj
        exact not_mem_coverage_of_lt hl.1 (Finset.mem_Ico.mp hj).2
      rw [coverage_cons, Finset.card_union_of_disjoint hdisjoint, ih hl.2, Nat.card_Ico,
        totalLength_cons, Fragment.stop, Nat.add_sub_cancel_left]

/-! ## Fragments of one sequence -/

/-- The fragment is a piece of `S` at its true place.  An empty fragment is one
anywhere. -/
structure IsExcerpt (S : List α) (e : Fragment α) : Prop where
  get_eq : ∀ k, k < e.second.length → e.second[k]? = S[e.first + k]?

/-- The empty fragment is an excerpt. -/
theorem isExcerpt_nil (S : List α) (i : Nat) : IsExcerpt S ⟨i, []⟩ :=
  ⟨by simp⟩

/-- The bytes of an excerpt lie inside the sequence. -/
theorem IsExcerpt.lt_length {S : List α} {e : Fragment α} (h : IsExcerpt S e) {k : Nat}
    (hk : k < e.second.length) : e.first + k < S.length := by
  by_contra hout
  have hget := h.get_eq k hk
  rw [List.getElem?_eq_getElem hk, List.getElem?_eq_none (by omega)] at hget
  cases hget

/-- An excerpt that is not empty ends within the stream. -/
theorem IsExcerpt.stop_le {S : List α} {e : Fragment α} (h : IsExcerpt S e)
    (hne : e.second ≠ []) : e.stop ≤ S.length := by
  have hpos := List.length_pos_of_ne_nil hne
  have := h.lt_length (k := e.second.length - 1) (by omega)
  rw [Fragment.stop]
  omega

/-- A slice of `S` is an excerpt of it. -/
theorem isExcerpt_ofSlice (S : List α) (i len : Nat) :
    IsExcerpt S (Fragment.ofSlice S i len) where
  get_eq := by
    intro k hk
    simp only [Fragment.ofSlice, List.length_take, List.length_drop] at hk
    rw [Fragment.ofSlice, List.getElem?_take_of_lt (by omega), List.getElem?_drop]

/-- An excerpt stays one when the sequence grows at its end. -/
theorem IsExcerpt.append {S : List α} {e : Fragment α} (h : IsExcerpt S e) (T : List α) :
    IsExcerpt (S ++ T) e where
  get_eq := by
    intro k hk
    rw [List.getElem?_append_left (h.lt_length hk), h.get_eq k hk]

/-- A middle part of an excerpt is an excerpt. -/
theorem IsExcerpt.slice {S : List α} {e : Fragment α} (h : IsExcerpt S e) (d n : Nat) :
    IsExcerpt S ⟨e.first + d, (e.second.drop d).take n⟩ where
  get_eq := by
    intro k hk
    simp only [List.length_take, List.length_drop] at hk
    rw [List.getElem?_take_of_lt (by omega), List.getElem?_drop, h.get_eq _ (by omega),
      Nat.add_assoc]

/-- A part of an excerpt is an excerpt. -/
theorem IsExcerpt.clip {S : List α} {e : Fragment α} (h : IsExcerpt S e) (lo hi : Nat) :
    IsExcerpt S (e.clip lo hi) := by
  have hslice := h.slice (max e.first lo - e.first) (min hi e.stop - max e.first lo)
  have hfirst : e.first + (max e.first lo - e.first) = max e.first lo := by omega
  rw [hfirst] at hslice
  exact hslice

/-- Joining two overlapping excerpts gives an excerpt. -/
theorem IsExcerpt.join {S : List α} {a b : Fragment α} (ha : IsExcerpt S a)
    (hb : IsExcerpt S b) (hle : b.first ≤ a.stop) (hlt : a.stop ≤ b.stop) :
    IsExcerpt S (a.join b) where
  get_eq := by
    intro k hk
    have hlen := Fragment.length_join hle hlt
    by_cases hka : k < a.second.length
    · rw [Fragment.join, List.getElem?_append_left hka, ha.get_eq k hka]
    · simp only [Fragment.stop] at hle hlt hlen
      rw [Fragment.join, List.getElem?_append_right (by omega), List.getElem?_drop,
        hb.get_eq _ (by simp only [Fragment.stop]; omega)]
      congr 1
      simp only [Fragment.stop]
      omega

/-- Places covered by a join. -/
theorem mem_Ico_join {a b : Fragment α} (hle : b.first ≤ a.stop) (hlt : a.stop ≤ b.stop)
    (hfirst : a.first ≤ b.first) :
    Finset.Ico (a.join b).first (a.join b).stop =
      Finset.Ico a.first a.stop ∪ Finset.Ico b.first b.stop := by
  ext j
  simp only [Fragment.first_join, Fragment.stop_join hle hlt, Finset.mem_union,
    Finset.mem_Ico]
  omega

/-- An excerpt that starts where a start of the sequence ends continues it. -/
theorem IsExcerpt.take_append {S : List α} {e : Fragment α} (h : IsExcerpt S e) :
    S.take e.first ++ e.second = S.take e.stop := by
  by_cases hnil : e.second = []
  · rw [hnil, List.append_nil, Fragment.stop, hnil, List.length_nil, Nat.add_zero]
  have hstop := h.stop_le hnil
  simp only [Fragment.stop] at hstop
  apply List.ext_getElem?
  intro k
  by_cases hk : k < e.first
  · rw [List.getElem?_append_left (by simp; omega), List.getElem?_take_of_lt hk,
      List.getElem?_take_of_lt (by simp only [Fragment.stop]; omega)]
  · have hlen : (S.take e.first).length = e.first := by simp; omega
    rw [List.getElem?_append_right (by omega), hlen]
    by_cases hke : k - e.first < e.second.length
    · rw [h.get_eq _ hke, List.getElem?_take_of_lt (by simp only [Fragment.stop]; omega)]
      congr 1
      omega
    · rw [List.getElem?_eq_none (by omega), List.getElem?_eq_none]
      simp only [List.length_take, Fragment.stop]
      omega

end Library
end Sponge
