import Mathlib

/-!
# Ordered sets as strictly increasing lists

An ordered associative container without duplicates, in the shape of a C++
`std::set`: the elements are kept in increasing order, and the operations are the
ones that walk that order.  The order is a field of the structure, so a set whose
elements are out of order cannot be built.

Main results:

- Theorem {lit}`exists_split`: every element cuts the set into the elements below
  it and the elements that are not.
- Theorems {lit}`lowerBound_of_split` and {lit}`before_of_split`: the two
  neighbours of a cut are read off its two halves.
- Theorems {lit}`toList_erase_of_split` and {lit}`toList_insert_of_split`: erasing
  and inserting change only the place where the cut is.
-/

namespace Sponge
namespace Library

variable {α : Type} [LinearOrder α]

/-- A finite set kept as the strictly increasing list of its elements. -/
@[ext]
structure OrderedSet (α : Type) [LinearOrder α] where
  toList : List α
  sorted : toList.Pairwise (· < ·)

namespace OrderedSet

/-- The set without elements. -/
def empty : OrderedSet α where
  toList := []
  sorted := List.Pairwise.nil

@[simp]
theorem toList_empty : (empty : OrderedSet α).toList = [] :=
  rfl

/-- The first element that is not less than `x`, if there is one. -/
def lowerBound (s : OrderedSet α) (x : α) : Option α :=
  s.toList.find? fun y => decide (x ≤ y)

/-- The last element less than `x`: the one in front of the lower bound. -/
def before (s : OrderedSet α) (x : α) : Option α :=
  (s.toList.takeWhile fun y => decide (y < x)).getLast?

/-- The set without `x`. -/
def erase (s : OrderedSet α) (x : α) : OrderedSet α where
  toList := s.toList.erase x
  sorted := s.sorted.sublist List.erase_sublist

/-- Inserting an element puts it behind everything smaller and in front of
everything larger. -/
theorem pairwise_insert {l : List α} (hl : l.Pairwise (· < ·)) (x : α) :
    ((l.takeWhile fun y => decide (y < x)) ++
      x :: l.dropWhile fun y => decide (y ≤ x)).Pairwise (· < ·) := by
  induction l with
  | nil => simp
  | cons y ys ih =>
      rw [List.pairwise_cons] at hl
      by_cases hyx : y < x
      · have hrest := ih hl.2
        simp only [List.takeWhile_cons, hyx, decide_true, if_true, List.dropWhile_cons,
          hyx.le, List.cons_append, List.pairwise_cons]
        refine ⟨?_, hrest⟩
        intro z hz
        rcases List.mem_append.mp hz with hz | hz
        · exact hl.1 z (List.takeWhile_subset _ hz)
        · rcases List.mem_cons.mp hz with rfl | hz
          · exact hyx
          · exact hl.1 z (List.dropWhile_subset _ hz)
      · simp only [List.takeWhile_cons, hyx, decide_false, Bool.false_eq_true, if_false,
          List.nil_append, List.dropWhile_cons]
        by_cases hle : y ≤ x
        · have heq : y = x := le_antisymm hle (not_lt.mp hyx)
          have hkeep : ys.dropWhile (fun z => decide (z ≤ x)) = ys := by
            cases ys with
            | nil => rfl
            | cons z zs =>
                have hz : ¬ z ≤ x := not_le.mpr (heq ▸ hl.1 z (by simp))
                simp [hz]
          simp only [hle, decide_true, if_true, hkeep, List.pairwise_cons]
          exact ⟨fun z hz => heq ▸ hl.1 z hz, hl.2⟩
        · have hxy : x < y := not_le.mp hle
          simp only [hle, decide_false, Bool.false_eq_true, if_false, List.pairwise_cons]
          refine ⟨?_, hl⟩
          intro z hz
          rcases List.mem_cons.mp hz with rfl | hz
          · exact hxy
          · exact hxy.trans (hl.1 z hz)

/-- The set with `x` added; a set that already holds `x` does not change. -/
def insert (s : OrderedSet α) (x : α) : OrderedSet α where
  toList := (s.toList.takeWhile fun y => decide (y < x)) ++
    x :: s.toList.dropWhile fun y => decide (y ≤ x)
  sorted := pairwise_insert s.sorted x

/-! ## Cutting a set at an element -/

/-- Every element cuts a set into what is below it and what is not. -/
theorem exists_split (s : OrderedSet α) (x : α) :
    ∃ lo hi, s.toList = lo ++ hi ∧ (∀ y ∈ lo, y < x) ∧ ∀ y ∈ hi, x ≤ y := by
  obtain ⟨l, hl⟩ := s
  induction l with
  | nil => exact ⟨[], [], by simp⟩
  | cons y ys ih =>
      rw [List.pairwise_cons] at hl
      by_cases hyx : y < x
      · obtain ⟨lo, hi, heq, hlo, hhi⟩ := ih hl.2
        refine ⟨y :: lo, hi, by simpa using heq, ?_, hhi⟩
        intro z hz
        rcases List.mem_cons.mp hz with rfl | hz
        · exact hyx
        · exact hlo z hz
      · refine ⟨[], y :: ys, rfl, by simp, ?_⟩
        intro z hz
        rcases List.mem_cons.mp hz with rfl | hz
        · exact not_lt.mp hyx
        · exact (not_lt.mp hyx).trans (hl.1 z hz).le

variable {s : OrderedSet α} {x : α} {lo hi : List α}

/-- The lower bound is the first element of the upper half. -/
theorem lowerBound_of_split (hs : s.toList = lo ++ hi) (hlo : ∀ y ∈ lo, y < x)
    (hhi : ∀ y ∈ hi, x ≤ y) : s.lowerBound x = hi.head? := by
  have hnone : lo.find? (fun y => decide (x ≤ y)) = none := by
    rw [List.find?_eq_none]
    intro y hy
    simpa using hlo y hy
  rw [lowerBound, hs, List.find?_append, hnone]
  cases hi with
  | nil => rfl
  | cons y ys => simp [hhi y (by simp)]

/-- The walk over the smaller elements stops exactly at the cut. -/
theorem takeWhile_lt_of_split (hlo : ∀ y ∈ lo, y < x) (hhi : ∀ y ∈ hi, x ≤ y) :
    (lo ++ hi).takeWhile (fun y => decide (y < x)) = lo := by
  rw [List.takeWhile_append_of_pos (by simpa using hlo)]
  cases hi with
  | nil => simp
  | cons y ys => simp [not_lt.mpr (hhi y (by simp))]

/-- The element in front of the lower bound is the last one of the lower half. -/
theorem before_of_split (hs : s.toList = lo ++ hi) (hlo : ∀ y ∈ lo, y < x)
    (hhi : ∀ y ∈ hi, x ≤ y) : s.before x = lo.getLast? := by
  rw [before, hs, takeWhile_lt_of_split hlo hhi]

/-- Erasing the element at a known place removes it there. -/
theorem toList_erase_of_split (hs : s.toList = lo ++ x :: hi) :
    (s.erase x).toList = lo ++ hi := by
  have hnot : x ∉ lo := by
    intro hx
    have hsorted := s.sorted
    rw [hs, List.pairwise_append] at hsorted
    exact lt_irrefl x (hsorted.2.2 x hx x (by simp))
  change s.toList.erase x = lo ++ hi
  rw [hs, List.erase_append_right _ hnot, List.erase_cons_head]

/-- Erasing the first element leaves the rest. -/
theorem toList_erase_head (hs : s.toList = x :: hi) : (s.erase x).toList = hi := by
  change s.toList.erase x = hi
  rw [hs, List.erase_cons_head]

theorem mem_of_mem_erase {y : α} (h : y ∈ (s.erase x).toList) : y ∈ s.toList :=
  List.mem_of_mem_erase h

/-- Inserting an element strictly between two halves puts it between them. -/
theorem toList_insert_of_split (hs : s.toList = lo ++ hi) (hlo : ∀ y ∈ lo, y < x)
    (hhi : ∀ y ∈ hi, x < y) : (s.insert x).toList = lo ++ x :: hi := by
  have hdrop : (lo ++ hi).dropWhile (fun y => decide (y ≤ x)) = hi := by
    rw [List.dropWhile_append_of_pos (by simpa using fun y hy => (hlo y hy).le)]
    cases hi with
    | nil => rfl
    | cons y ys => simp [not_le.mpr (hhi y (by simp))]
  change (s.toList.takeWhile fun y => decide (y < x)) ++
    x :: s.toList.dropWhile (fun y => decide (y ≤ x)) = lo ++ x :: hi
  rw [hs, takeWhile_lt_of_split hlo fun y hy => (hhi y hy).le, hdrop]

/-- Replacing an element by one that is not smaller, and still below what follows. -/
theorem toList_replace_of_split {y : α} (hs : s.toList = lo ++ x :: hi) (hle : x ≤ y)
    (hlt : ∀ z ∈ hi, y < z) : ((s.erase x).insert y).toList = lo ++ y :: hi := by
  have hsorted := s.sorted
  rw [hs, List.pairwise_append] at hsorted
  exact toList_insert_of_split (toList_erase_of_split hs)
    (fun z hz => (hsorted.2.2 z hz x (by simp)).trans_le hle) hlt

end OrderedSet
end Library
end Sponge
