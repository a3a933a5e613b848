import Mathlib

/-!
# Tilings

A list of blocks laid end to end from a starting point, each taking as much room as its
size.  `place` pairs every block with the point where it starts, so blocks never
overlap and leave no gap, and `unfinished c` keeps the blocks that reach beyond `c`.

Main results:

- Theorem {lit}`mem_place`: where a block of a list is placed.
- Theorem {lit}`exists_mem_place`: every point of the extent lies in a block.
- Theorem {lit}`dropWhile_unfinished`: dropping finished blocks from the front leaves
  exactly the unfinished ones.
- Theorem {lit}`head_unfinished_le`: the first unfinished block holds the point `c`.
- Theorem {lit}`IsBoundary.apart`: a boundary does not cut a block.
-/

namespace Sponge
namespace Library

variable {β : Type} (size : β → Nat)

/-- The room that a list of blocks takes. -/
def extent (xs : List β) : Nat :=
  (xs.map size).sum

@[simp]
theorem extent_nil : extent size [] = 0 :=
  rfl

/-- The first block and the others. -/
@[simp]
theorem extent_cons (x : β) (xs : List β) : extent size (x :: xs) = size x + extent size xs := by
  simp [extent]

/-- Two rows of blocks. -/
@[simp]
theorem extent_append (xs ys : List β) :
    extent size (xs ++ ys) = extent size xs + extent size ys := by
  simp [extent]

/-- The blocks with the points where they start, the first one at `a`. -/
def place : Nat → List β → List (Nat × β)
  | _, [] => []
  | a, x :: xs => (a, x) :: place (a + size x) xs

@[simp]
theorem place_nil (a : Nat) : place size a [] = [] :=
  rfl

/-- The first block stands at the start, the others behind it. -/
@[simp]
theorem place_cons (a : Nat) (x : β) (xs : List β) :
    place size a (x :: xs) = (a, x) :: place size (a + size x) xs :=
  rfl

variable {size} {a c : Nat} {xs ys : List β} {p : Nat × β}

/-- Blocks added at the end are placed behind the others. -/
theorem place_append (a : Nat) (xs ys : List β) :
    place size a (xs ++ ys) = place size a xs ++ place size (a + extent size xs) ys := by
  induction xs generalizing a with
  | nil => simp
  | cons x xs ih => simp [ih, Nat.add_assoc]

/-- The blocks that are placed. -/
@[simp]
theorem map_snd_place (a : Nat) (xs : List β) : (place size a xs).map Prod.snd = xs := by
  induction xs generalizing a with
  | nil => rfl
  | cons x xs ih => simp [ih]

/-- A block is placed behind the blocks in front of it. -/
theorem mem_place : p ∈ place size a xs ↔
    ∃ before after, xs = before ++ p.2 :: after ∧ p.1 = a + extent size before := by
  induction xs generalizing a with
  | nil => simp
  | cons x xs ih =>
      rw [place_cons, List.mem_cons, ih]
      constructor
      · rintro (rfl | ⟨before, after, hxs, hp⟩)
        · exact ⟨[], xs, rfl, rfl⟩
        · refine ⟨x :: before, after, by rw [hxs, List.cons_append], ?_⟩
          rw [hp, extent_cons, Nat.add_assoc]
      · rintro ⟨before, after, hxs, hp⟩
        cases before with
        | nil =>
            left
            rw [List.nil_append, List.cons.injEq] at hxs
            exact Prod.ext hp hxs.1.symm
        | cons y before =>
            right
            rw [List.cons_append, List.cons.injEq] at hxs
            refine ⟨before, after, hxs.2, ?_⟩
            rw [hp, extent_cons, hxs.1, Nat.add_assoc]

/-- Placed blocks lie within the extent. -/
theorem bounds_of_mem_place (h : p ∈ place size a xs) :
    a ≤ p.1 ∧ p.1 + size p.2 ≤ a + extent size xs := by
  obtain ⟨before, after, hxs, hp⟩ := mem_place.mp h
  rw [hxs, extent_append, extent_cons]
  omega

/-- Later blocks start where earlier ones have ended. -/
theorem pairwise_place (a : Nat) (xs : List β) :
    (place size a xs).Pairwise fun p q => p.1 + size p.2 ≤ q.1 := by
  induction xs generalizing a with
  | nil => exact List.Pairwise.nil
  | cons x xs ih =>
      rw [place_cons, List.pairwise_cons]
      exact ⟨fun q hq => (bounds_of_mem_place hq).1, ih _⟩

/-- Every point of the extent lies in a block. -/
theorem exists_mem_place {j : Nat} (hlow : a ≤ j) (hhigh : j < a + extent size xs) :
    ∃ p ∈ place size a xs, p.1 ≤ j ∧ j < p.1 + size p.2 := by
  induction xs generalizing a with
  | nil =>
      rw [extent_nil] at hhigh
      omega
  | cons x xs ih =>
      by_cases hj : j < a + size x
      · exact ⟨(a, x), by simp, hlow, hj⟩
      · rw [extent_cons] at hhigh
        obtain ⟨p, hp, hin⟩ := ih (a := a + size x) (by omega) (by omega)
        exact ⟨p, by simp [hp], hin⟩

/-! ## Blocks that reach beyond a point -/

/-- The placed blocks that end beyond `c`. -/
def unfinished (size : β → Nat) (a c : Nat) (xs : List β) : List (Nat × β) :=
  (place size a xs).filter fun p => decide (c < p.1 + size p.2)

/-- A block is unfinished if it ends behind `c`. -/
theorem mem_unfinished :
    p ∈ unfinished size a c xs ↔ p ∈ place size a xs ∧ c < p.1 + size p.2 := by
  simp [unfinished]

/-- Non-empty blocks added behind `c` are unfinished. -/
theorem unfinished_append (hpos : ∀ y ∈ ys, 0 < size y) (hc : c ≤ a + extent size xs) :
    unfinished size a c (xs ++ ys) =
      unfinished size a c xs ++ place size (a + extent size xs) ys := by
  unfold unfinished
  rw [place_append, List.filter_append]
  congr 1
  rw [List.filter_eq_self]
  intro p hp
  obtain ⟨before, after, hys, hplace⟩ := mem_place.mp hp
  have hsize := hpos p.2 (by rw [hys]; simp)
  rw [decide_eq_true_eq]
  omega

/-- In a list whose values do not decrease, those up to `c` come first. -/
theorem dropWhile_eq_filter_lt {α : Type} {f : α → Nat} {c : Nat} {done : α → Bool}
    {l : List α} (h : l.Pairwise fun x y => f x ≤ f y)
    (hdone : ∀ x ∈ l, done x = true ↔ f x ≤ c) :
    l.dropWhile done = l.filter fun x => decide (c < f x) := by
  induction l with
  | nil => rfl
  | cons x l ih =>
      rw [List.pairwise_cons] at h
      have hx := hdone x List.mem_cons_self
      by_cases hle : f x ≤ c
      · rw [List.dropWhile_cons_of_pos (hx.mpr hle), List.filter_cons_of_neg (by simpa using hle),
          ih h.2 fun y hy => hdone y (List.mem_cons_of_mem _ hy)]
      · rw [List.dropWhile_cons_of_neg fun hd => hle (hx.mp hd), eq_comm, List.filter_eq_self]
        intro y hy
        rw [decide_eq_true_eq]
        rcases List.mem_cons.mp hy with rfl | hy
        · omega
        · have := h.1 y hy
          omega

/-- Dropping the blocks that end by `c'` from those that reach beyond `c`. -/
theorem dropWhile_unfinished {c' : Nat} {done : Nat × β → Bool} (hc : c ≤ c')
    (hdone : ∀ p ∈ unfinished size a c xs, done p = true ↔ p.1 + size p.2 ≤ c') :
    (unfinished size a c xs).dropWhile done = unfinished size a c' xs := by
  have hsorted : (unfinished size a c xs).Pairwise
      fun p q => p.1 + size p.2 ≤ q.1 + size q.2 :=
    ((pairwise_place a xs).imp fun h => by omega).filter _
  rw [dropWhile_eq_filter_lt hsorted hdone, unfinished, unfinished, List.filter_filter]
  apply List.filter_congr
  intro p _
  rw [Bool.and_eq_left_iff_imp.mpr]
  simp only [decide_eq_true_eq]
  omega

/-- The unfinished blocks are the last ones. -/
theorem unfinished_suffix (a c : Nat) (xs : List β) :
    (unfinished size a c xs).map Prod.snd <:+ xs := by
  have hsorted : (place size a xs).Pairwise fun p q => p.1 + size p.2 ≤ q.1 + size q.2 :=
    (pairwise_place a xs).imp fun h => by omega
  have hdrop : (place size a xs).dropWhile (fun p => decide (p.1 + size p.2 ≤ c)) =
      unfinished size a c xs :=
    dropWhile_eq_filter_lt hsorted (by simp)
  have hsuffix := (List.dropWhile_suffix (l := place size a xs)
    fun p => decide (p.1 + size p.2 ≤ c)).map Prod.snd
  rw [hdrop, map_snd_place] at hsuffix
  exact hsuffix

/-- The first unfinished block holds the point it is unfinished at. -/
theorem head_unfinished_le {rest : List (Nat × β)} (h : unfinished size a c xs = p :: rest)
    (ha : a ≤ c) : p.1 ≤ c := by
  have hp : p ∈ unfinished size a c xs := by rw [h]; exact List.mem_cons_self
  obtain ⟨hplace, hend⟩ := mem_unfinished.mp hp
  have hextent := (bounds_of_mem_place hplace).2
  obtain ⟨q, hq, hlow, hhigh⟩ := exists_mem_place ha (lt_of_lt_of_le hend hextent)
  have hsorted : (p :: rest).Pairwise fun p q => p.1 + size p.2 ≤ q.1 := by
    rw [← h]
    exact (pairwise_place a xs).filter _
  have hmem : q ∈ p :: rest := by
    rw [← h]
    exact mem_unfinished.mpr ⟨hq, hhigh⟩
  rcases List.mem_cons.mp hmem with rfl | hrest
  · exact hlow
  · have := (List.pairwise_cons.mp hsorted).1 q hrest
    omega

/-! ## Boundaries -/

/-- A point between two blocks, or at one of the ends. -/
def IsBoundary (size : β → Nat) (xs : List β) (c : Nat) : Prop :=
  ∃ before after, xs = before ++ after ∧ c = extent size before

/-- The end of the row is a boundary. -/
theorem isBoundary_extent (size : β → Nat) (xs : List β) :
    IsBoundary size xs (extent size xs) :=
  ⟨xs, [], by simp, rfl⟩

/-- A boundary of a row is one of each longer row. -/
theorem IsBoundary.append (h : IsBoundary size xs c) (ys : List β) :
    IsBoundary size (xs ++ ys) c := by
  obtain ⟨before, after, hxs, hc⟩ := h
  exact ⟨before, after ++ ys, by rw [hxs, List.append_assoc], hc⟩

/-- A boundary of a longer list is one of the old list or lies behind it. -/
theorem IsBoundary.of_append (h : IsBoundary size (xs ++ ys) c) :
    IsBoundary size xs c ∨ extent size xs ≤ c := by
  obtain ⟨before, after, hsplit, hc⟩ := h
  rcases List.append_eq_append_iff.mp hsplit with ⟨more, hbefore, -⟩ | ⟨rest, hxs, -⟩
  · right
    rw [hc, hbefore, extent_append]
    omega
  · exact Or.inl ⟨before, rest, hxs, hc⟩

/-- A block starts at a boundary. -/
theorem isBoundary_of_mem_place (h : p ∈ place size 0 xs) : IsBoundary size xs p.1 := by
  obtain ⟨before, after, hxs, hp⟩ := mem_place.mp h
  exact ⟨before, p.2 :: after, hxs, by rw [hp, Nat.zero_add]⟩

/-- A boundary does not cut a block. -/
theorem IsBoundary.apart (h : IsBoundary size xs c) (hp : p ∈ place size 0 xs) :
    c ≤ p.1 ∨ p.1 + size p.2 ≤ c := by
  obtain ⟨before, after, hxs, hc⟩ := h
  rw [hxs, place_append, List.mem_append, Nat.zero_add] at hp
  rcases hp with hp | hp
  · right
    have := (bounds_of_mem_place hp).2
    omega
  · left
    have := (bounds_of_mem_place hp).1
    omega

end Library
end Sponge
