import Mathlib

/-!
# The last maximum of a list

A single scan of a list that keeps the best element so far, and prefers a later element
among equally good ones.  Only elements that satisfy a predicate are considered.

Main results:

- Theorem {lit}`lastMax_spec`: the scan finds the last element of maximal key among those
  that satisfy the predicate, and finds none only if there is none.
-/

namespace Sponge
namespace Library

variable {α κ : Type} [LinearOrder κ] (p : α → Prop) (key : α → κ)

/-- The element is the last one of maximal key among those that satisfy the predicate. -/
def IsLastMax (l : List α) (a : α) : Prop :=
  ∃ before after, l = before ++ a :: after ∧ p a ∧
    (∀ b ∈ before, p b → key b ≤ key a) ∧ ∀ b ∈ after, p b → key b < key a

variable {p key}

/-- A worse or unsuitable element at the end changes nothing. -/
theorem IsLastMax.concat {l : List α} {a b : α} (h : IsLastMax p key l a)
    (hb : p b → key b < key a) : IsLastMax p key (l ++ [b]) a := by
  obtain ⟨before, after, rfl, ha, hbefore, hafter⟩ := h
  refine ⟨before, after ++ [b], by simp, ha, hbefore, ?_⟩
  intro c hc
  rcases List.mem_append.mp hc with hc | hc
  · exact hafter c hc
  · rw [List.mem_singleton.mp hc]
    exact hb

/-- Every suitable element is at most as good as the maximum. -/
theorem IsLastMax.le {l : List α} {a b : α} (h : IsLastMax p key l a) (hb : b ∈ l) (hp : p b) :
    key b ≤ key a := by
  obtain ⟨before, after, rfl, -, hbefore, hafter⟩ := h
  rcases List.mem_append.mp hb with hb | hb
  · exact hbefore b hb hp
  · rcases List.mem_cons.mp hb with rfl | hb
    · exact le_rfl
    · exact (hafter b hb hp).le

/-- A suitable element at the end that is at least as good as all others is the maximum. -/
theorem isLastMax_concat_self {l : List α} {a : α} (ha : p a)
    (hl : ∀ b ∈ l, p b → key b ≤ key a) : IsLastMax p key (l ++ [a]) a :=
  ⟨l, [], rfl, ha, hl, fun _ hb => absurd hb List.not_mem_nil⟩

/-! ## The scan -/

variable [OrderBot κ] (p) [DecidablePred p] (key)

/-- The scan looks at one more element. -/
def lastMaxStep (best : Option α) (a : α) : Option α :=
  if p a ∧ best.elim ⊥ key ≤ key a then some a else best

/-- The scan of a list. -/
def lastMax (l : List α) : Option α :=
  l.foldl (lastMaxStep p key) none

theorem lastMax_concat (l : List α) (a : α) :
    lastMax p key (l ++ [a]) = lastMaxStep p key (lastMax p key l) a := by
  rw [lastMax, List.foldl_append]
  rfl

/-- The scan finds the last maximum, unless no element is suitable. -/
theorem lastMax_spec (l : List α) :
    (lastMax p key l = none ∧ ∀ a ∈ l, ¬ p a) ∨
      ∃ a, lastMax p key l = some a ∧ IsLastMax p key l a := by
  -- from the front to the back, as the scan goes
  induction l using List.reverseRecOn with
  | nil => exact Or.inl ⟨rfl, fun _ h => absurd h List.not_mem_nil⟩
  | append_singleton l a ih =>
      rw [lastMax_concat, lastMaxStep]
      by_cases hpa : p a
      · rcases ih with ⟨hnone, hall⟩ | ⟨b, hsome, hb⟩
        · rw [hnone, if_pos ⟨hpa, bot_le⟩]
          exact Or.inr ⟨a, rfl, isLastMax_concat_self hpa fun c hc hpc => absurd hpc (hall c hc)⟩
        · rw [hsome, Option.elim_some]
          by_cases hle : key b ≤ key a
          · rw [if_pos ⟨hpa, hle⟩]
            exact Or.inr ⟨a, rfl,
              isLastMax_concat_self hpa fun c hc hpc => (hb.le hc hpc).trans hle⟩
          · rw [if_neg fun h => hle h.2]
            exact Or.inr ⟨b, rfl, hb.concat fun _ => not_le.mp hle⟩
      · rw [if_neg fun h => hpa h.1]
        rcases ih with ⟨hnone, hall⟩ | ⟨b, hsome, hb⟩
        · refine Or.inl ⟨hnone, ?_⟩
          intro c hc
          rcases List.mem_append.mp hc with hc | hc
          · exact hall c hc
          · rw [List.mem_singleton.mp hc]
            exact hpa
        · exact Or.inr ⟨b, hsome, hb.concat fun h => absurd h hpa⟩

end Library
end Sponge
