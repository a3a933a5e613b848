import Sponge.Library.Execution

/-!
# Simulation

A system simulates another one if each admissible step of the lower system is matched by
an admissible run of the upper one between the states that an abstraction assigns to the two
ends of the step.  The run may be empty: then the step does not show above.

Main results:

- Theorem {lit}`admissible_append`: a run is admissible if its parts are.
- Theorem {lit}`Admissible.simulated`: every admissible run of the lower system is matched.
-/

namespace Sponge
namespace Library

section Append

variable {σ ε : Type} {step : σ → ε → σ} {ok : σ → ε → Prop}

/-- The second part of a run is taken in the state behind the first one. -/
theorem admissible_append (s : σ) (es es' : List ε) :
    Admissible step ok s (es ++ es') ↔
      Admissible step ok s es ∧ Admissible step ok (run step s es) es' := by
  induction es generalizing s with
  | nil => exact (and_iff_right trivial).symm
  | cons e es ih =>
      simp only [List.cons_append, Admissible, run, ih, and_assoc]

/-- Two side conditions are met together. -/
theorem Admissible.and {ok' : σ → ε → Prop} {s : σ} {es : List ε} (h : Admissible step ok s es)
    (h' : Admissible step ok' s es) : Admissible step (fun s e => ok s e ∧ ok' s e) s es := by
  induction es generalizing s with
  | nil => trivial
  | cons e es ih => exact ⟨⟨h.1, h'.1⟩, ih h.2 h'.2⟩

end Append

variable {σ ε τ δ : Type} {step : σ → ε → σ} {ok : σ → ε → Prop} {step' : τ → δ → τ}
  {ok' : τ → δ → Prop}

/-- An admissible run of the upper system that leads from `t` to `t'`. -/
def Reaches (step' : τ → δ → τ) (ok' : τ → δ → Prop) (t t' : τ) : Prop :=
  ∃ trace, Admissible step' ok' t trace ∧ run step' t trace = t'

theorem Reaches.refl (t : τ) : Reaches step' ok' t t :=
  ⟨[], trivial, rfl⟩

theorem Reaches.single {t : τ} {d : δ} (h : ok' t d) : Reaches step' ok' t (step' t d) :=
  ⟨[d], ⟨h, trivial⟩, rfl⟩

theorem Reaches.trans {t t' t'' : τ} (h : Reaches step' ok' t t')
    (h' : Reaches step' ok' t' t'') : Reaches step' ok' t t'' := by
  obtain ⟨trace, hadm, rfl⟩ := h
  obtain ⟨trace', hadm', rfl⟩ := h'
  exact ⟨trace ++ trace', (admissible_append _ _ _).mpr ⟨hadm, hadm'⟩, run_append _ _ _⟩

/-- If every admissible step is matched, so is every admissible run.  The invariant may be used
to match a step. -/
theorem Admissible.simulated {I : σ → Prop} {abs : σ → τ}
    (hstep : ∀ s e, I s → ok s e → I (step s e) ∧ Reaches step' ok' (abs s) (abs (step s e)))
    {s : σ} {es : List ε} (hs : I s) (h : Admissible step ok s es) :
    I (run step s es) ∧ Reaches step' ok' (abs s) (abs (run step s es)) := by
  induction es generalizing s with
  | nil => exact ⟨hs, Reaches.refl _⟩
  | cons e es ih =>
      obtain ⟨hnext, hmatch⟩ := hstep s e hs h.1
      obtain ⟨hend, hrest⟩ := ih hnext h.2
      exact ⟨hend, hmatch.trans hrest⟩

end Library
end Sponge
