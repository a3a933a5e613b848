import Mathlib

/-!
# Runs of a deterministic system

A system is a step function on states and events.  An admissible run is a list of
events each of which meets a side condition in the state it is taken in; the side
condition says when the environment may take an event and what is assumed about it.
Both notions compute, so a concrete run can be checked by evaluation.

Main results:

- Theorem {lit}`Admissible.invariant`: what every admissible step preserves holds
  after every admissible run.
- Theorem {lit}`Admissible.history`: the same for properties that mention the events.
- Theorem {lit}`run_history`: the same for runs without a side condition.
- Theorem {lit}`run_log`: a run leaves a log as it was exactly if each of its steps does.
-/

namespace Sponge
namespace Library

variable {σ ε : Type} (step : σ → ε → σ) (ok : σ → ε → Prop)

/-- The state after a list of events. -/
def run : σ → List ε → σ
  | s, [] => s
  | s, e :: es => run (step s e) es

/-- Every event of the list meets the side condition when it is taken. -/
def Admissible : σ → List ε → Prop
  | _, [] => True
  | s, e :: es => ok s e ∧ Admissible (step s e) es

instance decidableAdmissible [∀ s e, Decidable (ok s e)] :
    ∀ (s : σ) (es : List ε), Decidable (Admissible step ok s es)
  | _, [] => inferInstanceAs (Decidable True)
  | s, e :: es =>
      have := decidableAdmissible (step s e) es
      inferInstanceAs (Decidable (ok s e ∧ Admissible step ok (step s e) es))

/-- What a run shows, one output for each event. -/
def outputs {ω : Type} (out : σ → ε → ω) : σ → List ε → List ω
  | _, [] => []
  | s, e :: es => out s e :: outputs out (step s e) es

variable {step ok}

/-- A run goes on from the state behind its first events. -/
theorem run_append (s : σ) (es es' : List ε) :
    run step s (es ++ es') = run step (run step s es) es' := by
  induction es generalizing s with
  | nil => rfl
  | cons e es ih => exact ih (step s e)

/-- The last event of a run is taken in the state behind the others. -/
theorem run_concat (s : σ) (es : List ε) (e : ε) :
    run step s (es ++ [e]) = step (run step s es) e :=
  run_append s es [e]

/-- A run whose events change nothing. -/
theorem run_eq_self {s : σ} {es : List ε} (h : ∀ e ∈ es, step s e = s) : run step s es = s := by
  induction es with
  | nil => rfl
  | cons e es ih =>
      rw [run, h e List.mem_cons_self]
      exact ih fun e' he' => h e' (List.mem_cons_of_mem e he')

/-- A property that admissible steps preserve holds at the end of admissible runs. -/
theorem Admissible.invariant {I : σ → Prop}
    (hstep : ∀ s e, I s → ok s e → I (step s e)) {s : σ} {es : List ε}
    (hs : I s) (h : Admissible step ok s es) : I (run step s es) := by
  induction es generalizing s with
  | nil => exact hs
  | cons e es ih => exact ih (hstep s e hs h.1) h.2

/-- The last event of an admissible run meets the side condition in the state before it. -/
theorem Admissible.concat {s : σ} {es : List ε} {e : ε} (h : Admissible step ok s (es ++ [e])) :
    Admissible step ok s es ∧ ok (run step s es) e := by
  induction es generalizing s with
  | nil => exact ⟨trivial, h.1⟩
  | cons e' es ih => exact ⟨⟨h.1, (ih h.2).1⟩, (ih h.2).2⟩

/-- A property of the events taken so far and the state, kept by admissible steps, holds
for all events at the end of an admissible run. -/
theorem Admissible.history {I : List ε → σ → Prop}
    (hstep : ∀ done s e, I done s → ok s e → I (done ++ [e]) (step s e)) {done : List ε}
    {s : σ} {es : List ε} (hs : I done s) (h : Admissible step ok s es) :
    I (done ++ es) (run step s es) := by
  induction es generalizing done s with
  | nil =>
      rw [List.append_nil]
      exact hs
  | cons e es ih =>
      have hrest := ih (hstep done s e hs h.1) h.2
      rw [List.append_assoc] at hrest
      exact hrest

/-- Without a side condition every run is admissible. -/
theorem admissible_true (s : σ) (es : List ε) : Admissible step (fun _ _ => True) s es := by
  induction es generalizing s with
  | nil => trivial
  | cons e es ih => exact ⟨trivial, ih (step s e)⟩

/-- A property of the events taken so far and the state, kept by every step, holds for all
events at the end of a run. -/
theorem run_history {I : List ε → σ → Prop}
    (hstep : ∀ done s e, I done s → I (done ++ [e]) (step s e)) {s : σ} (hs : I [] s)
    (es : List ε) : I es (run step s es) :=
  (admissible_true s es).history (fun done s e h _ => hstep done s e h) hs

/-- If every step appends to a log, and appends nothing exactly when it meets the side
condition, then a run appends to the log, and appends nothing exactly when it is admissible. -/
theorem run_log {α : Type} {I : σ → Prop} (log : σ → List α)
    (hstep : ∀ s e, I s →
      I (step s e) ∧ ∃ new, log (step s e) = log s ++ new ∧ (new = [] ↔ ok s e))
    {s : σ} (hs : I s) (es : List ε) :
    I (run step s es) ∧ ∃ new, log (run step s es) = log s ++ new ∧
      (new = [] ↔ Admissible step ok s es) := by
  induction es generalizing s with
  | nil => exact ⟨hs, [], (List.append_nil _).symm, by simp [Admissible]⟩
  | cons e es ih =>
      obtain ⟨hnext, first, hfirst, hok⟩ := hstep s e hs
      obtain ⟨hend, rest, hrest, hadm⟩ := ih hnext
      refine ⟨hend, first ++ rest, ?_, ?_⟩
      · rw [run, hrest, hfirst, List.append_assoc]
      · rw [List.append_eq_nil_iff, hok, hadm, Admissible]

end Library
end Sponge
