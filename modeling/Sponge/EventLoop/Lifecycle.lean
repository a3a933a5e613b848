import Sponge.EventLoop.Invariant

/-!
# The life of a rule

A rule is called some number of times and then cancelled, or it is still there.  Nothing happens
to it after it was cancelled, whatever its functions do, whatever `poll` reports, and whichever of
them throw.  A cancellation that throws leaves the rule in the loop, and will be tried again.

Main results:

- Theorems {lit}`tidy_setUp` and {lit}`tidy_dispatch`: what the two loops of `wait_next_event` do
  to the rules.
- Theorem {lit}`rule_lifecycle`: the same for every run.
-/

namespace Sponge

open Library

namespace EventLoop

variable {ρ σ α : Type}

/-- The rule that a call is about. -/
def Call.rule : Call ρ → ρ
  | .callback r => r
  | .cancel r => r
  | .failedCancel r => r

/-- Calls of a rule that leave it in the loop: callbacks, and cancellations that throw. -/
def Stays (r : ρ) (calls : List (Call ρ)) : Prop :=
  ∀ call ∈ calls, call = .callback r ∨ call = .failedCancel r

theorem Stays.append {r : ρ} {calls calls' : List (Call ρ)} (h : Stays r calls)
    (h' : Stays r calls') : Stays r (calls ++ calls') :=
  fun call hcall => (List.mem_append.mp hcall).elim (h call) (h' call)

theorem stays_nil (r : ρ) : Stays r [] :=
  fun _ hcall => absurd hcall List.not_mem_nil

variable [DecidableEq ρ]

/-- The calls that are about the rule `r`. -/
def callsOf (r : ρ) (calls : List (Call ρ)) : List (Call ρ) :=
  calls.filter fun call => call.rule = r

/-- The rules `before` have become the rules `after`, in the same order.  A rule that is gone was
cancelled by its last call; the other calls have left it there. -/
structure Tidy (before after : List ρ) (calls : List (Call ρ)) : Prop where
  sublist : after.Sublist before
  callsOf_eq : ∀ r, ∃ earlier, Stays r earlier ∧ callsOf r calls = earlier ++
    (if r ∈ before ∧ r ∉ after then [.cancel r] else []) ∧ (r ∉ before → earlier = [])

theorem tidy_refl (rules : List ρ) : Tidy rules rules [] where
  sublist := List.Sublist.refl _
  callsOf_eq r := ⟨[], stays_nil r, by simp [callsOf], fun _ => rfl⟩

theorem callsOf_append (r : ρ) (calls calls' : List (Call ρ)) :
    callsOf r (calls ++ calls') = callsOf r calls ++ callsOf r calls' :=
  List.filter_append ..

/-- One walk behind another. -/
theorem Tidy.trans {before between after : List ρ} {calls calls' : List (Call ρ)}
    (h : Tidy before between calls) (h' : Tidy between after calls') :
    Tidy before after (calls ++ calls') where
  sublist := h'.sublist.trans h.sublist
  callsOf_eq r := by
    obtain ⟨earlier, hstays, hcalls, hnone⟩ := h.callsOf_eq r
    obtain ⟨later, hstays', hcalls', hnone'⟩ := h'.callsOf_eq r
    rw [callsOf_append, hcalls, hcalls']
    by_cases hbetween : r ∈ between
    · have hbefore := h.sublist.subset hbetween
      refine ⟨earlier ++ later, hstays.append hstays', ?_, fun hnot => absurd hbefore hnot⟩
      rw [if_neg (fun hgone => hgone.2 hbetween), List.append_nil, ← List.append_assoc]
      simp only [hbetween, hbefore, true_and]
    · have hafter : r ∉ after := fun hafter => hbetween (h'.sublist.subset hafter)
      refine ⟨earlier, hstays, ?_, hnone⟩
      simp [hbetween, hafter, hnone' hbetween]

/-- The first rule is cancelled. -/
theorem tidy_cancel {r : ρ} {rules : List ρ} (hr : r ∉ rules) :
    Tidy (r :: rules) rules [.cancel r] where
  sublist := List.sublist_cons_self ..
  callsOf_eq r' := by
    refine ⟨[], stays_nil r', ?_, fun _ => rfl⟩
    by_cases heq : r' = r
    · subst heq
      simp [callsOf, Call.rule, hr]
    · simp [callsOf, Call.rule, Ne.symm heq, heq]

/-- A call that leaves the first rule in the loop. -/
theorem tidy_stays {r : ρ} {call : Call ρ} (hcall : Stays r [call]) (rules : List ρ) :
    Tidy (r :: rules) (r :: rules) [call] where
  sublist := List.Sublist.refl _
  callsOf_eq r' := by
    have hrule : call.rule = r := by
      rcases hcall call List.mem_cons_self with rfl | rfl
      · rfl
      · rfl
    by_cases heq : r' = r
    · subst heq
      exact ⟨[call], hcall, by simp [callsOf, hrule], fun hnot => absurd List.mem_cons_self hnot⟩
    · exact ⟨[], stays_nil r', by simp [callsOf, hrule, Ne.symm heq, heq], fun _ => rfl⟩

theorem tidy_callback (r : ρ) (rules : List ρ) : Tidy (r :: rules) (r :: rules) [.callback r] :=
  tidy_stays (fun _ hcall => Or.inl (List.mem_singleton.mp hcall)) rules

theorem tidy_failedCancel (r : ρ) (rules : List ρ) :
    Tidy (r :: rules) (r :: rules) [.failedCancel r] :=
  tidy_stays (fun _ hcall => Or.inr (List.mem_singleton.mp hcall)) rules

/-- The first rule is kept. -/
theorem Tidy.cons {before after : List ρ} {calls : List (Call ρ)} (h : Tidy before after calls)
    {r : ρ} (hr : r ∉ before) : Tidy (r :: before) (r :: after) calls where
  sublist := h.sublist.cons_cons r
  callsOf_eq r' := by
    obtain ⟨earlier, hstays, hcalls, hnone⟩ := h.callsOf_eq r'
    by_cases heq : r' = r
    · subst heq
      obtain rfl := hnone hr
      exact ⟨[], hstays, by simpa [hr] using hcalls, fun _ => rfl⟩
    · refine ⟨earlier, hstays, ?_, fun hnot => hnone fun hmem => hnot (List.mem_cons_of_mem _ hmem)⟩
      rw [hcalls]
      simp [heq]

variable (t : RuleTable ρ σ α)

/-- The first loop cancels rules. -/
theorem tidy_setUp (rules : List ρ) (hnodup : rules.Nodup) (s : σ) :
    Tidy rules (setUp t rules s).rules (setUp t rules s).calls := by
  fun_induction setUp t rules s with
  | case1 s => exact tidy_refl []
  | case2 r rules s _ e s' _ => exact tidy_failedCancel r rules
  | case3 r rules s _ _ s' _ ih =>
      obtain ⟨hr, hnodup⟩ := List.nodup_cons.mp hnodup
      exact (tidy_cancel hr).trans (ih hnodup)
  | case4 r rules s _ e _ => exact tidy_refl _
  | case5 r rules s _ interested _ ih =>
      obtain ⟨hr, hnodup⟩ := List.nodup_cons.mp hnodup
      exact (ih hnodup).cons hr

/-- The second loop calls and cancels rules. -/
theorem tidy_dispatch (revents : ρ → Revents) (answers : ρ → α) (polled : List (ρ × Bool))
    (hnodup : (polled.map Prod.fst).Nodup) (s : σ) :
    Tidy (polled.map Prod.fst) (dispatch t revents answers polled s).rules
      (dispatch t revents answers polled s).calls := by
  fun_induction dispatch t revents answers polled s with
  | case1 s => exact tidy_refl []
  | case2 r asked rest s _ => exact tidy_refl _
  | case3 r asked rest s _ _ e s' _ => exact tidy_failedCancel r _
  | case4 r asked rest s _ _ _ s' _ ih =>
      obtain ⟨hr, hnodup⟩ := List.nodup_cons.mp hnodup
      exact (tidy_cancel hr).trans (ih hnodup)
  | case5 r asked rest s _ _ _ e s' _ => exact tidy_callback r _
  | case6 r asked rest s _ _ _ _ s' _ e _ => exact tidy_callback r _
  | case7 r asked rest s _ _ _ _ s' _ _ => exact tidy_callback r _
  | case8 r asked rest s _ _ _ _ s' _ _ ih =>
      obtain ⟨hr, hnodup⟩ := List.nodup_cons.mp hnodup
      exact (tidy_callback r _).trans ((ih hnodup).cons hr)
  | case9 r asked rest s _ _ _ ih =>
      obtain ⟨hr, hnodup⟩ := List.nodup_cons.mp hnodup
      exact (ih hnodup).cons hr

/-- A call of `wait_next_event` calls and cancels rules. -/
theorem tidy_waitNextEvent (poll : Poll ρ) (answers : ρ → α) (loop : EventLoop ρ)
    (hnodup : loop.rules.Nodup) (s : σ) :
    ∃ calls, (waitNextEvent t poll answers loop s).2.1.calls = loop.calls ++ calls ∧
      Tidy loop.rules (waitNextEvent t poll answers loop s).2.1.rules calls := by
  have hsetUp := tidy_setUp t loop.rules hnodup s
  cases hwaited : waitNextEvent t poll answers loop s with
  | mk returned rest =>
      have hcases := waited t poll answers loop s
      rw [hwaited] at hcases
      cases hcases with
      | threw e he => exact ⟨_, rfl, hsetUp⟩
      | waited polled result hpolled hexit => exact ⟨_, rfl, hsetUp⟩
      | dispatched polled called hpolled hcalled =>
          have hrules := rules_setUp hpolled
          have hdispatch := tidy_dispatch t poll.revents answers polled
            (hrules ▸ hsetUp.sublist.nodup hnodup) (setUp t loop.rules s).state
          rw [← hrules, ← hcalled] at hdispatch
          exact ⟨_, List.append_assoc .., hsetUp.trans hdispatch⟩

/-! ## Runs -/

/-- A call of `wait_next_event`, in a state that has become another one since the last call. -/
structure Turn (ρ σ α : Type) where
  change : σ → σ
  poll : Poll ρ
  answers : ρ → α

/-- The loop and the state behind a call. -/
def turn (x : EventLoop ρ × σ) (e : Turn ρ σ α) : EventLoop ρ × σ :=
  (waitNextEvent t e.poll e.answers x.1 (e.change x.2)).2

/-- A run of the loop leaves its rules tidy. -/
theorem tidy_run (loop : EventLoop ρ) (hnodup : loop.rules.Nodup) (s : σ)
    (turns : List (Turn ρ σ α)) :
    ∃ calls, (run (turn t) (loop, s) turns).1.calls = loop.calls ++ calls ∧
      Tidy loop.rules (run (turn t) (loop, s) turns).1.rules calls := by
  induction turns generalizing loop s with
  | nil => exact ⟨[], (List.append_nil _).symm, tidy_refl _⟩
  | cons e turns ih =>
      obtain ⟨calls, hcalls, htidy⟩ :=
        tidy_waitNextEvent t e.poll e.answers loop hnodup (e.change s)
      obtain ⟨calls', hcalls', htidy'⟩ := ih _ (htidy.sublist.nodup hnodup)
        (waitNextEvent t e.poll e.answers loop (e.change s)).2.2
      refine ⟨calls ++ calls', ?_, htidy.trans htidy'⟩
      rw [← List.append_assoc, ← hcalls]
      exact hcalls'

/-- In every run of an event loop, whatever `poll` reports, whatever the functions of the rules
do to the state and whichever of them throw, as long as they add no rules: the rules that are left
stand in the order in which they were added.  The calls of a rule are callbacks and cancellations
that threw, and then, if the rule is gone, one cancellation that returned. -/
theorem rule_lifecycle (rules : List ρ) (hnodup : rules.Nodup) (s : σ)
    (turns : List (Turn ρ σ α)) :
    let loop := (run (turn t) (⟨rules, []⟩, s) turns).1
    loop.rules.Sublist rules ∧ ∀ r ∈ rules, ∃ earlier,
      (∀ call ∈ earlier, call = .callback r ∨ call = .failedCancel r) ∧
        callsOf r loop.calls = earlier ++ if r ∈ loop.rules then [] else [.cancel r] := by
  intro loop
  obtain ⟨calls, hcalls, htidy⟩ := tidy_run t ⟨rules, []⟩ hnodup s turns
  refine ⟨htidy.sublist, fun r hr => ?_⟩
  obtain ⟨earlier, hstays, hearlier, -⟩ := htidy.callsOf_eq r
  refine ⟨earlier, hstays, ?_⟩
  change callsOf r (run (turn t) (⟨rules, []⟩, s) turns).1.calls = _
  rw [hcalls, List.nil_append, hearlier]
  by_cases hleft : r ∈ (run (turn t) (⟨rules, []⟩, s) turns).1.rules
  · rw [if_neg (fun h => h.2 hleft), if_pos hleft]
  · rw [if_pos ⟨hr, hleft⟩, if_neg hleft]

/-- A rule reads twice and finds the end of the file; its first cancellation throws. -/
theorem rule_lifecycle_eof :
    let t : RuleTable Unit (FileDescriptor × Bool) (List Byte) :=
      ⟨fun _ => .input, fun _ => Prod.fst,
        fun _ bytes s => (.ok (), (s.1.read 10 (.ok bytes)).2, s.2), fun _ _ => .ok true,
        fun _ s => (if s.2 then .ok () else .error "not yet", s.1, true)⟩
    let turns : List (Turn Unit (FileDescriptor × Bool) (List Byte)) :=
      [[7], [], [8], [9]].map fun bytes =>
        ⟨id, .ready fun _ => { pollin := true }, fun _ => bytes⟩
    (run (turn t) (⟨[()], []⟩, {}, false) turns).1.calls =
        [.callback (), .callback (), .failedCancel (), .cancel ()] ∧
      ∃ earlier, (∀ call ∈ earlier, call = .callback () ∨ call = .failedCancel ()) ∧
        callsOf () (run (turn t) (⟨[()], []⟩, {}, false) turns).1.calls = earlier ++
          if () ∈ (run (turn t) (⟨[()], []⟩, {}, false) turns).1.rules then []
          else [.cancel ()] := by
  intro t turns
  exact ⟨by decide, (rule_lifecycle t [()] (by decide) ({}, false) turns).2 () (by decide)⟩

end EventLoop
end Sponge
