import Sponge.EventLoop.Model

/-!
# Induction along a call of the event loop

The two loops of `wait_next_event` walk along the rules.  What holds at the start of a loop and is
kept for each rule, whether it is cancelled, asked, called or passed over, holds at its end.  A walk
that throws stops at a rule, and the rule is left.

Main results:

- Theorem {lit}`Contract.setUp`: the loop that asks the rules for their interest.
- Theorem {lit}`Contract.dispatch`: the loop that calls them.
- Theorems {lit}`Contract.returns` and {lit}`Contract.throws`: a call of `wait_next_event`.
- Theorem {lit}`Contract.exits`: when a call returns `Exit`.
- Definition {lit}`KernelFault`: the exceptions that come from the kernel.
-/

namespace Sponge
namespace EventLoop

variable {ρ σ α β γ : Type} {t : RuleTable ρ σ α}

/-! ## Walks -/

/-- A walk that throws `e` stops at a rule `r`, which is left, with the last calls `last` and in a
state of which `J` holds; of what a walk returns, `P` holds. -/
structure Pass.Ends (p : Pass ρ σ β) (P : β → List ρ → σ → Prop)
    (J : ρ → List (Call ρ) → String → σ → Prop) : Prop where
  throws : ∀ e, p.result = .error e → ∃ r ∈ p.rules, ∃ last, last <:+ p.calls ∧ J r last e p.state
  returns : ∀ b, p.result = .ok b → P b p.rules p.state

namespace Pass

variable {P : β → List ρ → σ → Prop} {J : ρ → List (Call ρ) → String → σ → Prop}

/-- The walk has come to its end. -/
theorem ends_return {b : β} {rules : List ρ} {s : σ} (h : P b rules s) :
    Ends ⟨.ok b, rules, [], s⟩ P J where
  throws _ he := by cases he
  returns b' hb := by
    cases hb
    exact h

/-- The walk stops at its first rule. -/
theorem ends_throw {e : String} {r : ρ} {rest : List ρ} {calls : List (Call ρ)} {s : σ}
    (h : J r calls e s) : Ends ⟨.error e, r :: rest, calls, s⟩ P J where
  throws e' he := by
    cases he
    exact ⟨r, List.mem_cons_self, calls, List.suffix_rfl, h⟩
  returns _ hb := by cases hb

theorem Ends.after {p : Pass ρ σ β} (h : p.Ends P J) (call : Call ρ) : (p.after call).Ends P J where
  throws e he := by
    obtain ⟨r, hr, last, hlast, hJ⟩ := h.throws e he
    exact ⟨r, hr, last, hlast.trans (List.suffix_cons ..), hJ⟩
  returns := h.returns

theorem Ends.keep {p : Pass ρ σ β} {r : ρ} (h : p.Ends (fun b rules => P b (r :: rules)) J) :
    (p.keep r).Ends P J where
  throws e he := by
    obtain ⟨r', hr, hrest⟩ := h.throws e he
    exact ⟨r', List.mem_cons_of_mem _ hr, hrest⟩
  returns := h.returns

theorem Ends.map {p : Pass ρ σ γ} {f : γ → β} (h : p.Ends (fun c => P (f c)) J) :
    (p.map f).Ends P J := by
  refine ⟨fun e he => h.throws e ?_, fun b hb => ?_⟩
  · cases hresult : p.result with
    | error e' =>
        rw [Pass.map, hresult] at he
        cases he
        rfl
    | ok c =>
        rw [Pass.map, hresult] at he
        cases he
  · cases hresult : p.result with
    | error e =>
        rw [Pass.map, hresult] at hb
        cases hb
    | ok c =>
        rw [Pass.map, hresult] at hb
        cases hb
        exact h.returns c hresult

end Pass

/-- The first loop leaves the rules that it has asked. -/
theorem rules_setUp {rules : List ρ} {s : σ} {polled : List (ρ × Bool)}
    (h : (setUp t rules s).result = .ok polled) :
    (setUp t rules s).rules = polled.map Prod.fst := by
  have hends : (setUp t rules s).Ends (fun polled rules _ => rules = polled.map Prod.fst)
      fun _ _ _ _ => True := by
    clear h
    fun_induction setUp t rules s with
    | case1 s => exact Pass.ends_return rfl
    | case2 r rules s _ e s' _ => exact Pass.ends_throw trivial
    | case3 r rules s _ _ s' _ ih => exact ih.after _
    | case4 r rules s _ e _ => exact Pass.ends_throw trivial
    | case5 r rules s _ interested _ ih =>
        exact Pass.Ends.map (Pass.Ends.keep
          ⟨ih.throws, fun polled hpolled => congrArg (r :: ·) (ih.returns polled hpolled)⟩)
  exact hends.returns polled h

/-- The test for a busy wait throws, or finds one. -/
theorem busyWait_cases {r : ρ} {s s' : σ} {result : Except String Bool}
    (h : busyWait t r (t.serviceCount r s) s' = result) (hresult : result ≠ .ok false) :
    t.serviceCount r s = t.serviceCount r s' ∧ t.interest r s' = result := by
  unfold busyWait at h
  split at h
  · rename_i hcount
    exact ⟨hcount, h⟩
  · exact absurd h.symm hresult

/-! ## A call of `wait_next_event` -/

/-- What the second loop finds in `revents`. -/
def Poll.revents : Poll ρ → ρ → Revents
  | .ready revents => revents
  | _ => fun _ => {}

/-- `K todo done` holds along the first loop, with the rules ahead and those behind with their
interest; `I kept todo` along the second one, with the rules behind that are left and those ahead;
`L` of the rules that are left if the call returns; and `J` where it throws. -/
structure Contract (t : RuleTable ρ σ α) (poll : Poll ρ) (answers : ρ → α)
    (K I : List ρ → List (ρ × Bool) → σ → Prop) (L : List ρ → σ → Prop)
    (J : ρ → List (Call ρ) → String → σ → Prop) : Prop where
  spent : ∀ {r todo done s s'}, K (r :: todo) done s → Spent t r s →
    t.cancel r s = (.ok (), s') → K todo done s'
  spent_throws : ∀ {r todo done s s' e}, K (r :: todo) done s → Spent t r s →
    t.cancel r s = (.error e, s') → J r [.failedCancel r] e s'
  asked : ∀ {r todo done s interested}, K (r :: todo) done s → ¬ Spent t r s →
    t.interest r s = .ok interested → K todo (done ++ [(r, interested)]) s
  asked_throws : ∀ {r todo done s e}, K (r :: todo) done s → ¬ Spent t r s →
    t.interest r s = .error e → J r [] e s
  polled : ∀ {polled s}, K [] polled s → I [] polled s ∧ L (polled.map Prod.fst) s
  error : ∀ {kept r asked todo s}, I kept ((r, asked) :: todo) s →
    ((poll.revents r).pollerr || (poll.revents r).pollnval) = true →
      J r [] "EventLoop: error on polled file descriptor" s
  passed : ∀ {kept r asked todo s}, I kept ((r, asked) :: todo) s → I (kept ++ [r]) todo s
  hungUp : ∀ {kept r todo s s'}, I kept ((r, true) :: todo) s → (poll.revents r).pollhup = true →
    t.cancel r s = (.ok (), s') → I kept todo s'
  hungUp_throws : ∀ {kept r todo s s' e}, I kept ((r, true) :: todo) s →
    (poll.revents r).pollhup = true → t.cancel r s = (.error e, s') → J r [.failedCancel r] e s'
  called : ∀ {kept r todo s s'}, I kept ((r, true) :: todo) s →
    t.callback r (answers r) s = (.ok (), s') → I (kept ++ [r]) todo s'
  called_throws : ∀ {kept r todo s s' e}, I kept ((r, true) :: todo) s →
    t.callback r (answers r) s = (.error e, s') → J r [.callback r] e s'
  busy : ∀ {kept r todo s s'}, I kept ((r, true) :: todo) s →
    t.callback r (answers r) s = (.ok (), s') → t.serviceCount r s = t.serviceCount r s' →
      t.interest r s' = .ok true → J r [.callback r] busyWaitError s'
  busy_throws : ∀ {kept r todo s s' e}, I kept ((r, true) :: todo) s →
    t.callback r (answers r) s = (.ok (), s') → t.serviceCount r s = t.serviceCount r s' →
      t.interest r s' = .error e → J r [.callback r] e s'
  finished : ∀ {kept s}, I kept [] s → L kept s

namespace Contract

variable {poll : Poll ρ} {answers : ρ → α} {K I : List ρ → List (ρ × Bool) → σ → Prop}
  {L : List ρ → σ → Prop} {J : ρ → List (Call ρ) → String → σ → Prop}

/-- The first loop. -/
theorem setUp (h : Contract t poll answers K I L J) {todo : List ρ} {done : List (ρ × Bool)}
    {s : σ} (hK : K todo done s) :
    (setUp t todo s).Ends (fun polled _ s => K [] (done ++ polled) s) J := by
  fun_induction EventLoop.setUp t todo s generalizing done with
  | case1 s =>
      refine Pass.ends_return ?_
      rwa [List.append_nil]
  | case2 r rules s hspent e s' hcancel => exact Pass.ends_throw (h.spent_throws hK hspent hcancel)
  | case3 r rules s hspent _ s' hcancel ih => exact (ih (h.spent hK hspent hcancel)).after _
  | case4 r rules s hlive e hinterest => exact Pass.ends_throw (h.asked_throws hK hlive hinterest)
  | case5 r rules s hlive interested hinterest ih =>
      have hrest := ih (h.asked hK hlive hinterest)
      refine Pass.Ends.map (Pass.Ends.keep ⟨hrest.throws, fun polled hpolled => ?_⟩)
      have hdone := hrest.returns polled hpolled
      rwa [List.append_assoc] at hdone

/-- The second loop. -/
theorem dispatch (h : Contract t poll answers K I L J) {kept : List ρ} {todo : List (ρ × Bool)}
    {s : σ} (hI : I kept todo s) :
    (dispatch t poll.revents answers todo s).Ends (fun _ rules s => I (kept ++ rules) [] s) J := by
  have hkeep {kept : List ρ} {r : ρ} {p : Pass ρ σ Unit}
      (hp : p.Ends (fun _ rules s => I (kept ++ [r] ++ rules) [] s) J) :
      (p.keep r).Ends (fun _ rules s => I (kept ++ rules) [] s) J := by
    refine Pass.Ends.keep ⟨hp.throws, fun b hb => ?_⟩
    have hrest := hp.returns b hb
    rwa [List.append_assoc] at hrest
  have hready {r : ρ} {asked : Bool} (hready : pollReady t poll.revents r asked = true) :
      asked = true := (Bool.and_eq_true .. ▸ hready).1
  fun_induction EventLoop.dispatch t poll.revents answers todo s generalizing kept with
  | case1 s =>
      refine Pass.ends_return ?_
      rwa [List.append_nil]
  | case2 r asked rest s herror => exact Pass.ends_throw (h.error hI herror)
  | case3 r asked rest s _ hhup e s' hcancel =>
      simp only [Bool.and_eq_true] at hhup
      obtain rfl : asked = true := hhup.1.2
      exact Pass.ends_throw (h.hungUp_throws hI hhup.1.1 hcancel)
  | case4 r asked rest s _ hhup _ s' hcancel ih =>
      simp only [Bool.and_eq_true] at hhup
      obtain rfl : asked = true := hhup.1.2
      exact (ih (h.hungUp hI hhup.1.1 hcancel)).after _
  | case5 r asked rest s _ _ hasked e s' hcallback =>
      obtain rfl := hready hasked
      exact Pass.ends_throw (h.called_throws hI hcallback)
  | case6 r asked rest s _ _ hasked _ s' hcallback e hbusy =>
      obtain rfl := hready hasked
      obtain ⟨hcount, hinterest⟩ := busyWait_cases hbusy fun h => by cases h
      exact Pass.ends_throw (h.busy_throws hI hcallback hcount hinterest)
  | case7 r asked rest s _ _ hasked _ s' hcallback hbusy =>
      obtain rfl := hready hasked
      obtain ⟨hcount, hinterest⟩ := busyWait_cases hbusy fun h => by cases h
      exact Pass.ends_throw (h.busy hI hcallback hcount hinterest)
  | case8 r asked rest s _ _ hasked _ s' hcallback _ ih =>
      obtain rfl := hready hasked
      exact (hkeep (ih (h.called hI hcallback))).after _
  | case9 r asked rest s _ _ _ ih => exact hkeep (ih (h.passed hI))

end Contract

/-- How a call of `wait_next_event` ends: the first loop throws; there is nothing to do behind it;
or the second loop is run. -/
inductive Waited (t : RuleTable ρ σ α) (poll : Poll ρ) (answers : ρ → α) (loop : EventLoop ρ)
    (s : σ) : Except String Result × EventLoop ρ × σ → Prop
  | threw (e : String) (h : (setUp t loop.rules s).result = .error e) :
      Waited t poll answers loop s (.error e,
        ⟨(setUp t loop.rules s).rules, loop.calls ++ (setUp t loop.rules s).calls⟩,
        (setUp t loop.rules s).state)
  | waited (polled : List (ρ × Bool)) (result : Result)
      (h : (setUp t loop.rules s).result = .ok polled)
      (hexit : result = .exit → poll = .interrupted ∨ ∀ p ∈ polled, p.2 = false) :
      Waited t poll answers loop s (.ok result,
        ⟨(setUp t loop.rules s).rules, loop.calls ++ (setUp t loop.rules s).calls⟩,
        (setUp t loop.rules s).state)
  | dispatched (polled : List (ρ × Bool)) (called : Pass ρ σ Unit)
      (h : (setUp t loop.rules s).result = .ok polled)
      (hcalled : called = dispatch t poll.revents answers polled (setUp t loop.rules s).state) :
      Waited t poll answers loop s (called.result.map fun _ => .success,
        ⟨called.rules, loop.calls ++ (setUp t loop.rules s).calls ++ called.calls⟩, called.state)

/-- How a call ends. -/
theorem waited (t : RuleTable ρ σ α) (poll : Poll ρ) (answers : ρ → α) (loop : EventLoop ρ)
    (s : σ) : Waited t poll answers loop s (waitNextEvent t poll answers loop s) := by
  simp only [waitNextEvent]
  cases hresult : (setUp t loop.rules s).result with
  | error e => exact .threw e hresult
  | ok polled =>
      simp only
      split
      · split
        · exact .waited polled _ hresult fun h => by cases h
        · exact .waited polled _ hresult fun _ => Or.inl rfl
        · exact .dispatched polled _ hresult rfl
        · exact .dispatched polled _ hresult rfl
      · rename_i hnone
        refine .waited polled _ hresult fun _ => Or.inr fun p hp => ?_
        by_contra hp2
        exact hnone (List.any_eq_true.mpr ⟨p, hp, Bool.eq_true_of_not_eq_false hp2⟩)

namespace Contract

variable {poll : Poll ρ} {answers : ρ → α} {K I : List ρ → List (ρ × Bool) → σ → Prop}
  {L : List ρ → σ → Prop} {J : ρ → List (Call ρ) → String → σ → Prop} {loop : EventLoop ρ} {s : σ}

/-- A call that returns. -/
theorem returns (h : Contract t poll answers K I L J) (hK : K loop.rules [] s) {result : Result}
    (hok : (waitNextEvent t poll answers loop s).1 = .ok result) :
    L (waitNextEvent t poll answers loop s).2.1.rules
      (waitNextEvent t poll answers loop s).2.2 := by
  have hasked := h.setUp hK
  cases hwaited : waitNextEvent t poll answers loop s with
  | mk returned rest =>
      have hcases := EventLoop.waited t poll answers loop s
      rw [hwaited] at hok hcases
      cases hcases with
      | threw e he => cases hok
      | waited polled _ hpolled =>
          rw [rules_setUp hpolled]
          exact (h.polled (hasked.returns polled hpolled)).2
      | dispatched polled called hpolled hcalled =>
          have hcall := h.dispatch (h.polled (hasked.returns polled hpolled)).1
          rw [List.nil_append, ← hcalled] at hcall
          cases hresult : called.result with
          | error e =>
              rw [hresult] at hok
              cases hok
          | ok _ => exact h.finished (hcall.returns _ hresult)

/-- A call that throws stops at a rule, which is left. -/
theorem throws (h : Contract t poll answers K I L J) (hK : K loop.rules [] s) {e : String}
    (he : (waitNextEvent t poll answers loop s).1 = .error e) :
    ∃ r ∈ (waitNextEvent t poll answers loop s).2.1.rules,
      ∃ last, last <:+ (waitNextEvent t poll answers loop s).2.1.calls ∧
        J r last e (waitNextEvent t poll answers loop s).2.2 := by
  have hasked := h.setUp hK
  cases hwaited : waitNextEvent t poll answers loop s with
  | mk returned rest =>
      have hcases := EventLoop.waited t poll answers loop s
      rw [hwaited] at he hcases
      cases hcases with
      | threw e' hthrew =>
          cases he
          obtain ⟨r, hr, last, hlast, hJ⟩ := hasked.throws e hthrew
          exact ⟨r, hr, last, hlast.trans (List.suffix_append _ _), hJ⟩
      | waited => cases he
      | dispatched polled called hpolled hcalled =>
          have hcall := h.dispatch (h.polled (hasked.returns polled hpolled)).1
          rw [List.nil_append, ← hcalled] at hcall
          cases hresult : called.result with
          | ok _ =>
              rw [hresult] at he
              cases he
          | error e' =>
              rw [hresult] at he
              cases he
              obtain ⟨r, hr, last, hlast, hJ⟩ := hcall.throws e hresult
              exact ⟨r, hr, last, hlast.trans (List.suffix_append _ _), hJ⟩

/-- `Exit` is returned when no rule is interested, or when a signal has arrived. -/
theorem exits (h : Contract t poll answers K I L J) (hK : K loop.rules [] s)
    (hexit : (waitNextEvent t poll answers loop s).1 = .ok .exit) :
    poll = .interrupted ∨ ∃ polled, K [] polled (waitNextEvent t poll answers loop s).2.2 ∧
      (waitNextEvent t poll answers loop s).2.1.rules = polled.map Prod.fst ∧
      ∀ p ∈ polled, p.2 = false := by
  have hasked := h.setUp hK
  cases hwaited : waitNextEvent t poll answers loop s with
  | mk returned rest =>
      have hcases := EventLoop.waited t poll answers loop s
      rw [hwaited] at hexit hcases
      cases hcases with
      | threw e he => cases hexit
      | waited polled result hpolled hreason =>
          cases hexit
          exact (hreason rfl).imp_right fun hnone =>
            ⟨polled, hasked.returns polled hpolled, rules_setUp hpolled, hnone⟩
      | dispatched polled called =>
          cases hresult : called.result with
          | error e =>
              rw [hresult] at hexit
              cases hexit
          | ok _ =>
              rw [hresult] at hexit
              cases hexit

end Contract

/-! ## Exceptions -/

/-- A system call that a callback makes, with the amount that it asks for and the answer. -/
inductive Request where
  | read (limit : Nat) (answer : Except String (List Byte))
  | write (size : Nat) (answer : Except String Nat)
  | perform (answer : Except String Unit)

/-- The system call has failed or has not kept its contract, and `e` says so. -/
inductive Request.Fault (e : String) : Request → Prop
  | read {limit : Nat} {answer : Except String (List Byte)}
      (h : FileDescriptor.ReadFault limit answer e) : Fault e (.read limit answer)
  | write {size : Nat} {answer : Except String Nat}
      (h : FileDescriptor.WriteFault size answer e) : Fault e (.write size answer)
  | perform : Fault e (.perform (.error e))

section Faults

variable (t : RuleTable ρ σ α) (requests : ρ → α → σ → List Request) (poll : Poll ρ)
  (answers : ρ → α)

/-- Why the kernel is at fault for an exception `e` at the rule `r`, with the last calls of the loop
and the state behind it: a system call that the callback made, in the state in which it was called,
has failed or has not kept its contract; or `poll` reports an error for the descriptor of the
rule. -/
inductive RuleFault (r : ρ) (e : String) : List (Call ρ) → σ → Prop
  | request (s s' : σ) (hcall : t.callback r (answers r) s = (.error e, s')) (request : Request)
      (hrequest : request ∈ requests r (answers r) s) (hfault : request.Fault e) :
      RuleFault r e [.callback r] s'
  | poll (s : σ) (herror : ((poll.revents r).pollerr || (poll.revents r).pollnval) = true)
      (he : e = "EventLoop: error on polled file descriptor") : RuleFault r e [] s

/-- The kernel is at fault, at a rule of the loop, for an exception `e` of `wait_next_event`.  The
callback of a rule makes the system calls `requests`. -/
def KernelFault (loop : EventLoop ρ) (s : σ) (e : String) : Prop :=
  ∃ r ∈ (waitNextEvent t poll answers loop s).2.1.rules,
    ∃ last, last <:+ (waitNextEvent t poll answers loop s).2.1.calls ∧
      RuleFault t requests poll answers r e last (waitNextEvent t poll answers loop s).2.2

end Faults

end EventLoop
end Sponge
