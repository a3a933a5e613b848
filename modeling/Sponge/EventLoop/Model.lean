import Sponge.FileDescriptor
import Sponge.Library.Execution

/-!
# The event loop

`EventLoop` of `libsponge/util/eventloop.{hh,cc}`.  A rule has a descriptor, a direction and
three functions: `interest` says whether the descriptor is to be polled, `callback` is called
when it is ready, and `cancel` when the rule is erased because its descriptor is of no more use.

Rules are known by names, and a table says what their functions do to the state that they share.
What `poll` reports and what the kernel answers to the calls that a callback makes are inputs.
The loop records the callbacks and the cancellations that it has made.
-/

namespace Sponge

open Library

/-- `EventLoop::Direction`. -/
inductive Direction where
  | input
  | output
deriving DecidableEq, Repr

/-- What `poll` reports for a descriptor: the bits of `revents`. -/
structure Revents where
  pollin : Bool := false
  pollout : Bool := false
  pollerr : Bool := false
  pollhup : Bool := false
  pollnval : Bool := false
deriving DecidableEq, Repr

/-- `revents & events`, for a rule with that direction. -/
def Revents.has (r : Revents) : Direction → Bool
  | .input => r.pollin
  | .output => r.pollout

/-- What the rules named `ρ` do to a state `σ`.  `α` is what the kernel answers to the calls that
a callback makes.  Each of the three functions of a rule may throw.  `interest` only looks at the
state, and no function of a rule adds a rule: in the second loop of `wait_next_event`, a rule that
was added since the first one would be looked up behind the end of `pollfds`. -/
structure RuleTable (ρ σ α : Type) where
  direction : ρ → Direction
  /-- The descriptor of a rule. -/
  fd : ρ → σ → FileDescriptor
  callback : ρ → α → σ → Except String Unit × σ
  interest : ρ → σ → Except String Bool
  cancel : ρ → σ → Except String Unit × σ

/-- `Rule::service_count()`. -/
def RuleTable.serviceCount {ρ σ α : Type} (t : RuleTable ρ σ α) (r : ρ) (s : σ) : UInt32 :=
  match t.direction r with
  | .input => (t.fd r s).readCount
  | .output => (t.fd r s).writeCount

namespace EventLoop

/-- `EventLoop::Result`. -/
inductive Result where
  | success
  | timeout
  | exit
deriving DecidableEq, Repr

/-- A call that the loop has made.  A `cancel` that throws leaves its rule in the loop. -/
inductive Call (ρ : Type) where
  | callback (r : ρ)
  | cancel (r : ρ)
  | failedCancel (r : ρ)
deriving DecidableEq, Repr

/-- What `poll` returns: zero, an error that is `EINTR`, another error, or what it reports for
each rule. -/
inductive Poll (ρ : Type) where
  | timeout
  | interrupted
  | failed
  | ready (revents : ρ → Revents)

instance {ρ : Type} : ∀ poll : Poll ρ, Decidable (poll = .interrupted)
  | .timeout => isFalse fun h => by cases h
  | .interrupted => isTrue rfl
  | .failed => isFalse fun h => by cases h
  | .ready _ => isFalse fun h => by cases h

end EventLoop

/-- `EventLoop`: the rules that have been added and not cancelled, and the calls so far. -/
structure EventLoop (ρ : Type) where
  rules : List ρ := []
  calls : List (EventLoop.Call ρ) := []

namespace EventLoop

variable {ρ σ α : Type}

/-- `add_rule(..)`. -/
def addRule (loop : EventLoop ρ) (r : ρ) : EventLoop ρ :=
  { loop with rules := loop.rules ++ [r] }

/-- A rule whose descriptor is of no more use: it is to be read and at its end, or it was
closed. -/
def Spent (t : RuleTable ρ σ α) (r : ρ) (s : σ) : Prop :=
  t.direction r = .input ∧ (t.fd r s).eof = true ∨ (t.fd r s).closed = true

instance (t : RuleTable ρ σ α) (r : ρ) (s : σ) : Decidable (Spent t r s) :=
  inferInstanceAs (Decidable (_ ∧ _ ∨ _))

/-- A rule with an open descriptor is spent only if it reads, and has come to the end. -/
theorem Spent.of_open {t : RuleTable ρ σ α} {r : ρ} {s : σ} (h : Spent t r s)
    (hopen : (t.fd r s).closed = false) : t.direction r = .input ∧ (t.fd r s).eof = true :=
  h.resolve_right (Bool.eq_false_iff.mp hopen)

/-- How a walk along the rules ends: what it returns, the rules that are left, the calls that it
has made, and the state. -/
structure Pass (ρ σ β : Type) where
  result : Except String β
  rules : List ρ
  calls : List (Call ρ)
  state : σ

namespace Pass

variable {β γ : Type}

/-- The walk that makes a call first. -/
def after (p : Pass ρ σ β) (call : Call ρ) : Pass ρ σ β :=
  { p with calls := call :: p.calls }

/-- The walk that keeps a rule first. -/
def keep (p : Pass ρ σ β) (r : ρ) : Pass ρ σ β :=
  { p with rules := r :: p.rules }

/-- The walk that returns something else. -/
def map (p : Pass ρ σ β) (f : β → γ) : Pass ρ σ γ :=
  { p with result := p.result.map f }

end Pass

/-- The first loop of `wait_next_event`, which returns the rules that are left and whether their
descriptors are polled. -/
def setUp (t : RuleTable ρ σ α) : List ρ → σ → Pass ρ σ (List (ρ × Bool))
  | [], s => ⟨.ok [], [], [], s⟩
  | r :: rules, s =>
      if Spent t r s then
        match t.cancel r s with
        | (.error e, s) => ⟨.error e, r :: rules, [.failedCancel r], s⟩
        | (.ok _, s) => (setUp t rules s).after (.cancel r)
      else
        match t.interest r s with
        | .error e => ⟨.error e, r :: rules, [], s⟩
        | .ok interested => ((setUp t rules s).keep r).map ((r, interested) :: ·)

/-- Whether a callback has left its descriptor alone and is still interested. -/
def busyWait (t : RuleTable ρ σ α) (r : ρ) (countBefore : UInt32) (s : σ) : Except String Bool :=
  if countBefore = t.serviceCount r s then t.interest r s else .ok false

/-- The text of the exception for a busy wait. -/
def busyWaitError : String :=
  "EventLoop: busy wait detected: callback did not read/write fd and is still interested"

/-- `poll_ready`: what was asked for has happened. -/
def pollReady (t : RuleTable ρ σ α) (revents : ρ → Revents) (r : ρ) (polled : Bool) : Bool :=
  polled && (revents r).has (t.direction r)

/-- The second loop of `wait_next_event`. -/
def dispatch (t : RuleTable ρ σ α) (revents : ρ → Revents) (answers : ρ → α) :
    List (ρ × Bool) → σ → Pass ρ σ Unit
  | [], s => ⟨.ok (), [], [], s⟩
  | (r, polled) :: rest, s =>
      if (revents r).pollerr || (revents r).pollnval then
        ⟨.error "EventLoop: error on polled file descriptor", r :: rest.map Prod.fst, [], s⟩
      else if (revents r).pollhup && polled && !pollReady t revents r polled then
        match t.cancel r s with
        | (.error e, s) => ⟨.error e, r :: rest.map Prod.fst, [.failedCancel r], s⟩
        | (.ok _, s) => (dispatch t revents answers rest s).after (.cancel r)
      else if pollReady t revents r polled then
        match t.callback r (answers r) s with
        | (.error e, s') => ⟨.error e, r :: rest.map Prod.fst, [.callback r], s'⟩
        | (.ok _, s') =>
            match busyWait t r (t.serviceCount r s) s' with
            | .error e => ⟨.error e, r :: rest.map Prod.fst, [.callback r], s'⟩
            | .ok true => ⟨.error busyWaitError, r :: rest.map Prod.fst, [.callback r], s'⟩
            | .ok false => ((dispatch t revents answers rest s').keep r).after (.callback r)
      else (dispatch t revents answers rest s).keep r

/-- `wait_next_event(timeout_ms)`.  An error of `poll` other than `EINTR` is swallowed, and no
bit of `revents` is set then. -/
def waitNextEvent (t : RuleTable ρ σ α) (poll : Poll ρ) (answers : ρ → α) (loop : EventLoop ρ)
    (s : σ) : Except String Result × EventLoop ρ × σ :=
  let asked := setUp t loop.rules s
  let loop : EventLoop ρ := ⟨asked.rules, loop.calls ++ asked.calls⟩
  match asked.result with
  | .error e => (.error e, loop, asked.state)
  | .ok polled =>
      let dispatched (revents : ρ → Revents) : Except String Result × EventLoop ρ × σ :=
        let called := dispatch t revents answers polled asked.state
        (called.result.map fun _ => .success, ⟨called.rules, loop.calls ++ called.calls⟩,
          called.state)
      if polled.any Prod.snd then
        match poll with
        | .timeout => (.ok .timeout, loop, asked.state)
        | .interrupted => (.ok .exit, loop, asked.state)
        | .failed => dispatched fun _ => {}
        | .ready revents => dispatched revents
      else (.ok .exit, loop, asked.state)

end EventLoop
end Sponge
