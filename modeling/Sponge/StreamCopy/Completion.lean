import Sponge.StreamCopy.Safety

/-!
# When the copy has ended

The loop returns when no rule is interested any more.  As long as the far ends do not hang up, this
happens only when both near ends are exhausted and everything was written: the loop neither stops
early nor loses a byte.

Main results:

- Theorem {lit}`Complete.callback`: what a rule keeps.
- Theorem {lit}`copy_complete`: when `bidirectional_stream_copy` has returned, everything has been
  copied.
-/

namespace Sponge

open Library

/-! ## Lanes -/

/-- A lane without losses: its stream is ended when `done` holds, and its far end is shut down when
the stream is at its end. -/
structure Lane.Exact (lane : Lane) (done : Prop) : Prop where
  error_eq : lane.stream.error = false
  capacity_eq : lane.stream.capacity = StreamCopy.bufferSize
  exact_eq : lane.given ++ lane.stream.contents = lane.taken
  ended_iff : lane.stream.inputEnded = true ↔ done
  shut : lane.shutdown = true → lane.stream.eof = true

/-- Everything that was read has been written, and the far end was shut down. -/
structure Lane.Finished (lane : Lane) : Prop where
  given_eq : lane.given = lane.taken
  shut : lane.shutdown = true

namespace Lane.Exact

variable {lane : Lane} {done done' : Prop}

theorem congr (h : lane.Exact done) (hdone : done ↔ done') : lane.Exact done' :=
  ⟨h.error_eq, h.capacity_eq, h.exact_eq, h.ended_iff.trans hdone, h.shut⟩

/-- To cancel a rule of a lane that is done does nothing. -/
theorem cancel_eq (h : lane.Exact done) (hdone : done) : lane.cancel = lane := by
  have hended : lane.stream.endInput = lane.stream := by
    unfold ByteStream.endInput
    rw [← h.ended_iff.mpr hdone]
  rw [Lane.cancel, hended]

/-- A stream is ended. -/
theorem cancel (h : lane.Exact done) (hdone : done') : lane.cancel.Exact done' where
  error_eq := h.error_eq
  capacity_eq := h.capacity_eq
  exact_eq := h.exact_eq
  ended_iff := ⟨fun _ => hdone, fun _ => rfl⟩
  shut hshut := by
    have heof := h.shut hshut
    rw [ByteStream.eof, Bool.and_eq_true] at heof
    exact heof.2

/-- Writing keeps a lane exact. -/
theorem pop (h : lane.Exact done) (n : Nat) : (lane.pop n).Exact done where
  error_eq := h.error_eq
  capacity_eq := h.capacity_eq
  exact_eq := (given_append_contents_pop lane n).trans h.exact_eq
  ended_iff := h.ended_iff
  shut hshut := by
    have heof := h.shut hshut
    rw [ByteStream.eof, Bool.and_eq_true, ByteStream.bufferEmpty_iff] at heof ⊢
    refine ⟨heof.1, ?_⟩
    change (lane.stream.popOutput n).contents = []
    rw [ByteStream.contents_popOutput, heof.2, List.drop_nil]

/-- Reading what fits keeps a lane exact. -/
theorem push (h : lane.Exact done) (hgoing : ¬ done) {data : List Byte}
    (hle : data.length ≤ lane.stream.remainingCapacity) {eof : Bool} (hdone : done' ↔ eof = true) :
    (lane.push data eof).Exact done' := by
  have hended : lane.stream.inputEnded = false :=
    Bool.eq_false_iff.mpr fun htrue => hgoing (h.ended_iff.mp htrue)
  have hcontents := lane.contents_push hle eof
  rw [hended, if_neg (by decide)] at hcontents
  refine ⟨?_, ?_, ?_, ?_, fun hshut => ?_⟩
  · cases eof <;> exact h.error_eq
  · cases eof <;> exact h.capacity_eq
  · rw [hcontents, ← List.append_assoc]
    exact congrArg (· ++ data) h.exact_eq
  · rw [inputEnded_push, hended, Bool.or_false]
    exact hdone.symm
  · have heof := h.shut hshut
    rw [ByteStream.eof, hended] at heof
    cases heof

/-- A rule that reads, if its descriptor is not at its end. -/
theorem fill {fd : FileDescriptor} {a : CopyAnswers} {gone : Prop}
    (h : lane.Exact (gone ∨ fd.eof = true)) (hgone : ¬ gone) (heof : fd.eof = false)
    (hok : (lane.fill fd a).1 = .ok ()) :
    (lane.fill fd a).2.2.Exact (gone ∨ (lane.fill fd a).2.1.eof = true) ∧
      (lane.fill fd a).2.1.closed = fd.closed ∧
      (lane.fill fd a).2.2.shutdown = lane.shutdown := by
  rcases lane.fill_cases fd a with ⟨e, -, heq⟩ | ⟨data, eof, hle, -, heq⟩
  · rw [heq] at hok
    cases hok
  · rw [heq]
    refine ⟨h.push (fun hdone => ?_) hle ⟨fun hdone => ?_, Or.inr⟩, rfl, rfl⟩
    · rcases hdone with hdone | hdone
      · exact hgone hdone
      · rw [heof] at hdone
        cases hdone
    · exact hdone.resolve_left hgone

/-- A rule that writes. -/
theorem drain {fd : FileDescriptor} {a : CopyAnswers} {gone : Prop}
    {finished : FileDescriptor → FileDescriptor} (h : lane.Exact gone)
    (hok : (lane.drain finished fd a).1 = .ok ()) :
    (lane.drain finished fd a).2.2.Exact gone ∧
      (lane.shutdown = true → (lane.drain finished fd a).2.2.shutdown = true) ∧
      ((lane.drain finished fd a).2.1 = fd.registerWrite ∨
        (lane.drain finished fd a).2.1 = finished fd.registerWrite ∧
          (lane.drain finished fd a).2.2.shutdown = true) := by
  rcases lane.drain_cases finished fd a with
    ⟨e, taken, -, -, heq⟩ | ⟨n, ⟨heof, ⟨e, -, heq⟩ | heq⟩ | ⟨-, heq⟩⟩
  · rw [heq] at hok
    cases hok
  · rw [heq] at hok
    cases hok
  · rw [heq]
    have hpop := h.pop n
    exact ⟨⟨hpop.error_eq, hpop.capacity_eq, hpop.exact_eq, hpop.ended_iff, fun _ => heof⟩,
      fun _ => rfl, Or.inr ⟨rfl, rfl⟩⟩
  · rw [heq]
    exact ⟨h.pop n, id, Or.inl rfl⟩

/-- A lane whose rules have nothing to do. -/
theorem finished {other : Lane} (gone : Prop) (h : lane.Exact done)
    (hother : other.stream.error = false) (hread : ¬ gone → lane.hasRoom other = false)
    (hdone : gone → done) (hwrite : lane.hasWork = false ∨ lane.shutdown = true) :
    lane.Finished := by
  have hempty : lane.stream.contents = [] := by
    rcases hwrite with hwork | hshut
    · rw [Lane.hasWork, Bool.or_eq_false_iff, Bool.not_eq_false'] at hwork
      exact (ByteStream.bufferEmpty_iff _).mp hwork.1
    · have heof := h.shut hshut
      rw [ByteStream.eof, Bool.and_eq_true, ByteStream.bufferEmpty_iff] at heof
      exact heof.2
  have hroom : lane.hasRoom other = true := by
    have hsum := lane.stream.bufferSize_add_remainingCapacity
    rw [← lane.stream.length_contents, hempty, h.capacity_eq, List.length_nil, Nat.zero_add] at hsum
    rw [Lane.hasRoom, h.error_eq, hother, hsum]
    decide
  have hended : lane.stream.inputEnded = true := by
    refine h.ended_iff.mpr (hdone ?_)
    by_contra hgone
    rw [hread hgone] at hroom
    cases hroom
  have heof : lane.stream.eof = true := by
    rw [ByteStream.eof, hended, (ByteStream.bufferEmpty_iff _).mpr hempty]
    rfl
  refine ⟨?_, hwrite.elim (fun hwork => ?_) id⟩
  · rw [← h.exact_eq, hempty, List.append_nil]
  · rw [Lane.hasWork, Bool.or_eq_false_iff, heof, Bool.true_and] at hwork
    exact (Bool.not_eq_false' _).mp hwork.2

end Lane.Exact

namespace StreamCopy

/-! ## The loop -/

/-- Nothing has been lost while `left` are the rules that are left. -/
structure Complete (left : List CopyRule) (s : StreamCopy) : Prop where
  order : left.Sublist CopyRule.all
  outbound : s.outbound.Exact (.readInput ∉ left ∨ s.input.eof = true)
  inbound : s.inbound.Exact (.readSocket ∉ left ∨ s.socket.eof = true)
  input_open : s.input.closed = false
  socket_open : s.socket.closed = false
  output_closed : s.output.closed = true → s.inbound.shutdown = true
  socket_rule : .writeSocket ∈ left
  output_rule : .writeOutput ∈ left ∨ s.inbound.shutdown = true

variable {s : StreamCopy} {left right : List CopyRule} {r : CopyRule}

/-- A rule stands in the list once. -/
theorem not_mem_of_order (h : (left ++ r :: right).Sublist CopyRule.all) : r ∉ left ++ right := by
  have hnodup : (left ++ r :: right).Nodup := h.nodup (by decide)
  exact (List.nodup_cons.mp (List.nodup_middle.mp hnodup)).1

theorem mem_middle_of_ne {r' : CopyRule} (hne : r' ≠ r) :
    r' ∈ left ++ r :: right ↔ r' ∈ left ++ right := by
  simp [hne]

theorem order_middle (h : (left ++ r :: right).Sublist CopyRule.all) :
    (left ++ right).Sublist CopyRule.all :=
  ((List.sublist_cons_self r right).append_left left).trans h

/-- A rule goes whose lane does not need it. -/
theorem Complete.remove (h : Complete (left ++ r :: right) s) (hwrite : r ≠ .writeSocket)
    (hinput : r = .readInput → s.input.eof = true) (hsocket : r = .readSocket → s.socket.eof = true)
    (houtput : r = .writeOutput → s.inbound.shutdown = true) : Complete (left ++ right) s := by
  refine ⟨order_middle h.order, h.outbound.congr ?_, h.inbound.congr ?_, h.input_open,
    h.socket_open, h.output_closed, (mem_middle_of_ne hwrite.symm).mp h.socket_rule, ?_⟩
  · by_cases hr : r = .readInput
    · simp [hinput hr]
    · rw [mem_middle_of_ne (Ne.symm hr)]
  · by_cases hr : r = .readSocket
    · simp [hsocket hr]
    · rw [mem_middle_of_ne (Ne.symm hr)]
  · by_cases hr : r = .writeOutput
    · exact Or.inr (houtput hr)
    · exact h.output_rule.imp_left (mem_middle_of_ne (Ne.symm hr)).mp

/-- A rule whose descriptor is of no more use is cancelled without effect. -/
theorem Complete.cancel_spent (h : Complete (left ++ r :: right) s)
    (hspent : EventLoop.Spent rules r s) :
    cancelled r s = s ∧ Complete (left ++ right) s := by
  cases r with
  | readInput =>
      have heof : s.input.eof = true := (hspent.of_open h.input_open).2
      refine ⟨?_, h.remove (by decide) (fun _ => heof) (by simp) (by simp)⟩
      change { s with outbound := s.outbound.cancel } = s
      rw [h.outbound.cancel_eq (Or.inr heof)]
  | writeSocket => cases (hspent.of_open h.socket_open).1
  | readSocket =>
      have heof : s.socket.eof = true := (hspent.of_open h.socket_open).2
      refine ⟨?_, h.remove (by decide) (by simp) (fun _ => heof) (by simp)⟩
      change { s with inbound := s.inbound.cancel } = s
      rw [h.inbound.cancel_eq (Or.inr heof)]
  | writeOutput =>
      have hshut : s.inbound.shutdown = true :=
        h.output_closed (hspent.resolve_left fun hinput => by cases hinput.1)
      have hended : s.inbound.stream.inputEnded = true := by
        have heof := h.inbound.shut hshut
        rw [ByteStream.eof, Bool.and_eq_true] at heof
        exact heof.1
      refine ⟨?_, h.remove (by decide) (by simp) (by simp) (fun _ => hshut)⟩
      change { s with inbound := s.inbound.cancel } = s
      rw [h.inbound.cancel_eq (h.inbound.ended_iff.mp hended)]

/-- A near end hangs up. -/
theorem Complete.cancel_hup (h : Complete (left ++ r :: right) s)
    (hr : r = .readInput ∨ r = .readSocket) : Complete (left ++ right) (cancelled r s) := by
  have hgone := not_mem_of_order h.order
  have horder := order_middle h.order
  rcases hr with rfl | rfl
  · refine ⟨horder, ?_, ?_, h.input_open, h.socket_open, h.output_closed, ?_, ?_⟩
    · exact h.outbound.cancel (Or.inl hgone)
    · exact h.inbound.congr (by rw [mem_middle_of_ne (by decide)]; rfl)
    · exact (mem_middle_of_ne (by decide)).mp h.socket_rule
    · exact h.output_rule.imp_left (mem_middle_of_ne (by decide)).mp
  · refine ⟨horder, ?_, ?_, h.input_open, h.socket_open, h.output_closed, ?_, ?_⟩
    · exact h.outbound.congr (by rw [mem_middle_of_ne (by decide)]; rfl)
    · exact h.inbound.cancel (Or.inl hgone)
    · exact (mem_middle_of_ne (by decide)).mp h.socket_rule
    · exact h.output_rule.imp_left (mem_middle_of_ne (by decide)).mp

/-- What a rule that returns leaves of the descriptors. -/
structure Kept (r : CopyRule) (s s' : StreamCopy) : Prop where
  input_eof : r ≠ .readInput → s'.input.eof = s.input.eof
  socket_eof : r ≠ .readSocket → s'.socket.eof = s.socket.eof

/-- What a rule keeps that returns. -/
theorem Complete.callback (h : Complete left s) (hmem : r ∈ left)
    (hinput : r = .readInput → s.input.eof = false)
    (hsocket : r = .readSocket → s.socket.eof = false) {a : CopyAnswers}
    (hok : (rules.callback r a s).1 = .ok ()) :
    Complete left (rules.callback r a s).2 ∧ Kept r s (rules.callback r a s).2 := by
  cases r with
  | readInput =>
      obtain ⟨hlane, hclosed, -⟩ := h.outbound.fill (not_not.mpr hmem) (hinput rfl) hok
      exact ⟨⟨h.order, hlane, h.inbound, hclosed.trans h.input_open, h.socket_open,
        h.output_closed, h.socket_rule, h.output_rule⟩, fun hne => absurd rfl hne, fun _ => rfl⟩
  | writeSocket =>
      obtain ⟨hlane, -, hfd⟩ := h.outbound.drain hok
      have hkeeps : (s.outbound.drain FileDescriptor.registerWrite s.socket a).2.1.closed =
          s.socket.closed ∧
          (s.outbound.drain FileDescriptor.registerWrite s.socket a).2.1.eof = s.socket.eof := by
        rcases hfd with hfd | ⟨hfd, -⟩
        · rw [hfd]
          exact ⟨rfl, rfl⟩
        · rw [hfd]
          exact ⟨rfl, rfl⟩
      refine ⟨⟨h.order, hlane, ?_, h.input_open, hkeeps.1.trans h.socket_open,
        h.output_closed, h.socket_rule, h.output_rule⟩, fun _ => rfl, fun _ => hkeeps.2⟩
      exact h.inbound.congr (by
        change _ ↔ _ ∨ (s.outbound.drain FileDescriptor.registerWrite s.socket a).2.1.eof = true
        rw [hkeeps.2])
  | readSocket =>
      obtain ⟨hlane, hclosed, hshut⟩ := h.inbound.fill (not_not.mpr hmem) (hsocket rfl) hok
      refine ⟨⟨h.order, h.outbound, hlane, h.input_open, hclosed.trans h.socket_open,
        fun hout => ?_, h.socket_rule, ?_⟩, fun _ => rfl, fun hne => absurd rfl hne⟩
      · exact hshut.trans (h.output_closed hout)
      · exact h.output_rule.imp_right hshut.trans
  | writeOutput =>
      obtain ⟨hlane, hshut, hfd⟩ := h.inbound.drain hok
      refine ⟨⟨h.order, h.outbound, hlane, h.input_open, h.socket_open, fun hclosed => ?_,
        h.socket_rule, h.output_rule.imp_right hshut⟩, fun _ => rfl, fun _ => rfl⟩
      rcases hfd with hfd | ⟨-, hdone⟩
      · refine hshut (h.output_closed ?_)
        change (s.inbound.drain FileDescriptor.close s.output a).2.1.closed = true at hclosed
        rw [hfd] at hclosed
        exact hclosed
      · exact hdone

/-- Along the first loop of `wait_next_event`. -/
structure Asking (todo : List CopyRule) (done : List (CopyRule × Bool)) (s : StreamCopy) :
    Prop where
  complete : Complete (done.map Prod.fst ++ todo) s
  asked : ∀ r answer, (r, answer) ∈ done → interested r s = answer
  live : ∀ r ∈ done.map Prod.fst, ¬ EventLoop.Spent rules r s

/-- Along the second loop. -/
structure Dispatching (kept : List CopyRule) (todo : List (CopyRule × Bool)) (s : StreamCopy) :
    Prop where
  complete : Complete (kept ++ todo.map Prod.fst) s
  input : .readInput ∈ todo.map Prod.fst → s.input.eof = false
  socket : .readSocket ∈ todo.map Prod.fst → s.socket.eof = false

variable {todo : List CopyRule} {done : List (CopyRule × Bool)}

/-- A rule whose descriptor is of no more use goes. -/
theorem Asking.cancel (ha : Asking (r :: todo) done s) (hspent : EventLoop.Spent rules r s) :
    Asking todo done (cancelled r s) := by
  obtain ⟨hsame, hcomplete⟩ := ha.complete.cancel_spent hspent
  rw [hsame]
  exact ⟨hcomplete, ha.asked, ha.live⟩

/-- A rule stays, with its interest. -/
theorem Asking.keep (ha : Asking (r :: todo) done s) (hlive : ¬ EventLoop.Spent rules r s) :
    Asking todo (done ++ [(r, interested r s)]) s where
  complete := by
    rw [List.map_append, List.append_assoc]
    exact ha.complete
  asked r' answer hmem := by
    rcases List.mem_append.mp hmem with hmem | hmem
    · exact ha.asked r' answer hmem
    · obtain ⟨rfl, rfl⟩ := Prod.mk.inj (List.mem_singleton.mp hmem)
      rfl
  live r' hmem := by
    rw [List.map_append, List.mem_append] at hmem
    rcases hmem with hmem | hmem
    · exact ha.live r' hmem
    · rw [List.mem_singleton.mp hmem]
      exact hlive

/-- The second loop begins. -/
theorem Asking.dispatching (ha : Asking [] done s) : Dispatching [] done s where
  complete := by
    have hcomplete := ha.complete
    rwa [List.append_nil] at hcomplete
  input hmem := by
    by_contra heof
    exact ha.live _ hmem (Or.inl ⟨rfl, Bool.eq_true_of_not_eq_false heof⟩)
  socket hmem := by
    by_contra heof
    exact ha.live _ hmem (Or.inl ⟨rfl, Bool.eq_true_of_not_eq_false heof⟩)

variable {kept : List CopyRule} {rest : List (CopyRule × Bool)}

/-- A rule is passed over. -/
theorem Dispatching.skip {asked : Bool} (hd : Dispatching kept ((r, asked) :: rest) s) :
    Dispatching (kept ++ [r]) rest s where
  complete := by
    rw [List.append_assoc]
    exact hd.complete
  input hmem := hd.input (List.mem_cons_of_mem _ hmem)
  socket hmem := hd.socket (List.mem_cons_of_mem _ hmem)

/-- A rule that reads goes when its descriptor has hung up. -/
theorem Dispatching.cancel (hd : Dispatching kept ((r, true) :: rest) s)
    (hr : r = .readInput ∨ r = .readSocket) : Dispatching kept rest (cancelled r s) := by
  have hcomplete := hd.complete.cancel_hup hr
  rcases hr with rfl | rfl
  · exact ⟨hcomplete, fun hmem => hd.input (List.mem_cons_of_mem _ hmem),
      fun hmem => hd.socket (List.mem_cons_of_mem _ hmem)⟩
  · exact ⟨hcomplete, fun hmem => hd.input (List.mem_cons_of_mem _ hmem),
      fun hmem => hd.socket (List.mem_cons_of_mem _ hmem)⟩

/-- A callback returns. -/
theorem Dispatching.callback (hd : Dispatching kept ((r, true) :: rest) s) {a : CopyAnswers}
    (hok : (rules.callback r a s).1 = .ok ()) :
    Dispatching (kept ++ [r]) rest (rules.callback r a s).2 := by
  have hgone := not_mem_of_order hd.complete.order
  have hmem : r ∈ kept ++ ((r, true) :: rest).map Prod.fst :=
    List.mem_append_right _ List.mem_cons_self
  obtain ⟨hcomplete, hkept⟩ := hd.complete.callback hmem
    (fun hr => hd.input (hr ▸ List.mem_cons_self)) (fun hr => hd.socket (hr ▸ List.mem_cons_self))
    hok
  have hne {r' : CopyRule} (hmem : r' ∈ rest.map Prod.fst) : r ≠ r' := by
    rintro rfl
    exact hgone (List.mem_append_right _ hmem)
  refine ⟨?_, fun hmem => ?_, fun hmem => ?_⟩
  · rw [List.append_assoc]
    exact hcomplete
  · rw [hkept.input_eof (hne hmem)]
    exact hd.input (List.mem_cons_of_mem _ hmem)
  · rw [hkept.socket_eof (hne hmem)]
    exact hd.socket (List.mem_cons_of_mem _ hmem)

/-! ## The end -/

/-- No rule is interested. -/
theorem Complete.finished (h : Complete left s)
    (hnone : ∀ r ∈ left, interested r s = false) :
    s.outbound.Finished ∧ s.inbound.Finished := by
  constructor
  · exact h.outbound.finished (.readInput ∉ left) h.inbound.error_eq
      (fun hgone => hnone .readInput (not_not.mp hgone)) Or.inl
      (Or.inl (hnone .writeSocket h.socket_rule))
  · exact h.inbound.finished (.readSocket ∉ left) h.outbound.error_eq
      (fun hgone => hnone .readSocket (not_not.mp hgone)) Or.inl
      (h.output_rule.imp_left (hnone .writeOutput))

/-- No signal arrives, and `poll` reports no hangup of a far end. -/
def Round.Undisturbed (r : Round) : Prop :=
  r.poll ≠ .interrupted ∧ (r.poll.revents .writeSocket).pollhup = false ∧
    (r.poll.revents .writeOutput).pollhup = false

instance (r : Round) : Decidable r.Undisturbed := by
  unfold Round.Undisturbed
  infer_instance

/-- Nothing is lost along both loops of `wait_next_event`. -/
theorem complete_contract {x : Round} (hx : x.Undisturbed) :
    EventLoop.Contract rules x.poll x.answers Asking Dispatching Complete
      (fun _ _ _ _ => True) where
  spent ha hspent hcancel := by
    cases hcancel
    exact ha.cancel hspent
  spent_throws _ _ _ := trivial
  asked ha hlive hinterest := by
    cases hinterest
    exact ha.keep hlive
  asked_throws _ _ _ := trivial
  polled ha := by
    have hcomplete := ha.dispatching.complete
    exact ⟨ha.dispatching, by rwa [List.nil_append] at hcomplete⟩
  error _ _ := trivial
  passed hd := hd.skip
  hungUp {_ r _ _ _} hd hup hcancel := by
    cases hcancel
    refine hd.cancel ?_
    cases r with
    | readInput => exact Or.inl rfl
    | writeSocket => exact absurd hup (Bool.eq_false_iff.mp hx.2.1)
    | readSocket => exact Or.inr rfl
    | writeOutput => exact absurd hup (Bool.eq_false_iff.mp hx.2.2)
  hungUp_throws _ _ _ := trivial
  called {_ r _ s s'} hd hcallback := by
    have hcalled := hd.callback (a := x.answers r) (by rw [hcallback])
    rwa [hcallback] at hcalled
  called_throws _ _ := trivial
  busy _ _ _ _ := trivial
  busy_throws _ _ _ _ := trivial
  finished hd := by
    have hcomplete := hd.complete
    rwa [List.map_nil, List.append_nil] at hcomplete

/-- The first loop starts. -/
theorem Complete.asking (h : Complete left s) : Asking left [] s :=
  ⟨h, fun _ _ hmem => (by cases hmem), fun _ hmem => (by cases hmem)⟩

/-- A call of `wait_next_event` that returns `Exit`. -/
theorem Complete.exit {loop : EventLoop CopyRule} (h : Complete loop.rules s) {x : Round}
    (hx : x.Undisturbed)
    (hexit : (EventLoop.waitNextEvent rules x.poll x.answers loop s).1 = .ok .exit) :
    (EventLoop.waitNextEvent rules x.poll x.answers loop s).2.2.outbound.Finished ∧
      (EventLoop.waitNextEvent rules x.poll x.answers loop s).2.2.inbound.Finished := by
  rcases (complete_contract hx).exits h.asking hexit with hsignal | ⟨polled, ha, -, hnone⟩
  · exact absurd hsignal hx.1
  · refine ha.dispatching.complete.finished fun r hmem => ?_
    obtain ⟨⟨r', answer⟩, hpolled, rfl⟩ := List.mem_map.mp hmem
    rw [ha.asked r' answer hpolled]
    exact hnone _ hpolled

/-! ## Runs -/

/-- Nothing is lost while the loop runs, and everything is copied when it has returned. -/
structure Copying (x : Running) : Prop where
  complete : x.phase = .running → Complete x.eventloop.rules x.state
  finished : x.phase = .returned → x.state.outbound.Finished ∧ x.state.inbound.Finished

/-- Nothing is lost at the start. -/
theorem copying_start : Copying start where
  complete _ := by
    have hlane {done : Prop} (hgoing : ¬ done) : Lane.Exact { stream := .new bufferSize } done :=
      ⟨rfl, rfl, by rw [ByteStream.contents_new]; rfl,
        ⟨fun h => (by cases h), fun h => absurd h hgoing⟩, fun h => (by cases h)⟩
    exact ⟨List.Sublist.refl _, hlane (by decide), hlane (by decide), rfl, rfl,
      fun h => (by cases h), by decide, Or.inl (by decide)⟩
  finished h := by cases h

/-- A turn of the loop loses nothing. -/
theorem Copying.step {x : Running} (h : Copying x) {r : Round} (hr : r.Undisturbed) :
    Copying (StreamCopy.step x r) := by
  by_cases hphase : x.phase = .running
  · have hcomplete := h.complete hphase
    simp only [StreamCopy.step, turn, if_pos hphase]
    cases hresult : EventLoop.waitNextEvent rules r.poll r.answers x.eventloop x.state with
    | mk result rest =>
        have hwait {result' : EventLoop.Result} (hok : result = .ok result') :
            Complete rest.1.rules rest.2 := by
          have hwait := (complete_contract hr).returns hcomplete.asking (by rw [hresult]; exact hok)
          rwa [hresult] at hwait
        cases result with
        | error e => exact ⟨fun h => (by cases h), fun h => (by cases h)⟩
        | ok result =>
            refine ⟨fun _ => hwait rfl, fun hreturned => ?_⟩
            have hexit : result = .exit := by
              by_contra hne
              simp only [if_neg hne] at hreturned
              cases hreturned
            subst hexit
            have hfinished := hcomplete.exit hr (by rw [hresult])
            rwa [hresult] at hfinished
  · simp only [StreamCopy.step, turn, if_neg hphase]
    exact h

/-- When `bidirectional_stream_copy` has returned, everything that was read from the standard input
has been written to the socket, everything that was read from the socket has been written to the
standard output, and both far ends were shut down.  It is assumed that no signal interrupts `poll`
and that it reports no hangup of the socket or the standard output where they are written; the near
ends may hang up. -/
theorem copy_complete (rounds : List Round)
    (hok : Admissible step (fun _ r => r.Undisturbed) start rounds)
    (hreturned : (run step start rounds).phase = .returned) :
    let s := (run step start rounds).state
    s.outbound.given = s.outbound.taken ∧ s.inbound.given = s.inbound.taken ∧
      s.outbound.shutdown = true ∧ s.inbound.shutdown = true := by
  have hcopying : Copying (run step start rounds) :=
    hok.invariant (fun _ _ h hr => h.step hr) copying_start
  obtain ⟨hout, hin⟩ := hcopying.finished hreturned
  exact ⟨hout.given_eq, hin.given_eq, hout.shut, hin.shut⟩

/-- Three bytes are copied to the socket, in two writes, and two bytes to the standard output. -/
theorem copy_complete_both :
    let answers : CopyRule → CopyAnswers := fun r =>
      if r = .readInput then { read := .ok [1, 2, 3] } else
      if r = .readSocket then { read := .ok [8, 9] } else { write := .ok 2 }
    let rest : CopyRule → CopyAnswers := fun r =>
      if r = .writeSocket then { write := .ok 1 } else {}
    let ready : List CopyRule → EventLoop.Poll CopyRule := fun rs =>
      .ready fun r => { pollin := decide (r ∈ rs), pollout := decide (r ∈ rs) }
    let rounds : List Round := [⟨ready [.readInput, .readSocket], answers⟩,
      ⟨ready [.writeSocket, .writeOutput], answers⟩, ⟨ready [.readInput, .readSocket], rest⟩,
      ⟨ready [.writeSocket, .writeOutput], rest⟩, ⟨ready [], rest⟩]
    (run step start rounds).phase = .returned ∧
      (run step start rounds).state.outbound.taken = [1, 2, 3] ∧
      (run step start rounds).state.outbound.given =
        (run step start rounds).state.outbound.taken ∧
      (run step start rounds).state.inbound.given =
        (run step start rounds).state.inbound.taken := by
  intro answers rest ready rounds
  have hreturned : (run step start rounds).phase = .returned := by decide +kernel
  have htaken : (run step start rounds).state.outbound.taken = [1, 2, 3] := by decide +kernel
  have hall := copy_complete rounds (by decide +kernel) hreturned
  exact ⟨hreturned, htaken, hall.1, hall.2.1⟩

end StreamCopy
end Sponge
