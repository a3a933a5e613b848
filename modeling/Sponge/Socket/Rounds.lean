import Sponge.Socket.Rules

/-!
# A turn of the loop

What holds of two sockets, along every run.

Main results:

- Theorem {lit}`settled_contract`: what a call of `wait_next_event` keeps, and why it throws.
- Theorem {lit}`fine_turn`: what a turn of the loop keeps.
- Theorem {lit}`Sound.step`: what holds of two sockets.
-/

namespace Sponge

open Library

namespace Sockets

variable {c : Channel} {start : Stack c} {w : Sockets c} {side : Side} {h : Host}
  {k : TCPSpongeSocket}

/-! ## A turn of the loop -/

/-- What holds when the loop waits for events. -/
theorem Settled.asking {left : List SocketRule} (hs : Settled start side h k left w) :
    Asking start side h k left [] w where
  focus := hs.focus
  regular := hs.regular
  order := hs.order
  asked _ _ hmem := absurd hmem List.not_mem_nil
  waiting hmem := absurd hmem List.not_mem_nil
  ahead hmem := ⟨fun hended => (hs.calm.ended hended).resolve_left fun hnot => hnot hmem,
    hs.calm.idle hmem⟩

/-- What the loop keeps along both loops of `wait_next_event`, and why a rule throws. -/
theorem settled_contract (start : Stack c) (side : Side) (h : Host) (k : TCPSpongeSocket)
    (r : Round c) :
    EventLoop.Contract (rules c side) r.poll (fun _ => r.answers) (Asking start side h k)
      (Dispatching start side h k) (Settled start side h k)
      (fun rule last e w => Focus start side h k w ∧ Basic (w.stack.host side) (w.socket side) ∧
        EventLoop.RuleFault (rules c side) (requests side) r.poll (fun _ => r.answers) rule e last
          w) where
  spent ha hspent hcancel := by
    cases hcancel
    exact ha.cancel hspent
  spent_throws _ _ hcancel := by cases hcancel
  asked ha hlive hinterest := by
    cases hinterest
    exact ha.keep hlive
  asked_throws _ _ hinterest := by cases hinterest
  polled ha := ha.settled
  error hd herror := ⟨hd.focus, hd.regular.toBasic, .poll _ herror rfl⟩
  passed hd := hd.skip
  hungUp hd _ hcancel := by
    cases hcancel
    exact hd.cancel
  hungUp_throws _ _ hcancel := by cases hcancel
  called {_ _ _ w w'} hd hcallback := by
    have hcalled := (hd.callback r.answers).returns
    rw [hcallback] at hcalled
    exact hcalled rfl
  called_throws {_ _ _ w w' e} hd hcallback := by
    have hthrown := (hd.callback r.answers).throws e
    rw [hcallback] at hthrown
    obtain ⟨hfocus, hbasic, request, hrequest, hfault⟩ := hthrown rfl
    exact ⟨hfocus, hbasic, .request w w' hcallback request hrequest hfault⟩
  busy {_ rule _ w w'} hd hcallback hcount hinterest := by
    have hserves := hd.serves r.answers
    rw [hcallback] at hserves
    have hlazy : interested side rule w' = false := hserves rfl hcount
    have hstill : Except.ok (interested side rule w') = Except.ok (ε := String) true := hinterest
    rw [hlazy] at hstill
    cases hstill
  busy_throws _ _ _ hinterest := by cases hinterest
  finished {kept w} hd :=
    ⟨hd.focus, hd.regular, by simpa using hd.order, hd.passed List.not_mem_nil⟩

/-- The loop has its rules and its calls in the socket. -/
theorem socket_wait (side : Side) (r : Round c) (w : Sockets c) :
    (wait side r w).2.socket side = { (EventLoop.waitNextEvent (rules c side) r.poll
      (fun _ => r.answers) (w.socket side).eventloop w).2.2.socket side with
        eventloop := (EventLoop.waitNextEvent (rules c side) r.poll (fun _ => r.answers)
          (w.socket side).eventloop w).2.1 } :=
  socket_put ..

/-- A call of `wait_next_event` that returns. -/
theorem Settled.wait (hs : Settled start side h k (w.socket side).eventloop.rules w) {r : Round c}
    {result : EventLoop.Result} (hok : (wait side r w).1 = .ok result) :
    Settled start side h k ((wait side r w).2.socket side).eventloop.rules (wait side r w).2 := by
  have hleft := (settled_contract start side h k r).returns hs.asking hok
  refine ⟨hleft.focus.put _, ?_, ?_, ?_⟩
  · rw [socket_wait]
    exact hleft.regular.congr rfl rfl rfl
  · rw [socket_wait]
    exact hleft.order
  · rw [socket_wait]
    exact ⟨hleft.calm.ended, hleft.calm.idle⟩

/-- A call of `wait_next_event` that throws. -/
theorem Settled.wait_throws (hs : Settled start side h k (w.socket side).eventloop.rules w)
    {r : Round c} {e : String} (he : (Sockets.wait side r w).1 = .error e) :
    Focus start side h k (Sockets.wait side r w).2 ∧
      Basic ((Sockets.wait side r w).2.stack.host side) ((Sockets.wait side r w).2.socket side) ∧
      EventLoop.KernelFault (rules c side) (requests side) r.poll (fun _ => r.answers)
        (w.socket side).eventloop w e := by
  obtain ⟨rule, hrule, last, hlast, hfocus, hbasic, hfault⟩ :=
    (settled_contract start side h k r).throws hs.asking he
  refine ⟨hfocus.put _, ?_, rule, hrule, last, hlast, hfault⟩
  rw [socket_wait]
  exact hbasic.congr rfl rfl rfl

/-- The callbacks leave the phase as it is. -/
theorem phase_callback (side : Side) (r : SocketRule) (a : Answers c) (w : Sockets c) :
    (((rules c side).callback r a w).2.socket side).phase = (w.socket side).phase := by
  cases r with
  | readDatagram =>
      simp only [rules, readDatagram]
      split
      · simp
      · rfl
      · simp
  | readPipe =>
      simp only [rules, readPipe]
      split
      · simp
      · split
        · simp
        · split
          · simp
          · simp
  | writePipe =>
      rcases writePipe_cases side a w with
        ⟨e, taken, -, -, he⟩ | ⟨n, result, k', hresult, -, -, -, -, -, hphase, -⟩
      · simp [rules, he]
      · simp [rules, hresult, hphase]
  | writeDatagram => simp [rules, writeDatagram]

/-- Cancelling a rule keeps the phase. -/
theorem phase_cancelled (side : Side) (r : SocketRule) (w : Sockets c) :
    ((cancelled side r w).socket side).phase = (w.socket side).phase := by
  cases r with
  | readPipe => simp [cancelled, cancelPipe]
  | _ => rfl

/-- The phase stays as it is along both loops. -/
theorem phase_contract (side : Side) (phase : SocketPhase) (r : Round c) :
    EventLoop.Contract (rules c side) r.poll (fun _ => r.answers)
      (fun _ _ w => (w.socket side).phase = phase) (fun _ _ w => (w.socket side).phase = phase)
      (fun _ w => (w.socket side).phase = phase)
      (fun _ _ _ w => (w.socket side).phase = phase) where
  spent {rule _ _ w w'} hphase _ hcancel := by
    cases hcancel
    exact (phase_cancelled side rule w).trans hphase
  spent_throws _ _ hcancel := by cases hcancel
  asked hphase _ _ := hphase
  asked_throws hphase _ _ := hphase
  polled hphase := ⟨hphase, hphase⟩
  error hphase _ := hphase
  passed hphase := hphase
  hungUp {_ rule _ w w'} hphase _ hcancel := by
    cases hcancel
    exact (phase_cancelled side rule w).trans hphase
  hungUp_throws _ _ hcancel := by cases hcancel
  called {_ rule _ w w'} hphase hcallback := by
    have hsame := phase_callback side rule r.answers w
    rw [hcallback] at hsame
    exact hsame.trans hphase
  called_throws {_ rule _ w w' e} hphase hcallback := by
    have hsame := phase_callback side rule r.answers w
    rw [hcallback] at hsame
    exact hsame.trans hphase
  busy {_ rule _ w w'} hphase hcallback _ _ := by
    have hsame := phase_callback side rule r.answers w
    rw [hcallback] at hsame
    exact hsame.trans hphase
  busy_throws _ _ _ hinterest := by cases hinterest
  finished hphase := hphase

/-- A call of `wait_next_event` keeps the phase. -/
theorem phase_wait (side : Side) (r : Round c) (w : Sockets c) :
    ((wait side r w).2.socket side).phase = (w.socket side).phase := by
  have hcontract := phase_contract side (w.socket side).phase r
  rw [socket_wait]
  cases hresult : (wait side r w).1 with
  | ok result => exact hcontract.returns rfl hresult
  | error e =>
      obtain ⟨-, -, -, -, hphase⟩ := hcontract.throws rfl hresult
      exact hphase

/-- What holds of a socket and its host. -/
structure Fine (h : Host) (k : TCPSpongeSocket) : Prop where
  basic : Basic h k
  fresh : k.phase = .idle → k = {} ∧ ∃ cfg random, h = Host.new cfg random
  regular : k.phase ≠ .failed → Regular h k
  order : k.phase ≠ .failed → k.eventloop.rules.Sublist SocketRule.all
  calm : k.phase ≠ .failed → Calm h k k.eventloop.rules

/-- A socket that has not been opened is fine. -/
theorem fine_new (cfg : TCPConfig) (random : UInt32) : Fine (Host.new cfg random) {} := by
  have hregular : Regular (Host.new cfg random) {} :=
    regular_of_eq (Host.tame_new cfg random) rfl rfl rfl fun h => by cases h
  exact ⟨hregular.toBasic, fun _ => ⟨rfl, cfg, random, rfl⟩, fun _ => hregular,
    fun _ => List.nil_sublist _, fun _ => calm_of_running rfl rfl _⟩

/-- A socket whose thread has ended. -/
theorem Basic.fine (hbasic : Basic h k) : Fine h { k with phase := .failed } where
  basic := hbasic.congr rfl rfl rfl
  fresh hidle := by cases hidle
  regular hphase := absurd rfl hphase
  order hphase := absurd rfl hphase
  calm hphase := absurd rfl hphase

/-- A socket in its loop. -/
theorem Settled.fine (hs : Settled start side h k (w.socket side).eventloop.rules w)
    (phase : SocketPhase) (hphase : phase ≠ .idle) :
    Fine (w.stack.host side) { w.socket side with phase := phase } where
  basic := hs.regular.toBasic.congr rfl rfl rfl
  fresh hidle := absurd hidle hphase
  regular _ := hs.regular.congr rfl rfl rfl
  order _ := hs.order
  calm _ := ⟨hs.calm.ended, hs.calm.idle⟩

/-- Time passes. -/
theorem Fine.tick (hf : Fine h k) (hactive : h.conn.active = true) (hphase : k.phase ≠ .idle)
    (ms : UInt64) : Fine (h.enqueue (h.conn.tick ms)) k := by
  obtain ⟨⟨hended, hidle⟩, hcontents⟩ := h.conn.tick_quiet ms
  have htame := hf.basic.tame.tick hactive ms
  have heof (heof : k.threadData.eof = true) :
      (h.conn.tick ms).sender.stream.inputEnded = true := hended.trans (hf.basic.eof_ended heof)
  refine ⟨⟨htame, hf.basic.taken_eq, ?_, hf.basic.open_eq, heof⟩, fun h => absurd h hphase,
    fun hp => regular_of_eq htame (hf.regular hp).taken_eq (hf.regular hp).given_eq
      hf.basic.open_eq heof, hf.order, fun hp => ⟨fun htrue => ?_, fun hmem htrue => ?_⟩⟩
  · have hreceived : (h.enqueue (h.conn.tick ms)).received = h.received :=
      congrArg (h.popped ++ ·) hcontents
    rw [hreceived]
    exact hf.basic.given_part
  · exact (hf.calm hp).ended (hended.symm.trans htrue)
  · exact hidle.mpr ((hf.calm hp).idle hmem htrue)

/-- Behind the loop of `connect()` or `listen_and_accept()` comes that of `_tcp_main()`, and behind
that one the end of the thread, with or without an exception. -/
theorem Fine.next (hf : Fine h k) (shutdown : Except String Unit) :
    Fine h { k with phase := (next k.phase shutdown).2 } := by
  by_cases hsame : (Sockets.next k.phase shutdown).2 = k.phase
  · rw [hsame]
    exact hf
  · have hfailed : k.phase ≠ .failed := fun h => hsame (by rw [h]; rfl)
    have hidle : (Sockets.next k.phase shutdown).2 ≠ .idle := by
      revert hsame
      cases k.phase <;> cases shutdown <;> simp [Sockets.next]
    exact ⟨hf.basic.congr rfl rfl rfl, fun h => absurd h hidle,
      fun _ => (hf.regular hfailed).congr rfl rfl rfl, fun _ => hf.order hfailed,
      fun _ => ⟨(hf.calm hfailed).ended, (hf.calm hfailed).idle⟩⟩

/-- The socket enters another phase. -/
theorem fine_enter (hfocus : Focus start side h k w) {phase : SocketPhase}
    (hfine : Fine (w.stack.host side) { w.socket side with phase := phase }) :
    Focus start side h k (w.enter side phase) ∧
      Fine ((w.enter side phase).stack.host side) ((w.enter side phase).socket side) := by
  refine ⟨hfocus.put _, ?_⟩
  rw [enter, stack_put, socket_put]
  exact hfine

/-- How a turn of the loop ends: the condition does not hold, the event loop throws, the loop is
left, it goes on, or the adapter's `tick()` throws. -/
inductive Turned (side : Side) (r : Round c) (w : Sockets c) :
    Except String Unit × Sockets c → Prop
  | finished (h : condition (w.socket side).phase (w.conn side).state = false) :
      Turned side r w (leave side r w)
  | threw (e : String) (w' : Sockets c)
      (h : condition (w.socket side).phase (w.conn side).state = true)
      (hwait : wait side r w = (.error e, w')) :
      Turned side r w (.error e, w'.enter side .failed)
  | left (result : EventLoop.Result) (w' : Sockets c)
      (h : condition (w.socket side).phase (w.conn side).state = true)
      (hwait : wait side r w = (.ok result, w')) (hexit : result = .exit ∨ r.abort = true) :
      Turned side r w (leave side r w')
  | stayed (result : EventLoop.Result) (w' w'' : Sockets c)
      (h : condition (w.socket side).phase (w.conn side).state = true)
      (hwait : wait side r w = (.ok result, w'))
      (hticked : w'' = w' ∨ (w'.conn side).active = true ∧ w'' = w'.act (.tick side r.elapsed)) :
      Turned side r w (.ok (), w'')
  | tickThrew (e : String) (result : EventLoop.Result) (w' : Sockets c)
      (h : condition (w.socket side).phase (w.conn side).state = true)
      (hwait : wait side r w = (.ok result, w')) (hactive : (w'.conn side).active = true)
      (htick : r.datagramTick = .error e) :
      Turned side r w (.error e, (w'.act (.tick side r.elapsed)).enter side .failed)

/-- How a turn of `_tcp_loop` ends. -/
theorem turned (side : Side) (r : Round c) (w : Sockets c) :
    Turned side r w (turn side r w) := by
  simp only [turn]
  split
  · rename_i hcondition
    cases hwait : wait side r w with
    | mk result w' =>
        cases result with
        | error e => exact .threw e w' hcondition hwait
        | ok result =>
            simp only
            split
            · rename_i hexit
              exact .left result w' hcondition hwait hexit
            · split
              · rename_i hactive
                cases htick : r.datagramTick with
                | error e => exact .tickThrew e result w' hcondition hwait hactive htick
                | ok _ => exact .stayed result w' _ hcondition hwait (Or.inr ⟨hactive, rfl⟩)
              · exact .stayed result w' _ hcondition hwait (Or.inl rfl)
  · rename_i hcondition
    exact .finished (Bool.eq_false_iff.mpr hcondition)

/-- A socket in a loop has been opened and has not failed. -/
theorem phase_of_condition {phase : SocketPhase} {state : TCPState}
    (h : condition phase state = true) : phase ≠ .idle ∧ phase ≠ .failed := by
  constructor
  · rintro rfl
    cases h
  · rintro rfl
    cases h

/-- What holds when the loop waits. -/
theorem Fine.settled (hfine : Fine (w.stack.host side) (w.socket side))
    (hfocus : Focus start side h k w) (hfailed : (w.socket side).phase ≠ .failed) :
    Settled start side h k (w.socket side).eventloop.rules w :=
  ⟨hfocus, hfine.regular hfailed, hfine.order hfailed, hfine.calm hfailed⟩

/-- The clock of a socket in its loop. -/
theorem fine_tick (hfocus : Focus start side h k w)
    (hfine : Fine (w.stack.host side) (w.socket side)) (hphase : (w.socket side).phase ≠ .idle)
    (hactive : (w.conn side).active = true) (ms : UInt64) :
    Focus start side h k (w.act (.tick side ms)) ∧
      Fine ((w.act (.tick side ms)).stack.host side) ((w.act (.tick side ms)).socket side) := by
  have hhost : (w.stack.step (.tick side ms)).host side =
      (w.stack.host side).enqueue ((w.conn side).tick ms) := Stack.host_become ..
  have hok : Stack.Event.Disciplined w.stack (.tick side ms) := hactive
  refine ⟨hfocus.act rfl hok, ?_⟩
  rw [stack_act, socket_act, hhost]
  exact hfine.tick hactive hphase ms

/-- A turn of the loop. -/
theorem fine_turn (hfocus : Focus start side h k w)
    (hfine : Fine (w.stack.host side) (w.socket side)) (r : Round c) :
    Focus start side h k (turn side r w).2 ∧
      Fine ((turn side r w).2.stack.host side) ((turn side r w).2.socket side) := by
  have hphase := phase_wait side r w
  have hsettled (hcondition : condition (w.socket side).phase (w.conn side).state = true) :=
    hfine.settled hfocus (phase_of_condition hcondition).2
  have hreturned {result : EventLoop.Result} {w' : Sockets c}
      (hcondition : condition (w.socket side).phase (w.conn side).state = true)
      (hwait : wait side r w = (.ok result, w')) :
      Focus start side h k w' ∧ (w'.socket side).phase ≠ .idle ∧
        Fine (w'.stack.host side) (w'.socket side) := by
    have hleft := (hsettled hcondition).wait (congrArg Prod.fst hwait)
    rw [hwait] at hphase hleft
    have hidle : (w'.socket side).phase ≠ .idle := hphase ▸ (phase_of_condition hcondition).1
    exact ⟨hleft.focus, hidle, hleft.fine (w'.socket side).phase hidle⟩
  cases hturned : turn side r w with
  | mk outcome w₁ =>
      have hcases := turned side r w
      rw [hturned] at hcases
      cases hcases with
      | finished => exact fine_enter hfocus (hfine.next r.shutdown)
      | threw e w' hcondition hwait =>
          obtain ⟨hfocus', hbasic, -⟩ := (hsettled hcondition).wait_throws (r := r) (e := e)
            (by rw [hwait])
          rw [hwait] at hfocus' hbasic
          exact fine_enter hfocus' hbasic.fine
      | left result w' hcondition hwait =>
          obtain ⟨hfocus', -, hfine'⟩ := hreturned hcondition hwait
          exact fine_enter hfocus' (hfine'.next r.shutdown)
      | stayed result w' _ hcondition hwait hticked =>
          obtain ⟨hfocus', hidle, hfine'⟩ := hreturned hcondition hwait
          rcases hticked with rfl | ⟨hactive, rfl⟩
          · exact ⟨hfocus', hfine'⟩
          · exact fine_tick hfocus' hfine' hidle hactive r.elapsed
      | tickThrew e result w' hcondition hwait hactive htick =>
          obtain ⟨hfocus', hidle, hfine'⟩ := hreturned hcondition hwait
          obtain ⟨hfocus'', hfine''⟩ := fine_tick hfocus' hfine' hidle hactive r.elapsed
          exact fine_enter hfocus'' hfine''.basic.fine

/-! ## Runs -/

/-- What holds of two sockets. -/
structure Sound (start : Stack c) (w : Sockets c) : Prop where
  lawful : Lawful start w
  fine : ∀ side, Fine (w.stack.host side) (w.socket side)

/-- Two sockets that have not been opened are sound. -/
theorem sound_new (channel : c.State) (cfg : Side → TCPConfig) (random : Side → UInt32) :
    Sound (Stack.new channel cfg random) (new channel cfg random) :=
  ⟨⟨rfl, trivial⟩, fun side => fine_new (cfg side) (random side)⟩

/-- One side has moved. -/
theorem Sound.move (hs : Sound start w) (side : Side) {w' : Sockets c}
    (h : Focus start side (w.stack.host side.other) (w.socket side.other) w' ∧
      Fine (w'.stack.host side) (w'.socket side)) : Sound start w' := by
  refine ⟨h.1.lawful, fun side' => ?_⟩
  by_cases hside : side' = side
  · rw [hside]
    exact h.2
  · obtain rfl := Side.eq_other_of_ne hside
    rw [h.1.host_eq, h.1.socket_eq]
    exact hs.fine side.other

/-- Either side can be looked at alone. -/
theorem Sound.focus (hs : Sound start w) (side : Side) :
    Focus start side (w.stack.host side.other) (w.socket side.other) w :=
  ⟨hs.lawful, rfl, rfl⟩

/-- A socket with its four rules. -/
theorem fine_initialized (hregular : Regular h {})
    (hended : h.conn.sender.stream.inputEnded = false) {phase : SocketPhase}
    (hphase : phase ≠ .idle) :
    Fine h { eventloop := SocketRule.all.foldl EventLoop.addRule {}, phase := phase } :=
  ⟨hregular.toBasic.congr rfl rfl rfl, fun h => absurd h hphase,
    fun _ => hregular.congr rfl rfl rfl, fun _ => List.Sublist.refl _,
    fun _ => calm_of_running rfl hended _⟩

/-- `connect()` opens a fresh connection. -/
theorem connect_eq (side : Side) (hk : w.socket side = {}) {cfg : TCPConfig} {random : UInt32}
    (hhost : w.stack.host side = Host.new cfg random) :
    connect side w = (.ok (), (w.initializeTCP side .connecting).act (.connect side)) := by
  have hconn : ((w.initializeTCP side .connecting).act (.connect side)).conn side =
      (Host.new cfg random).conn.connect := by
    rw [← hhost]
    exact congrArg Host.conn (Stack.host_become w.stack side _)
  have hidle : (w.socket side).phase = .idle := by rw [hk]
  unfold connect
  rw [hidle, if_neg (by decide), if_neg (by decide)]
  simp only
  rw [hconn, if_neg (not_not.mpr (Host.state_connect cfg random))]

/-- `connect()` on a fresh socket. -/
theorem fine_connect (hfocus : Focus start side h k w) (hk : w.socket side = {})
    {cfg : TCPConfig} {random : UInt32} (hhost : w.stack.host side = Host.new cfg random) :
    Focus start side h k (connect side w).2 ∧
      Fine ((connect side w).2.stack.host side) ((connect side w).2.socket side) := by
  have hok : Stack.Event.Disciplined (w.initializeTCP side .connecting).stack
      (.connect side) := by
    change (w.stack.host side).conn.active = true
    rw [hhost]
    rfl
  have hhost' : ((w.initializeTCP side .connecting).stack.step (.connect side)).host side =
      (Host.new cfg random).enqueue (Host.new cfg random).conn.connect := by
    rw [← hhost]
    exact Stack.host_become ..
  rw [connect_eq side hk hhost]
  refine ⟨(hfocus.put _).act rfl hok, ?_⟩
  rw [stack_act, socket_act, hhost', initializeTCP, socket_put, hk]
  have htame := ((Host.tame_new cfg random).feed (Host.new cfg random).conn.sender.stream).1
  refine fine_initialized (regular_of_eq htame rfl rfl rfl fun h => by cases h) ?_ (by decide)
  exact TCPSender.fillWindow_keeps (s := (Host.new cfg random).conn.sender)
    (P := fun stream => stream.inputEnded = false) (fun _ _ h => h) rfl

/-- `listen_and_accept()` waits with a fresh connection. -/
theorem listenAndAccept_eq (side : Side) (hk : w.socket side = {}) :
    listenAndAccept side w = (.ok (), w.initializeTCP side .accepting) := by
  have hidle : (w.socket side).phase = .idle := by rw [hk]
  unfold listenAndAccept
  rw [hidle, if_neg (by decide), if_neg (by decide)]

/-- `listen_and_accept()` on a fresh socket. -/
theorem fine_listenAndAccept (hfocus : Focus start side h k w) (hk : w.socket side = {})
    {cfg : TCPConfig} {random : UInt32} (hhost : w.stack.host side = Host.new cfg random) :
    Focus start side h k (listenAndAccept side w).2 ∧
      Fine ((listenAndAccept side w).2.stack.host side)
        ((listenAndAccept side w).2.socket side) := by
  rw [listenAndAccept_eq side hk]
  refine ⟨hfocus.put _, ?_⟩
  rw [initializeTCP, stack_put, socket_put, hk, hhost]
  exact fine_initialized ((fine_new cfg random).regular (by decide)) rfl (by decide)

/-- A socket that has been opened is not opened again. -/
theorem snd_connect_of_ne (hidle : (w.socket side).phase ≠ .idle) : (connect side w).2 = w := by
  unfold connect
  rw [if_pos hidle]
  split
  · rfl
  · rfl

/-- A socket that is open stays as it is. -/
theorem snd_listenAndAccept_of_ne (hidle : (w.socket side).phase ≠ .idle) :
    (listenAndAccept side w).2 = w := by
  unfold listenAndAccept
  rw [if_pos hidle]
  split
  · rfl
  · rfl

/-- What holds of two sockets is kept by all that can happen to them. -/
theorem Sound.step (hs : Sound start w) (e : Event c) : Sound start (w.step e) := by
  cases e with
  | connect side =>
      change Sound start (connect side w).2
      by_cases hidle : (w.socket side).phase = .idle
      · obtain ⟨hk, cfg, random, hhost⟩ := (hs.fine side).fresh hidle
        exact hs.move side (fine_connect (hs.focus side) hk hhost)
      · rw [snd_connect_of_ne hidle]
        exact hs
  | listenAndAccept side =>
      change Sound start (listenAndAccept side w).2
      by_cases hidle : (w.socket side).phase = .idle
      · obtain ⟨hk, cfg, random, hhost⟩ := (hs.fine side).fresh hidle
        exact hs.move side (fine_listenAndAccept (hs.focus side) hk hhost)
      · rw [snd_listenAndAccept_of_ne hidle]
        exact hs
  | turn side r => exact hs.move side (fine_turn (hs.focus side) (hs.fine side) r)
  | other e => exact ⟨hs.lawful.act trivial, hs.fine⟩

end Sockets
end Sponge
