import Sponge.EventLoop.Lifecycle
import Sponge.Socket.Delivery

/-!
# How the thread of a socket ends

A thread ends with an exception, or when its event loop has nothing left to do.  The exceptions
come from the kernel and from the adapter: the checks that a socket and its loop make of each other
always pass.  When the thread ends without an exception, all that was received has been given to the
owner, who was told of its end, and all that was to be sent has been written to the adapter.

Main results:

- Theorem {lit}`exceptions_are_kernel_faults`: the exceptions of a socket.
- Theorem {lit}`thread_ends_quietly`: what holds behind the last turn of the loop.
-/

namespace Sponge

open Library

namespace Sockets

variable {c : Channel} {start : Stack c} {w : Sockets c} {side : Side} {h : Host}
  {k : TCPSpongeSocket}

/-! ## Exceptions -/

/-- Why a turn of the loop throws: in `wait_next_event`, a call of a rule or `poll` is at fault; or
behind it the adapter's `tick()` has thrown, or the `shutdown` that ends `_tcp_main()`. -/
inductive TurnFault (side : Side) (r : Round c) (w : Sockets c) (e : String) : Prop
  | wait (hwait : (Sockets.wait side r w).1 = .error e)
      (h : EventLoop.KernelFault (rules c side) (requests side) r.poll (fun _ => r.answers)
        (w.socket side).eventloop w e)
  | tick (result : EventLoop.Result) (hwait : (Sockets.wait side r w).1 = .ok result)
      (h : r.datagramTick = .error e)
  | shutdown (result : EventLoop.Result) (hwait : (Sockets.wait side r w).1 = .ok result)
      (hphase : (w.socket side).phase = .running) (h : r.shutdown = .error e)

/-- Only the loop of `_tcp_main()` is left with an exception, that of its `shutdown`. -/
theorem leave_throws {r : Round c} {e : String} (he : (leave side r w).1 = .error e) :
    (w.socket side).phase = .running ∧ r.shutdown = .error e := by
  simp only [leave] at he
  cases hphase : (w.socket side).phase <;> cases hshutdown : r.shutdown <;>
    simp_all [next]

/-- A turn that throws. -/
theorem turn_throws (hs : Sound start w) {r : Round c} {e : String}
    (he : (turn side r w).1 = .error e) : TurnFault side r w e := by
  have hphase := phase_wait side r w
  cases hturned : turn side r w with
  | mk outcome w₁ =>
      have hcases := turned side r w
      rw [hturned] at he hcases
      generalize hresult : (outcome, w₁) = result at hcases
      cases hcases with
      | finished hcondition =>
          obtain ⟨rfl, rfl⟩ := Prod.mk.inj hresult
          obtain ⟨hrunning, -⟩ := leave_throws he
          rw [hrunning] at hcondition
          cases hcondition
      | threw e' w' hcondition hwait =>
          obtain ⟨rfl, rfl⟩ := Prod.mk.inj hresult
          cases he
          obtain ⟨-, -, hfault⟩ := ((hs.fine side).settled (hs.focus side)
            (phase_of_condition hcondition).2).wait_throws (r := r) (e := e) (by rw [hwait])
          exact .wait (by rw [hwait]) hfault
      | left result w' hcondition hwait =>
          obtain ⟨rfl, rfl⟩ := Prod.mk.inj hresult
          rw [hwait] at hphase
          obtain ⟨hrunning, hshutdown⟩ := leave_throws he
          exact .shutdown result (by rw [hwait]) (hphase ▸ hrunning) hshutdown
      | stayed => cases hresult; cases he
      | tickThrew e' result w' hcondition hwait hactive htick =>
          cases hresult
          cases he
          exact .tick result (by rw [hwait]) htick

/-- Why an event makes a socket throw: it is open, or the kernel or the adapter is at fault. -/
def Event.Fault (w : Sockets c) (e : String) : Event c → Prop
  | .connect side => (w.socket side).phase ≠ .idle ∧
      e = "connect() with TCPConnection already initialized"
  | .listenAndAccept side => (w.socket side).phase ≠ .idle ∧
      e = "listen_and_accept() with TCPConnection already initialized"
  | .turn side r => TurnFault side r w e
  | .other _ => False

/-- A call of sound sockets that throws. -/
theorem Sound.throws (hs : Sound start w) {event : Event c} {e : String}
    (he : (w.call event).1 = .error e) : event.Fault w e := by
  cases event with
  | connect side =>
      change (connect side w).1 = .error e at he
      by_cases hidle : (w.socket side).phase = .idle
      · obtain ⟨hk, cfg, random, hhost⟩ := (hs.fine side).fresh hidle
        rw [connect_eq side hk hhost] at he
        cases he
      · unfold connect at he
        rw [if_pos hidle] at he
        split at he
        · cases he
        · cases he
          exact ⟨hidle, rfl⟩
  | listenAndAccept side =>
      change (listenAndAccept side w).1 = .error e at he
      by_cases hidle : (w.socket side).phase = .idle
      · rw [listenAndAccept_eq side ((hs.fine side).fresh hidle).1] at he
        cases he
      · unfold listenAndAccept at he
        rw [if_pos hidle] at he
        split at he
        · cases he
        · cases he
          exact ⟨hidle, rfl⟩
  | turn side r => exact turn_throws hs he
  | other e => cases he

section Runs

variable (channel : c.State) (cfg : Side → TCPConfig) (random : Side → UInt32)

/-- What holds of the streams of two sockets. -/
theorem streams_of_run (events : List (Event c)) (side : Side) :
    ((run step (new channel cfg random) events).conn side).Streams (cfg side) := by
  rw [conn, (sound_run channel cfg random events).lawful.stack_eq]
  exact Stack.streams_run channel cfg random _ side

/-- In every run of two sockets whose streams can hold a byte, no stream is ever read that divides
by a capacity of zero.  An exception comes from an owner that opens a socket twice, from the kernel
or from the adapter: a system call has failed, `read` or `writev` has not kept its contract for the
amount that was asked for, `poll` reports an error, a call of the adapter has thrown, or the
`shutdown` behind the loop has failed.  No busy wait is ever detected, the connection never accepts
less than it has advertised, and `connect()` always finds it in `SYN_SENT`. -/
theorem exceptions_are_kernel_faults
    (hcapacity : ∀ side, 1 ≤ (cfg side).sendCapacity ∧ 1 ≤ (cfg side).recvCapacity)
    (events : List (Event c)) :
    let w := run step (new channel cfg random) events
    (∀ side, 1 ≤ (w.conn side).sender.stream.capacity ∧
        1 ≤ (w.conn side).inboundStream.capacity) ∧
      ∀ event e, (w.call event).1 = .error e → event.Fault w e := by
  intro w
  refine ⟨fun side => ?_, fun event e => (sound_run channel cfg random events).throws⟩
  have hstreams : (w.conn side).Streams (cfg side) := streams_of_run channel cfg random events side
  rw [hstreams.outbound_eq, hstreams.inbound_eq]
  exact hcapacity side

end Runs

/-- The owner of a socket that connects has gone. -/
theorem exceptions_are_kernel_faults_reset :
    let event : TwoStations.SocketEvent := .turn .a
      { poll := .ready fun r => if r = .readPipe then { pollin := true } else {}
        answers := { datagram := .returned (Internet.Arrival.copy 0)
                     pipeRead := .error "read: Connection reset by peer" } }
    let w := run step (new TwoStations.silence TwoStations.cfg TwoStations.random) [.connect .a]
    (w.call event).1 = .error "read: Connection reset by peer" ∧
      event.Fault w "read: Connection reset by peer" := by
  intro event w
  have he : (w.call event).1 = .error "read: Connection reset by peer" := by decide +kernel
  have hfaults := exceptions_are_kernel_faults TwoStations.silence TwoStations.cfg
    TwoStations.random (by decide) [.connect .a]
  exact ⟨he, hfaults.2 event _ he⟩

/-! ## The last turn -/

/-- The rules that are left have nothing to do. -/
structure Done (h : Host) (k : TCPSpongeSocket) : Prop where
  datagram : .readDatagram ∈ k.eventloop.rules → h.conn.active = false
  pipe : .writePipe ∈ k.eventloop.rules → h.conn.inboundStream.contents = [] ∧
    ((h.conn.inboundStream.eof || h.conn.inboundStream.error) = true → k.inboundShutdown = true)
  queue : .writeDatagram ∈ k.eventloop.rules → h.conn.segmentsOut = []

/-- When no rule is interested, they have nothing to do. -/
theorem done_of_interest (h : ∀ rule ∈ (w.socket side).eventloop.rules,
    interested side rule w = false) : Done (w.stack.host side) (w.socket side) where
  datagram hmem := h _ hmem
  pipe hmem := by
    have hinterest := h _ hmem
    simp only [interested, Bool.or_eq_false_iff, Bool.not_eq_false'] at hinterest
    obtain ⟨hempty, hshutdown⟩ := hinterest
    refine ⟨(ByteStream.bufferEmpty_iff _).mp hempty, fun hend => ?_⟩
    change ((w.conn side).inboundStream.eof || (w.conn side).inboundStream.error) = true at hend
    rw [hend, Bool.true_and, Bool.not_eq_false'] at hshutdown
    exact hshutdown
  queue hmem := by
    have hinterest := h _ hmem
    simp only [interested, Bool.not_eq_false'] at hinterest
    exact List.isEmpty_iff.mp hinterest

/-- No rule looks at the loop. -/
theorem interest_loop (side : Side) (w : Sockets c) (loop : EventLoop SocketRule)
    (rule : SocketRule) :
    interested side rule (w.put side { w.socket side with eventloop := loop }) =
      interested side rule w := by
  cases rule with
  | readDatagram => rfl
  | readPipe =>
      simp only [interested, conn, stack_put, socket_put]
      rfl
  | writePipe => simp only [interested, conn, stack_put, socket_put]
  | writeDatagram => rfl

/-- `wait_next_event` returns `Exit`. -/
theorem Settled.exit (hs : Settled start side h k (w.socket side).eventloop.rules w) {r : Round c}
    (hpoll : r.poll ≠ .interrupted) (hexit : (Sockets.wait side r w).1 = .ok .exit) :
    Done ((Sockets.wait side r w).2.stack.host side) ((Sockets.wait side r w).2.socket side) := by
  rcases (settled_contract start side h k r).exits hs.asking hexit with
    hinterrupted | ⟨polled, hasked, hrules, hnone⟩
  · exact absurd hinterrupted hpoll
  · refine done_of_interest fun rule hmem => ?_
    have hleft : rule ∈ (EventLoop.waitNextEvent (rules c side) r.poll (fun _ => r.answers)
        (w.socket side).eventloop w).2.1.rules := by
      rw [Sockets.wait, socket_put] at hmem
      exact hmem
    rw [hrules] at hleft
    obtain ⟨p, hp, rfl⟩ := List.mem_map.mp hleft
    rw [Sockets.wait, interest_loop, hasked.asked p.1 p.2 hp]
    exact hnone p hp

/-- The rules that are gone were cancelled, and behind the loop nothing is left to do. -/
structure Orderly (h : Host) (k : TCPSpongeSocket) : Prop where
  tidy : k.phase ≠ .idle →
    EventLoop.Tidy SocketRule.all k.eventloop.rules k.eventloop.calls
  done : k.phase = .closed → Done h k

theorem orderly_new (cfg : TCPConfig) (random : UInt32) : Orderly (Host.new cfg random) {} where
  tidy hidle := absurd rfl hidle
  done hclosed := by cases hclosed

theorem orderly_enter {phase : SocketPhase}
    (htidy : phase ≠ .idle → EventLoop.Tidy SocketRule.all (w.socket side).eventloop.rules
      (w.socket side).eventloop.calls)
    (hdone : phase = .closed → Done (w.stack.host side) (w.socket side)) :
    Orderly ((w.enter side phase).stack.host side) ((w.enter side phase).socket side) := by
  rw [enter, stack_put, socket_put]
  exact ⟨htidy, fun hclosed =>
    ⟨(hdone hclosed).datagram, (hdone hclosed).pipe, (hdone hclosed).queue⟩⟩

/-- No signal arrives and the thread is not told to stop. -/
def Event.Undisturbed : Event c → Prop
  | .turn _ r => r.abort = false ∧ r.poll ≠ .interrupted
  | _ => True

instance : ∀ e : Event c, Decidable e.Undisturbed
  | .connect _ => inferInstanceAs (Decidable True)
  | .listenAndAccept _ => inferInstanceAs (Decidable True)
  | .turn _ _ => inferInstanceAs (Decidable (_ ∧ _))
  | .other _ => inferInstanceAs (Decidable True)

/-- The loop cancels rules. -/
theorem tidy_wait (side : Side) (r : Round c) (w : Sockets c)
    (htidy : EventLoop.Tidy SocketRule.all (w.socket side).eventloop.rules
      (w.socket side).eventloop.calls) :
    EventLoop.Tidy SocketRule.all ((wait side r w).2.socket side).eventloop.rules
      ((wait side r w).2.socket side).eventloop.calls := by
  obtain ⟨calls, hcalls, hwait⟩ := EventLoop.tidy_waitNextEvent (rules c side) r.poll
    (fun _ => r.answers) (w.socket side).eventloop (htidy.sublist.nodup (by decide)) w
  rw [wait, socket_put]
  simp only
  rw [hcalls]
  exact htidy.trans hwait

/-- A turn of the loop keeps a socket orderly. -/
theorem orderly_turn (hs : Sound start w) (ho : Orderly (w.stack.host side) (w.socket side))
    {r : Round c} (habort : r.abort = false) (hpoll : r.poll ≠ .interrupted) :
    Orderly ((turn side r w).2.stack.host side) ((turn side r w).2.socket side) := by
  have hphase := phase_wait side r w
  have hsettled (hcondition : condition (w.socket side).phase (w.conn side).state = true) :=
    (hs.fine side).settled (hs.focus side) (phase_of_condition hcondition).2
  have htidy (hcondition : condition (w.socket side).phase (w.conn side).state = true) :=
    tidy_wait side r w (ho.tidy (phase_of_condition hcondition).1)
  cases hturned : turn side r w with
  | mk outcome w₁ =>
      have hcases := turned side r w
      rw [hturned] at hcases
      cases hcases with
      | finished hcondition =>
          refine orderly_enter (fun hnext => ho.tidy fun hidle => hnext ?_) fun hnext => ho.done ?_
          · rw [hidle]
          · revert hcondition hnext
            cases (w.socket side).phase <;> cases r.shutdown <;> simp [condition]
      | threw e w' hcondition hwait =>
          have htidy' := htidy hcondition
          rw [hwait] at htidy'
          exact orderly_enter (fun _ => htidy') fun hclosed => by cases hclosed
      | tickThrew e result w' hcondition hwait =>
          have htidy' := htidy hcondition
          rw [hwait] at htidy'
          exact orderly_enter (fun _ => htidy') fun hclosed => by cases hclosed
      | left result w' hcondition hwait hexit =>
          obtain rfl : result = .exit := hexit.resolve_right (by rw [habort]; decide)
          have hdone := (hsettled hcondition).exit hpoll (by rw [hwait])
          have htidy' := htidy hcondition
          rw [hwait] at hdone htidy'
          exact orderly_enter (fun _ => htidy') fun _ => hdone
      | stayed result w' _ hcondition hwait hticked =>
          have htidy' := htidy hcondition
          rw [hwait] at hphase htidy'
          have hsocket : w₁.socket = w'.socket := by
            rcases hticked with rfl | ⟨-, rfl⟩
            · rfl
            · rfl
          refine ⟨fun _ => ?_, fun hclosed => ?_⟩
          · change EventLoop.Tidy _ (w₁.socket side).eventloop.rules _
            rw [hsocket]
            exact htidy'
          · change (w₁.socket side).phase = .closed at hclosed
            rw [hsocket, hphase] at hclosed
            rw [hclosed] at hcondition
            cases hcondition

/-- A socket that has just been opened. -/
theorem orderly_of_initialized {w' : Sockets c} (hk : w.socket side = {})
    (phase : SocketPhase) (hphase : phase ≠ .closed)
    (hsocket : w'.socket side = (w.initializeTCP side phase).socket side) :
    Orderly (w'.stack.host side) (w'.socket side) := by
  rw [initializeTCP, socket_put, hk] at hsocket
  rw [hsocket]
  exact ⟨fun _ => EventLoop.tidy_refl _, fun hclosed => absurd hclosed hphase⟩

/-- Both sockets stay orderly. -/
theorem orderly_step (hs : Sound start w) (ho : ∀ side, Orderly (w.stack.host side) (w.socket side))
    {e : Event c} (hok : e.Undisturbed) (side : Side) :
    Orderly ((w.step e).stack.host side) ((w.step e).socket side) := by
  have hmove (side' : Side) {w' : Sockets c}
      (hfocus : Focus start side' (w.stack.host side'.other) (w.socket side'.other) w')
      (horderly : Orderly (w'.stack.host side') (w'.socket side')) :
      Orderly (w'.stack.host side) (w'.socket side) := by
    by_cases hside : side = side'
    · rw [hside]
      exact horderly
    · obtain rfl := Side.eq_other_of_ne hside
      rw [hfocus.host_eq, hfocus.socket_eq]
      exact ho _
  cases e with
  | connect side' =>
      change Orderly ((connect side' w).2.stack.host side) ((connect side' w).2.socket side)
      by_cases hidle : (w.socket side').phase = .idle
      · obtain ⟨hk, cfg, random, hhost⟩ := (hs.fine side').fresh hidle
        refine hmove side' (fine_connect (hs.focus side') hk hhost).1
          (orderly_of_initialized hk .connecting (by decide) ?_)
        rw [connect_eq side' hk hhost]
        rfl
      · rw [snd_connect_of_ne hidle]
        exact ho side
  | listenAndAccept side' =>
      change Orderly ((listenAndAccept side' w).2.stack.host side)
        ((listenAndAccept side' w).2.socket side)
      by_cases hidle : (w.socket side').phase = .idle
      · obtain ⟨hk, cfg, random, hhost⟩ := (hs.fine side').fresh hidle
        refine hmove side' (fine_listenAndAccept (hs.focus side') hk hhost).1
          (orderly_of_initialized hk .accepting (by decide) ?_)
        rw [listenAndAccept_eq side' hk]
      · rw [snd_listenAndAccept_of_ne hidle]
        exact ho side
  | turn side' r =>
      exact hmove side' (fine_turn (hs.focus side') (hs.fine side') r).1
        (orderly_turn hs (ho side') hok.1 hok.2)
  | other e => exact ho side

/-- A rule that is gone was cancelled. -/
theorem Orderly.mem_rules (ho : Orderly h k) (hidle : k.phase ≠ .idle) {rule : SocketRule}
    (hcalls : .cancel rule ∉ k.eventloop.calls) : rule ∈ k.eventloop.rules := by
  by_contra hgone
  obtain ⟨earlier, -, hn, -⟩ := (ho.tidy hidle).callsOf_eq rule
  have hall : rule ∈ SocketRule.all := by cases rule <;> decide
  rw [if_pos ⟨hall, hgone⟩] at hn
  have hmem : .cancel rule ∈ EventLoop.callsOf rule k.eventloop.calls := by
    rw [hn]
    exact List.mem_append_right _ List.mem_cons_self
  exact hcalls (List.mem_filter.mp hmem).1

/-- The end of the inbound stream of a closed connection, once all its bytes have been read. -/
theorem ended_of_inactive {cfg : TCPConfig} {conn : TCPConnection} (h : conn.Streams cfg)
    (hactive : conn.active = false) (hempty : conn.inboundStream.contents = []) :
    (conn.inboundStream.eof || conn.inboundStream.error) = true := by
  rcases h.ended hactive with hended | herror
  · have hbuffer := (ByteStream.bufferEmpty_iff _).mpr hempty
    simp [ByteStream.eof, hended, hbuffer]
  · simp [herror]

section Runs

variable (channel : c.State) (cfg : Side → TCPConfig) (random : Side → UInt32)

/-- In every run without signals and aborts, whatever else the kernel and the adapter do: when
`_tcp_main()` has returned, the connection is closed, all bytes that it has received were given to
the owner, who was told of the end of the stream, and all segments were written to the adapter.  A
rule whose descriptor hung up or came to its end was cancelled, and its part is excused.  The owner
was told of the end also when rule 1 was cancelled, if the stream is at its end. -/
theorem thread_ends_quietly (events : List (Event c))
    (hok : Admissible step (fun _ e => e.Undisturbed) (new channel cfg random) events) (side : Side)
    (hclosed : ((run step (new channel cfg random) events).socket side).phase = .closed) :
    let w := run step (new channel cfg random) events
    let calls := (w.socket side).eventloop.calls
    (.cancel .readDatagram ∉ calls → (w.conn side).active = false) ∧
      (.cancel .writePipe ∉ calls →
        (w.socket side).given = (w.stack.host side).received ∧
          (.cancel .readDatagram ∉ calls → (w.socket side).inboundShutdown = true) ∧
          (((w.conn side).inboundStream.eof || (w.conn side).inboundStream.error) = true →
            (w.socket side).inboundShutdown = true)) ∧
      (.cancel .writeDatagram ∉ calls → (w.conn side).segmentsOut = []) := by
  intro w calls
  have hnew : Sound (Stack.new channel cfg random) (new channel cfg random) ∧
      ∀ side, Orderly ((new channel cfg random).stack.host side)
        ((new channel cfg random).socket side) :=
    ⟨sound_new channel cfg random, fun side => orderly_new (cfg side) (random side)⟩
  obtain ⟨hsound, horderly⟩ := hok.invariant
    (I := fun w => Sound (Stack.new channel cfg random) w ∧
      ∀ side, Orderly (w.stack.host side) (w.socket side))
    (fun _ e h hundisturbed => ⟨h.1.step e, orderly_step h.1 h.2 hundisturbed⟩) hnew
  have ho := horderly side
  have hregular := (hsound.fine side).regular (by rw [hclosed]; decide)
  have hdone := ho.done hclosed
  have hidle : (w.socket side).phase ≠ .idle := by
    rw [hclosed]
    decide
  have hinactive (hcalls : .cancel .readDatagram ∉ calls) : (w.conn side).active = false :=
    hdone.datagram (ho.mem_rules hidle hcalls)
  refine ⟨hinactive, fun hcalls => ?_, fun hcalls => hdone.queue (ho.mem_rules hidle hcalls)⟩
  obtain ⟨hempty, hshutdown⟩ := hdone.pipe (ho.mem_rules hidle hcalls)
  refine ⟨?_, fun hread => ?_, hshutdown⟩
  · change _ = (w.stack.host side).popped ++ (w.conn side).inboundStream.contents
    rw [hregular.given_eq]
    exact (congrArg ((w.stack.host side).popped ++ ·) hempty).trans (List.append_nil _) |>.symm
  · have hstreams : (w.conn side).Streams (cfg side) :=
      streams_of_run channel cfg random events side
    exact hshutdown (ended_of_inactive hstreams (hinactive hread) hempty)

end Runs

/-- The owners close behind three bytes. -/
theorem thread_ends_quietly_three_bytes :
    let w := run step (new TwoStations.silence TwoStations.cfg TwoStations.random)
      (TwoStations.exchange ++ TwoStations.farewell)
    (w.socket .b).phase = .closed ∧ (w.socket .b).given = [1, 2, 3] ∧
      (w.stack.host .b).received = [1, 2, 3] ∧ (w.socket .b).inboundShutdown = true ∧
      (w.conn .b).active = false ∧ (w.conn .b).segmentsOut = [] := by
  have hall := thread_ends_quietly TwoStations.silence TwoStations.cfg TwoStations.random
    (TwoStations.exchange ++ TwoStations.farewell) (by decide +kernel) .b (by decide +kernel)
  have hrun : ∃ w, run step (new TwoStations.silence TwoStations.cfg TwoStations.random)
      (TwoStations.exchange ++ TwoStations.farewell) = w ∧
      (w.socket .b).phase = .closed ∧ (w.socket .b).given = [1, 2, 3] ∧
      ∀ rule ∈ [SocketRule.readDatagram, .writePipe, .writeDatagram],
        .cancel rule ∉ (w.socket .b).eventloop.calls :=
    ⟨_, rfl, by decide +kernel⟩
  obtain ⟨w, hw, hclosed, hgiven, hcalls⟩ := hrun
  rw [hw] at hall ⊢
  obtain ⟨hactive, hpipe, hqueue⟩ := hall
  have hdatagram := hcalls .readDatagram (by decide)
  obtain ⟨hreceived, htold, -⟩ := hpipe (hcalls .writePipe (by decide))
  exact ⟨hclosed, hgiven, hreceived.symm.trans hgiven, htold hdatagram, hactive hdatagram,
    hqueue (hcalls .writeDatagram (by decide))⟩

end Sockets
end Sponge
