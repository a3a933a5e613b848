import Sponge.EventLoop.Invariant
import Sponge.Socket.Host
import Sponge.Socket.Model

/-!
# What the loop of a socket keeps

The bytes that were read from the owner are those that the connection has accepted, and the bytes
that were written to the owner are those that were taken from the inbound stream.  And each call
of a connection is one of a disciplined owner.  The loop asks for the interest of all rules first,
so a rule may be called on a connection that has been closed since; the order of the rules tells
how it was closed.

Main results:

- Theorems {lit}`Asking.cancel` and {lit}`Asking.keep`: what the first loop of `wait_next_event`
  keeps.
- Theorems {lit}`Dispatching.skip` and {lit}`Dispatching.cancel`: what the second loop keeps for
  rules that it does not call.
-/

namespace Sponge

open Library

/-! ## Frames -/

namespace Stack

variable {c : Channel}

/-- The side at which an event happens. -/
def Event.side? : Event c → Option Side
  | .connect side => some side
  | .write side _ => some side
  | .endInputStream side => some side
  | .read side _ => some side
  | .tick side _ => some side
  | .arrive side _ => some side
  | .drop side _ => some side
  | .transmit side => some side
  | .other _ => none

/-- The other host stays as it is. -/
theorem host_step_of_ne (s : Stack c) {e : Event c} {side : Side} (h : e.side? ≠ some side) :
    (s.step e).host side = s.host side := by
  have hbecome (side' : Side) (host : Host) (hside : side ≠ side') :
      (s.become side' host).host side = s.host side := Function.update_of_ne hside ..
  cases e with
  | connect side' => exact hbecome side' _ fun heq => h (congrArg some heq.symm)
  | write side' data => exact hbecome side' _ fun heq => h (congrArg some heq.symm)
  | endInputStream side' => exact hbecome side' _ fun heq => h (congrArg some heq.symm)
  | read side' len => exact hbecome side' _ fun heq => h (congrArg some heq.symm)
  | tick side' ms => exact hbecome side' _ fun heq => h (congrArg some heq.symm)
  | arrive side' x =>
      simp only [Stack.step]
      split
      · rfl
      · exact hbecome side' _ fun heq => h (congrArg some heq.symm)
  | drop side' x => rfl
  | transmit side' =>
      simp only [Stack.step]
      split
      · rfl
      · exact hbecome side' _ fun heq => h (congrArg some heq.symm)
  | other e => rfl

/-- A datagram is given to the connection, or nothing happens. -/
theorem host_arrive (s : Stack c) (side : Side) (x : c.Input) :
    (s.step (.arrive side x)).host side = s.host side ∨
      ∃ seg, (s.step (.arrive side x)).host side =
        (s.host side).enqueue ((s.host side).conn.segmentReceived seg) := by
  simp only [Stack.step]
  split
  · exact Or.inl rfl
  · rename_i seg channel hread
    exact Or.inr ⟨seg, host_become ..⟩

/-- The first segment leaves the queue. -/
theorem host_transmit (s : Stack c) (side : Side) :
    (s.step (.transmit side)).host side = { s.host side with
      conn := { (s.host side).conn with
        segmentsOut := (s.host side).conn.segmentsOut.tail } } := by
  cases hqueue : (s.host side).conn.segmentsOut with
  | nil =>
      simp only [Stack.step, hqueue]
      rw [List.tail_nil, ← hqueue]
  | cons seg rest =>
      simp only [Stack.step, hqueue]
      exact host_become ..

end Stack

namespace Sockets

variable {c : Channel} {start : Stack c} {w : Sockets c} {side : Side}

@[simp]
theorem stack_act (w : Sockets c) (e : Stack.Event c) : (w.act e).stack = w.stack.step e := rfl

@[simp]
theorem socket_act (w : Sockets c) (e : Stack.Event c) : (w.act e).socket = w.socket := rfl

@[simp]
theorem stack_put (w : Sockets c) (side : Side) (k : TCPSpongeSocket) :
    (w.put side k).stack = w.stack := rfl

/-- The socket of a side is exchanged. -/
@[simp]
theorem socket_put (w : Sockets c) (side : Side) (k : TCPSpongeSocket) :
    (w.put side k).socket side = k :=
  Function.update_self ..

/-- The last exchange counts. -/
theorem put_put (w : Sockets c) (side : Side) (k k' : TCPSpongeSocket) :
    (w.put side k).put side k' = w.put side k' :=
  congrArg (fun socket => { w with socket := socket }) (Function.update_idem ..)

/-- The other socket stays as it is. -/
@[simp]
theorem socket_put_other (w : Sockets c) (side : Side) (k : TCPSpongeSocket) :
    (w.put side k).socket side.other = w.socket side.other :=
  Function.update_of_ne (Side.other_ne side) ..

/-- The stack is where its events lead, and they are those of disciplined owners. -/
structure Lawful (start : Stack c) (w : Sockets c) : Prop where
  stack_eq : w.stack = run Stack.step start w.trace
  disciplined : Admissible Stack.step Stack.Event.Disciplined start w.trace

/-- A disciplined event is recorded. -/
theorem Lawful.act (h : Lawful start w) {e : Stack.Event c} (hok : e.Disciplined w.stack) :
    Lawful start (w.act e) where
  stack_eq := by
    change w.stack.step e = run Stack.step start (w.trace ++ [e])
    rw [run_concat, ← h.stack_eq]
  disciplined := by
    refine (admissible_append _ _ _).mpr ⟨h.disciplined, ?_, trivial⟩
    rw [← h.stack_eq]
    exact hok

/-- One side moves; the other one is `h` with the socket `k`. -/
structure Focus (start : Stack c) (side : Side) (h : Host) (k : TCPSpongeSocket) (w : Sockets c) :
    Prop where
  lawful : Lawful start w
  host_eq : w.stack.host side.other = h
  socket_eq : w.socket side.other = k

variable {h h' : Host} {k k' : TCPSpongeSocket}

/-- The socket of the side is exchanged. -/
theorem Focus.put (hf : Focus start side h k w) (k' : TCPSpongeSocket) :
    Focus start side h k (w.put side k') :=
  ⟨⟨hf.lawful.stack_eq, hf.lawful.disciplined⟩, hf.host_eq, by rw [socket_put_other, hf.socket_eq]⟩

/-- An event of the side leaves the other one alone. -/
theorem Focus.act (hf : Focus start side h k w) {e : Stack.Event c} (hside : e.side? = some side)
    (hok : e.Disciplined w.stack) : Focus start side h k (w.act e) := by
  refine ⟨hf.lawful.act hok, ?_, hf.socket_eq⟩
  rw [stack_act, Stack.host_step_of_ne _ fun heq => ?_, hf.host_eq]
  rw [hside, Option.some.injEq] at heq
  exact Side.other_ne side heq.symm

/-! ## Invariants -/

/-- What holds of a socket and its host, also when the thread has ended with an exception. -/
structure Basic (h : Host) (k : TCPSpongeSocket) : Prop where
  tame : h.Tame
  taken_eq : k.taken = h.wrote
  given_part : k.given <+: h.received
  open_eq : k.threadData.closed = false
  eof_ended : k.threadData.eof = true → h.conn.sender.stream.inputEnded = true

/-- Without an exception, what the owner was given is what was taken from the inbound stream. -/
structure Regular (h : Host) (k : TCPSpongeSocket) : Prop extends Basic h k where
  given_eq : k.given = h.popped

/-- When the outbound stream has ended, rule 2 is gone, or will be cancelled without effect. -/
structure Calm (h : Host) (k : TCPSpongeSocket) (rules : List SocketRule) : Prop where
  ended : h.conn.sender.stream.inputEnded = true →
    .readPipe ∉ rules ∨ k.threadData.eof = true
  idle : .readPipe ∈ rules → k.threadData.eof = true → h.conn.sender.Idle

/-- What was popped is a part of what was received. -/
theorem regular_of_eq (htame : h.Tame) (htaken : k.taken = h.wrote) (hgiven : k.given = h.popped)
    (hopen : k.threadData.closed = false)
    (heof : k.threadData.eof = true → h.conn.sender.stream.inputEnded = true) : Regular h k :=
  ⟨⟨htame, htaken, by rw [hgiven]; exact List.prefix_append _ _, hopen, heof⟩, hgiven⟩

/-- The descriptors and flags that the invariant does not mention. -/
theorem Regular.congr (hregular : Regular h k) (htaken : k'.taken = k.taken)
    (hgiven : k'.given = k.given) (hthread : k'.threadData = k.threadData) : Regular h k' := by
  refine regular_of_eq hregular.tame (htaken.trans hregular.taken_eq)
    (hgiven.trans hregular.given_eq) ?_ ?_
  · rw [hthread]
    exact hregular.open_eq
  · rw [hthread]
    exact hregular.eof_ended

/-- The counters and the loop play no part. -/
theorem Basic.congr (hbasic : Basic h k) (htaken : k'.taken = k.taken)
    (hgiven : k'.given = k.given) (hthread : k'.threadData = k.threadData) : Basic h k' :=
  ⟨hbasic.tame, htaken.trans hbasic.taken_eq, by rw [hgiven]; exact hbasic.given_part,
    by rw [hthread]; exact hbasic.open_eq, by rw [hthread]; exact hbasic.eof_ended⟩

/-- A host that still takes the calls of its owner. -/
def Hears (h : Host) : Prop :=
  h.conn.active = true ∨ Stack.Refused h

/-- A call that fills the window keeps the other rules going. -/
theorem Hears.feed (hhears : Hears h) (htame : h.Tame) (stream : ByteStream) :
    let s := TCPSender.fillWindow { h.conn.sender with stream := stream }
    Hears (h.enqueue { h.conn with sender := s }.sendWithAcknoAndWin) := by
  refine hhears.imp id fun hrefused => ⟨hrefused.inactive, hrefused.error, fun p hp => ?_⟩
  exact ((htame.feed stream).2 p hp).elim (hrefused.silent p) id

/-! ## The order of the rules -/

/-- The rules behind are those that were added before. -/
theorem behind_of_order {kept todo : List SocketRule} {r r' : SocketRule}
    (horder : (kept ++ r :: todo).Sublist SocketRule.all) (hmem : r' ∈ kept) :
    [r', r].Sublist SocketRule.all :=
  ((List.singleton_sublist.mpr hmem).append
    (List.singleton_sublist.mpr List.mem_cons_self)).trans horder

/-- The rules ahead are those that were added later. -/
theorem ahead_of_order {kept todo : List SocketRule} {r r' : SocketRule}
    (horder : (kept ++ r :: todo).Sublist SocketRule.all) (hmem : r' ∈ todo) :
    [r, r'].Sublist SocketRule.all :=
  (((List.singleton_sublist.mpr hmem).cons_cons r).trans (List.sublist_append_right _ _)).trans
    horder

/-! ## The first loop -/

/-- Along the first loop. -/
structure Asking (start : Stack c) (side : Side) (h : Host) (k : TCPSpongeSocket)
    (todo : List SocketRule) (done : List (SocketRule × Bool)) (w : Sockets c) : Prop where
  focus : Focus start side h k w
  regular : Regular (w.stack.host side) (w.socket side)
  order : (done.map Prod.fst ++ todo).Sublist SocketRule.all
  asked : ∀ r answer, (r, answer) ∈ done → interested side r w = answer
  waiting : .readPipe ∈ done.map Prod.fst → (w.socket side).threadData.eof = false ∧
    (w.conn side).sender.stream.inputEnded = false
  ahead : .readPipe ∈ todo → ((w.conn side).sender.stream.inputEnded = true →
    (w.socket side).threadData.eof = true) ∧
      ((w.socket side).threadData.eof = true → (w.conn side).sender.Idle)

/-- A rule whose descriptor is at its end is cancelled: rule 2 ends the stream again. -/
theorem Asking.cancel {r : SocketRule} {todo : List SocketRule} {done : List (SocketRule × Bool)}
    (ha : Asking start side h k (r :: todo) done w) (hspent : EventLoop.Spent (rules c side) r w) :
    Asking start side h k todo done (cancelled side r w) := by
  have horder : (done.map Prod.fst ++ todo).Sublist SocketRule.all :=
    ((List.sublist_cons_self r todo).append_left _).trans ha.order
  have hstay : Asking start side h k todo done w :=
    ⟨ha.focus, ha.regular, horder, ha.asked, ha.waiting,
      fun hmem => ha.ahead (List.mem_cons_of_mem _ hmem)⟩
  cases r with
  | readDatagram => exact hstay
  | writePipe => exact hstay
  | writeDatagram => exact hstay
  | readPipe =>
      have heof : (w.socket side).threadData.eof = true := (hspent.of_open ha.regular.open_eq).2
      have hnothing : (w.conn side).endInputStream = w.conn side :=
        TCPConnection.endInputStream_of_idle ((ha.ahead List.mem_cons_self).2 heof)
          (ha.regular.eof_ended heof) ha.regular.tame.quiet
      have hsame : w.stack.step (.endInputStream side) = w.stack :=
        Stack.step_endInputStream_eq_self hnothing
      have hok : Stack.Event.Disciplined w.stack (.endInputStream side) :=
        Or.inr (Or.inr hnothing)
      change Asking start side h k todo done (cancelPipe side w)
      have hhost : (cancelPipe side w).stack = w.stack := hsame
      have hsocket : (cancelPipe side w).socket side =
          { w.socket side with outboundShutdown := true } := socket_put ..
      have hconn : (cancelPipe side w).conn side = w.conn side := by
        rw [conn, hhost]
        rfl
      refine ⟨(ha.focus.act rfl hok).put _, ?_, horder, fun r answer hmem => ?_, ?_, ?_⟩
      · rw [hhost, hsocket]
        exact ha.regular.congr rfl rfl rfl
      · -- Only rule 2 looks at what is changed, and it has not been asked.
        have hother : r ≠ .readPipe := by
          rintro rfl
          have hbehind : SocketRule.readPipe ∈ done.map Prod.fst := List.mem_map_of_mem hmem
          exact absurd (behind_of_order ha.order hbehind) (by decide)
        rw [← ha.asked r answer hmem]
        cases r with
        | readPipe => exact absurd rfl hother
        | readDatagram => simp only [interested, hconn]
        | writePipe => simp only [interested, hconn, hsocket]
        | writeDatagram => simp only [interested, hconn]
      · rw [hconn, hsocket]
        exact ha.waiting
      · rw [hconn, hsocket]
        exact hstay.ahead

/-- The other rules are asked. -/
theorem Asking.keep {r : SocketRule} {todo : List SocketRule} {done : List (SocketRule × Bool)}
    (ha : Asking start side h k (r :: todo) done w)
    (hspent : ¬ EventLoop.Spent (rules c side) r w) :
    Asking start side h k todo (done ++ [(r, interested side r w)]) w where
  focus := ha.focus
  regular := ha.regular
  order := by
    rw [List.map_append, List.append_assoc]
    exact ha.order
  asked r' answer hmem := by
    rcases List.mem_append.mp hmem with hmem | hmem
    · exact ha.asked r' answer hmem
    · obtain ⟨rfl, rfl⟩ := Prod.mk.inj (List.mem_singleton.mp hmem)
      rfl
  waiting hmem := by
    rw [List.map_append, List.mem_append] at hmem
    rcases hmem with hmem | hmem
    · exact ha.waiting hmem
    · obtain rfl := List.mem_singleton.mp hmem
      have hrunning : (w.socket side).threadData.eof = false := by
        by_contra heof
        exact hspent (Or.inl ⟨rfl, Bool.eq_true_of_not_eq_false heof⟩)
      refine ⟨hrunning, ?_⟩
      by_contra hended
      have heof := (ha.ahead List.mem_cons_self).1 (Bool.eq_true_of_not_eq_false hended)
      rw [hrunning] at heof
      cases heof
  ahead hmem := ha.ahead (List.mem_cons_of_mem _ hmem)

/-! ## The second loop -/

/-- Along the second loop. -/
structure Dispatching (start : Stack c) (side : Side) (h : Host) (k : TCPSpongeSocket)
    (kept : List SocketRule) (todo : List (SocketRule × Bool)) (w : Sockets c) : Prop where
  focus : Focus start side h k w
  regular : Regular (w.stack.host side) (w.socket side)
  order : (kept ++ todo.map Prod.fst).Sublist SocketRule.all
  datagram : (.readDatagram, true) ∈ todo → (w.conn side).active = true
  waiting : .readPipe ∈ todo.map Prod.fst → (w.socket side).threadData.eof = false ∧
    (w.conn side).sender.stream.inputEnded = false
  pipe : (.readPipe, true) ∈ todo → Hears (w.stack.host side)
  passed : .readPipe ∉ todo.map Prod.fst → Calm (w.stack.host side) (w.socket side) kept

/-- What holds of the rules that are left behind a call that returns. -/
structure Settled (start : Stack c) (side : Side) (h : Host) (k : TCPSpongeSocket)
    (rules : List SocketRule) (w : Sockets c) : Prop where
  focus : Focus start side h k w
  regular : Regular (w.stack.host side) (w.socket side)
  order : rules.Sublist SocketRule.all
  calm : Calm (w.stack.host side) (w.socket side) rules

/-- The stream of a socket whose rule 2 is left has not ended. -/
theorem calm_of_running (heof : k.threadData.eof = false)
    (hended : h.conn.sender.stream.inputEnded = false) (rules : List SocketRule) :
    Calm h k rules := by
  refine ⟨fun htrue => ?_, fun _ htrue => ?_⟩
  · rw [hended] at htrue
    cases htrue
  · rw [heof] at htrue
    cases htrue

/-- Only rule 2 matters. -/
theorem Calm.congr {kept left : List SocketRule} (hcalm : Calm h k kept)
    (hrules : .readPipe ∈ left → .readPipe ∈ kept) : Calm h k left :=
  ⟨fun hended => (hcalm.ended hended).imp_left fun hnot hmem => hnot (hrules hmem),
    fun hmem => hcalm.idle (hrules hmem)⟩

/-- All rules have been asked. -/
theorem Asking.settled {polled : List (SocketRule × Bool)}
    (ha : Asking start side h k [] polled w) :
    Dispatching start side h k [] polled w ∧
      Settled start side h k (polled.map Prod.fst) w := by
  have horder := ha.order
  rw [List.append_nil] at horder
  have hactive (hmem : (.readPipe, true) ∈ polled) : (w.conn side).active = true := by
    have hinterest := ha.asked _ _ hmem
    change ((w.conn side).active && _ && _) = true at hinterest
    rw [Bool.and_eq_true, Bool.and_eq_true] at hinterest
    exact hinterest.1.1
  refine ⟨⟨ha.focus, ha.regular, horder, ha.asked _ _, ha.waiting,
    fun hmem => Or.inl (hactive hmem), fun _ => ?_⟩, ⟨ha.focus, ha.regular, horder, ?_⟩⟩
  · exact ⟨fun _ => Or.inl List.not_mem_nil, fun hmem => absurd hmem List.not_mem_nil⟩
  · by_cases hmem : .readPipe ∈ polled.map Prod.fst
    · exact calm_of_running (ha.waiting hmem).1 (ha.waiting hmem).2 _
    · exact ⟨fun _ => Or.inl hmem, fun hin => absurd hin hmem⟩

/-- A rule is passed over. -/
theorem Dispatching.skip {kept : List SocketRule} {r : SocketRule} {asked : Bool}
    {todo : List (SocketRule × Bool)}
    (hd : Dispatching start side h k kept ((r, asked) :: todo) w) :
    Dispatching start side h k (kept ++ [r]) todo w where
  focus := hd.focus
  regular := hd.regular
  order := by
    rw [List.append_assoc]
    exact hd.order
  datagram hmem := hd.datagram (List.mem_cons_of_mem _ hmem)
  waiting hmem := hd.waiting (List.mem_cons_of_mem _ hmem)
  pipe hmem := hd.pipe (List.mem_cons_of_mem _ hmem)
  passed hnot := by
    by_cases hr : r = .readPipe
    · obtain ⟨heof, hended⟩ := hd.waiting (by rw [hr]; exact List.mem_cons_self)
      exact calm_of_running heof hended _
    · refine (hd.passed ?_).congr fun hmem => ?_
      · rw [List.map_cons, List.mem_cons, not_or]
        exact ⟨fun heq => hr heq.symm, hnot⟩
      · exact (List.mem_append.mp hmem).resolve_right fun hin =>
          hr (List.mem_singleton.mp hin).symm

/-- A rule that does not touch the outbound stream has been called, and its side is now `w'`. -/
theorem Dispatching.move {kept : List SocketRule} {r : SocketRule}
    {todo : List (SocketRule × Bool)} {w' : Sockets c}
    (hd : Dispatching start side h k kept ((r, true) :: todo) w) (hr : r ≠ .readPipe)
    (hfocus : Focus start side h k w')
    (hregular : Regular (w'.stack.host side) (w'.socket side))
    (heof : (w'.socket side).threadData.eof = (w.socket side).threadData.eof)
    (hended : (w'.conn side).sender.stream.inputEnded = (w.conn side).sender.stream.inputEnded)
    (hactive : (.readDatagram, true) ∈ todo → (w'.conn side).active = true)
    (hhears : (.readPipe, true) ∈ todo → Hears (w'.stack.host side))
    (hidle : .readPipe ∈ kept → (w.conn side).sender.Idle → (w'.conn side).sender.Idle) :
    Dispatching start side h k (kept ++ [r]) todo w' where
  focus := hfocus
  regular := hregular
  order := by
    rw [List.append_assoc]
    exact hd.order
  datagram := hactive
  waiting hmem := by
    rw [heof, hended]
    exact hd.waiting (List.mem_cons_of_mem _ hmem)
  pipe := hhears
  passed hnot := by
    have hcalm := hd.passed (by
      rw [List.map_cons, List.mem_cons, not_or]
      exact ⟨fun heq => hr heq.symm, hnot⟩)
    have hkept : ∀ {rules : List SocketRule}, .readPipe ∈ rules ++ [r] → .readPipe ∈ rules :=
      fun hmem => (List.mem_append.mp hmem).resolve_right fun hin =>
        hr (List.mem_singleton.mp hin).symm
    refine ⟨fun htrue => ?_, fun hmem htrue => ?_⟩
    · rw [heof]
      change (w'.conn side).sender.stream.inputEnded = true at htrue
      rw [hended] at htrue
      exact (hcalm.ended htrue).imp_left fun hnot hmem => hnot (hkept hmem)
    · rw [heof] at htrue
      exact hidle (hkept hmem) (hcalm.idle (hkept hmem) htrue)

/-- The inbound stream has been passed on, and the outbound stream accounts for all bytes that
were read from the owner, whether or not the end of these bytes has been seen. -/
structure Accepted (start : Stack c) (side : Side) (h : Host) (k : TCPSpongeSocket)
    (w : Sockets c) : Prop where
  focus : Focus start side h k w
  tame : (w.stack.host side).Tame
  taken_eq : (w.socket side).taken = (w.stack.host side).wrote
  given_eq : (w.socket side).given = (w.stack.host side).popped
  open_eq : (w.socket side).threadData.closed = false
  hears : Hears (w.stack.host side)

/-- Cancelling rule 2 ends the outbound stream. -/
theorem host_cancelPipe (side : Side) (w : Sockets c) :
    (cancelPipe side w).stack.host side =
      (w.stack.host side).enqueue (w.conn side).endInputStream :=
  Stack.host_become ..

/-- Cancelling rule 2 is remembered. -/
theorem socket_cancelPipe (side : Side) (w : Sockets c) :
    (cancelPipe side w).socket side = { w.socket side with outboundShutdown := true } :=
  socket_put ..

/-- The stream is ended. -/
theorem Accepted.cancelPipe (ha : Accepted start side h k w) :
    Focus start side h k (cancelPipe side w) ∧
      Regular ((Sockets.cancelPipe side w).stack.host side)
        ((Sockets.cancelPipe side w).socket side) := by
  have hok : Stack.Event.Disciplined w.stack (.endInputStream side) := ha.hears.imp_right Or.inl
  refine ⟨(ha.focus.act rfl hok).put _, ?_⟩
  rw [host_cancelPipe, socket_cancelPipe]
  exact regular_of_eq (ha.tame.feed (w.conn side).sender.stream.endInput).1 ha.taken_eq
    ha.given_eq ha.open_eq fun _ => TCPConnection.inputEnded_endInputStream _

/-- A rule is cancelled because its descriptor has hung up. -/
theorem Dispatching.cancel {kept : List SocketRule} {r : SocketRule}
    {todo : List (SocketRule × Bool)}
    (hd : Dispatching start side h k kept ((r, true) :: todo) w) :
    Dispatching start side h k kept todo (cancelled side r w) := by
  have horder : (kept ++ todo.map Prod.fst).Sublist SocketRule.all :=
    ((List.sublist_cons_self r _).append_left _).trans hd.order
  have hstay (hr : r ≠ .readPipe) : Dispatching start side h k kept todo w :=
    ⟨hd.focus, hd.regular, horder, fun hmem => hd.datagram (List.mem_cons_of_mem _ hmem),
      fun hmem => hd.waiting (List.mem_cons_of_mem _ hmem),
      fun hmem => hd.pipe (List.mem_cons_of_mem _ hmem), fun hnot => hd.passed (by
        rw [List.map_cons, List.mem_cons, not_or]
        exact ⟨fun heq => hr heq.symm, hnot⟩)⟩
  cases r with
  | readDatagram => exact hstay (by decide)
  | writePipe => exact hstay (by decide)
  | writeDatagram => exact hstay (by decide)
  | readPipe =>
      have hbehind : .readPipe ∉ kept := fun hmem =>
        absurd (behind_of_order hd.order hmem) (by decide)
      have hahead : .readPipe ∉ todo.map Prod.fst := fun hmem =>
        absurd (ahead_of_order hd.order hmem) (by decide)
      obtain ⟨hfocus, hregular⟩ := Accepted.cancelPipe ⟨hd.focus, hd.regular.tame,
        hd.regular.taken_eq, hd.regular.given_eq, hd.regular.open_eq, hd.pipe List.mem_cons_self⟩
      refine ⟨hfocus, hregular, horder, fun hmem => ?_, fun hmem => absurd hmem hahead,
        fun hmem => absurd (List.mem_map_of_mem hmem) hahead, fun _ => ?_⟩
      · exact absurd (ahead_of_order hd.order (List.mem_map_of_mem hmem)) (by decide)
      · exact ⟨fun _ => Or.inl hbehind, fun hmem => absurd hmem hbehind⟩

end Sockets
end Sponge
