import Sponge.Network.Handshake
import Sponge.Stack.Discipline
import Sponge.TCPConnection.Reply
import Sponge.TCPSender.Idle

/-!
# What a socket does to its host

The operations of a connection, as a socket invokes them: on an active connection, or on one that
the peer has reset.

Main results:

- Theorem {lit}`TCPConnection.Streams.perform`: the streams keep their capacities, and the inbound
  stream of a closed connection has ended or is in error.
- Theorems {lit}`Host.Tame.feed` and {lit}`Host.Tame.operate`: no segment but a RST of a closed
  connection is a RST.
- Theorem {lit}`TCPConnection.segmentReceived_active`: an active connection is closed by a RST, or
  when its outbound stream is at its end.
- Theorem {lit}`Host.state_connect`: a fresh connection that has been opened is in `SYN_SENT`.
- Theorem {lit}`TCPConnection.endInputStream_of_idle`: to end a stream twice does nothing.
-/

namespace Sponge

open Library

/-! ## Connections -/

namespace TCPConnection

variable {c : TCPConnection} {seg : TCPSegment}

/-- An active connection is closed by a RST, or when its outbound stream is at its end. -/
theorem segmentReceived_active (hactive : c.active = true) (seg : TCPSegment) :
    (c.segmentReceived seg).active = true ∨
      ((c.segmentReceived seg).active = false ∧
        (c.segmentReceived seg).segmentsOut = c.segmentsOut ∧
        (c.segmentReceived seg).receiver.streamOut.error = true) ∨
      c.sender.stream.eof = true := by
  cases hrst : seg.header.rst with
  | true =>
      rw [segmentReceived_rst hrst]
      exact Or.inr (Or.inl ⟨rfl, rfl, rfl⟩)
  | false =>
      cases hcloses : c.closes seg with
      | true =>
          rw [closes, Bool.and_eq_true, finished, decide_eq_true_eq] at hcloses
          have heof := TCPSender.eof_of_finAcked hcloses.1.2
          rw [stream_acked] at heof
          exact Or.inr (Or.inr heof)
      | false =>
          rw [segmentReceived_open hrst hcloses]
          exact Or.inl hactive

/-- The answer to a segment only reads from the outbound stream. -/
theorem reply_keeps {P : ByteStream → Prop}
    (hpop : ∀ stream len, P stream → P (stream.popOutput len)) {s : TCPSender} (h : P s.stream)
    (r : TCPReceiver) (seg : TCPSegment) : P (reply r s seg).stream := by
  have hfilled : P s.fillWindow.stream := TCPSender.fillWindow_keeps hpop h
  unfold reply
  split
  · simp only
    split
    · exact hfilled
    · exact hfilled
  · exact h

/-- A segment only reads from the outbound stream, or puts it into its error state. -/
theorem segmentReceived_keeps {P : ByteStream → Prop}
    (hpop : ∀ stream len, P stream → P (stream.popOutput len))
    (herror : ∀ stream, P stream → P stream.setError) (h : P c.sender.stream) (seg : TCPSegment) :
    P (c.segmentReceived seg).sender.stream := by
  have hacked : P (acked c.sender seg).stream := by
    rw [stream_acked]
    exact h
  cases hrst : seg.header.rst with
  | true =>
      rw [segmentReceived_rst hrst]
      exact herror _ h
  | false =>
      cases hcloses : c.closes seg with
      | true =>
          rw [segmentReceived_closes hrst hcloses]
          exact hacked
      | false =>
          rw [segmentReceived_open hrst hcloses]
          exact reply_keeps hpop hacked _ seg

/-- A segment does not end the outbound stream. -/
theorem inputEnded_stream_segmentReceived (c : TCPConnection) (seg : TCPSegment) :
    (c.segmentReceived seg).sender.stream.inputEnded = c.sender.stream.inputEnded :=
  segmentReceived_keeps (P := fun stream => stream.inputEnded = c.sender.stream.inputEnded)
    (fun _ _ h => h) (fun _ h => h) rfl seg

/-! ## The two streams -/

/-- The streams have the capacities of the configuration, and the inbound stream of a closed
connection has ended or is in error. -/
structure Streams (cfg : TCPConfig) (c : TCPConnection) : Prop where
  outbound_eq : c.sender.stream.capacity = cfg.sendCapacity
  inbound_eq : c.inboundStream.capacity = cfg.recvCapacity
  ended : c.active = false → c.inboundStream.inputEnded = true ∨ c.inboundStream.error = true

theorem streams_new (cfg : TCPConfig) (random : UInt32) : (new cfg random).Streams cfg :=
  ⟨rfl, rfl, fun h => by cases h⟩

variable {cfg : TCPConfig}

/-- The owner writes, or ends the stream. -/
theorem Streams.feed (h : c.Streams cfg) {stream : ByteStream}
    (hstream : stream.capacity = c.sender.stream.capacity) :
    ({ c with sender := { c.sender with stream := stream }.fillWindow
      }.sendWithAcknoAndWin).Streams cfg where
  outbound_eq := TCPSender.fillWindow_keeps (s := { c.sender with stream := stream })
    (P := fun stream => stream.capacity = cfg.sendCapacity) (fun _ _ h => h)
    (hstream.trans h.outbound_eq)
  inbound_eq := h.inbound_eq
  ended := h.ended

theorem Streams.segmentReceived (h : c.Streams cfg) (seg : TCPSegment) :
    (c.segmentReceived seg).Streams cfg := by
  have houtbound : (c.segmentReceived seg).sender.stream.capacity = cfg.sendCapacity :=
    segmentReceived_keeps (P := fun stream => stream.capacity = cfg.sendCapacity)
      (fun _ _ h => h) (fun _ h => h) h.outbound_eq seg
  have hinbound : (c.receiver.segmentReceived seg).streamOut.capacity = cfg.recvCapacity :=
    TCPReceiver.segmentReceived_keeps (P := fun stream => stream.capacity = cfg.recvCapacity)
      (fun _ _ h => h) (fun _ h => h) seg h.inbound_eq
  cases hrst : seg.header.rst with
  | true =>
      rw [segmentReceived_rst hrst] at houtbound ⊢
      exact ⟨houtbound, h.inbound_eq, fun _ => Or.inr rfl⟩
  | false =>
      cases hcloses : c.closes seg with
      | true =>
          rw [segmentReceived_closes hrst hcloses] at houtbound ⊢
          refine ⟨houtbound, hinbound, fun _ => Or.inl ?_⟩
          rw [closes, Bool.and_eq_true, finished, decide_eq_true_eq] at hcloses
          exact TCPReceiver.inputEnded_of_finRecv hcloses.1.1
      | false =>
          rw [segmentReceived_open hrst hcloses] at houtbound ⊢
          refine ⟨houtbound, hinbound, fun hinactive => (h.ended hinactive).imp ?_ ?_⟩
          · exact TCPReceiver.segmentReceived_keeps (P := fun stream => stream.inputEnded = true)
              (fun _ _ h => h) (fun _ _ => rfl) seg
          · exact (TCPReceiver.error_segmentReceived c.receiver seg).trans

theorem Streams.tick (h : c.Streams cfg) (ms : UInt64) : (c.tick ms).Streams cfg := by
  obtain ⟨segs, hticked⟩ := c.sender.tick_ticked ms
  have houtbound : (c.sender.tick ms).stream.capacity = cfg.sendCapacity :=
    (congrArg ByteStream.capacity hticked.stream_eq).trans h.outbound_eq
  rcases Nat.lt_or_ge TCPConfig.maxRetxAttempts
    (c.sender.tick ms).consecutiveRetransmissions with hbeyond | hwithin
  · rw [tick_beyond hbeyond]
    exact ⟨houtbound, h.inbound_eq, fun _ => Or.inr rfl⟩
  · obtain ⟨active, hclosed, htick⟩ := tick_within hwithin
    rw [htick]
    refine ⟨houtbound, h.inbound_eq, fun hinactive => ?_⟩
    rcases hclosed hinactive with hbefore | hfinished
    · exact h.ended hbefore
    · rw [finished, decide_eq_true_eq] at hfinished
      exact Or.inl (TCPReceiver.inputEnded_of_finRecv hfinished.1)

/-- Every operation keeps the streams so. -/
theorem Streams.perform (h : c.Streams cfg) (op : Operation) : (c.perform op).Streams cfg := by
  cases op with
  | connect => exact h.feed rfl
  | segmentReceived seg => exact h.segmentReceived seg
  | write data => exact h.feed rfl
  | endInputStream => exact h.feed rfl
  | tick ms => exact h.tick ms
  | read len => exact ⟨h.outbound_eq, h.inbound_eq, h.ended⟩

/-! ## What the socket relies on -/

/-- The clock changes nothing that `fill_window` looks at, and nothing that was received. -/
theorem tick_quiet (c : TCPConnection) (ms : UInt64) :
    ((c.tick ms).sender.stream.inputEnded = c.sender.stream.inputEnded ∧
      ((c.tick ms).sender.Idle ↔ c.sender.Idle)) ∧
      (c.tick ms).inboundStream.contents = c.inboundStream.contents := by
  obtain ⟨segs, hticked⟩ := c.sender.tick_ticked ms
  have hidle (s : TCPSender) (hstream : s.stream.bufferEmpty = c.sender.stream.bufferEmpty)
      (hended : s.stream.inputEnded = c.sender.stream.inputEnded)
      (hsyned : s.syned = c.sender.syned) (hfin : s.fin = c.sender.fin)
      (hsize : s.windowSize = c.sender.windowSize)
      (hused : s.windowUsedSize = c.sender.windowUsedSize) : s.Idle ↔ c.sender.Idle := by
    simp only [TCPSender.Idle, TCPSender.Drained, hstream, hended, hsyned, hfin, hsize, hused]
  have hended := congrArg ByteStream.inputEnded hticked.stream_eq
  have hempty := congrArg ByteStream.bufferEmpty hticked.stream_eq
  rcases Nat.lt_or_ge TCPConfig.maxRetxAttempts
    (c.sender.tick ms).consecutiveRetransmissions with hbeyond | hwithin
  · rw [tick_beyond hbeyond]
    exact ⟨⟨hended, hidle _ hempty hended hticked.syned_eq hticked.fin_eq hticked.windowSize_eq
      hticked.windowUsedSize_eq⟩, rfl⟩
  · obtain ⟨active, -, htick⟩ := tick_within hwithin
    rw [htick]
    exact ⟨⟨hended, hidle _ hempty hended hticked.syned_eq hticked.fin_eq hticked.windowSize_eq
      hticked.windowUsedSize_eq⟩, rfl⟩

/-- `end_input_stream()` leaves nothing to be sent. -/
theorem idle_endInputStream (c : TCPConnection) : c.endInputStream.sender.Idle :=
  TCPSender.idle_fillWindow { c.sender with stream := c.sender.stream.endInput }

theorem inputEnded_endInputStream (c : TCPConnection) :
    c.endInputStream.sender.stream.inputEnded = true :=
  TCPSender.fillWindow_keeps (s := { c.sender with stream := c.sender.stream.endInput })
    (P := fun stream => stream.inputEnded = true) (fun _ _ h => h) rfl

/-- To end a stream again does nothing. -/
theorem endInputStream_of_idle (hidle : c.sender.Idle)
    (hended : c.sender.stream.inputEnded = true) (hquiet : c.sender.segmentsOut = []) :
    c.endInputStream = c := by
  have hstream : c.sender.stream.endInput = c.sender.stream := by
    unfold ByteStream.endInput
    rw [← hended]
  have hsender : { c.sender with stream := c.sender.stream.endInput } = c.sender := by
    rw [hstream]
  unfold endInputStream
  rw [hsender, TCPSender.fillWindow_of_idle hidle]
  unfold sendWithAcknoAndWin
  simp only [hquiet, List.map_nil, List.append_nil]
  rw [← hquiet]

end TCPConnection

/-! ## Hosts -/

/-- An event is an operation of a connection, or takes segments from its queue. -/
theorem Stack.conn_step {c : Channel} (s : Stack c) (e : Stack.Event c) (side : Side) :
    (∃ op, ((s.step e).host side).conn = (s.host side).conn.perform op) ∨
      ∃ queue, ((s.step e).host side).conn =
        { (s.host side).conn with segmentsOut := queue } := by
  have hbecome {side' : Side} {h : Host} (op : TCPConnection.Operation)
      (hconn : h.conn = (s.host side').conn.perform op) :
      (∃ op, ((s.become side' h).host side).conn = (s.host side).conn.perform op) ∨
        ∃ queue, ((s.become side' h).host side).conn =
          { (s.host side).conn with segmentsOut := queue } := by
    by_cases hside : side = side'
    · subst hside
      rw [Stack.host_become]
      exact Or.inl ⟨op, hconn⟩
    · obtain rfl := Side.eq_other_of_ne hside
      rw [Stack.host_become_other]
      exact Or.inr ⟨_, rfl⟩
  cases e with
  | connect side' => exact hbecome .connect rfl
  | write side' data => exact hbecome (.write data) rfl
  | endInputStream side' => exact hbecome .endInputStream rfl
  | read side' len => exact hbecome (.read len) rfl
  | tick side' ms => exact hbecome (.tick ms) rfl
  | arrive side' x =>
      simp only [Stack.step]
      split
      · exact Or.inr ⟨_, rfl⟩
      · rename_i seg channel hread
        exact hbecome (.segmentReceived seg) rfl
  | drop side' x => exact Or.inr ⟨_, rfl⟩
  | transmit side' =>
      simp only [Stack.step]
      split
      · exact Or.inr ⟨_, rfl⟩
      · rename_i seg rest hqueue
        by_cases hside : side = side'
        · subst hside
          exact Or.inr ⟨rest, congrArg Host.conn (Stack.host_become ..)⟩
        · obtain rfl := Side.eq_other_of_ne hside
          exact Or.inr ⟨_, congrArg Host.conn (Stack.host_become_other ..)⟩
  | other e => exact Or.inr ⟨_, rfl⟩

/-- What holds of the streams in every run of two hosts. -/
theorem Stack.streams_run {c : Channel} (channel : c.State) (cfg : Side → TCPConfig)
    (random : Side → UInt32) (events : List (Stack.Event c)) (side : Side) :
    ((run Stack.step (Stack.new channel cfg random) events).host side).conn.Streams (cfg side) := by
  refine (admissible_true _ events).invariant
    (I := fun s : Stack c => (s.host side).conn.Streams (cfg side)) (fun s e h _ => ?_)
    (TCPConnection.streams_new (cfg side) (random side))
  rcases s.conn_step e side with ⟨op, hop⟩ | ⟨queue, hqueue⟩
  · rw [hop]
    exact h.perform op
  · rw [hqueue]
    exact ⟨h.outbound_eq, h.inbound_eq, h.ended⟩

/-- A host with nothing in the queue of its sender, whose segments are its own. -/
structure Host.Tame (h : Host) : Prop where
  quiet : h.conn.sender.segmentsOut = []
  modest : h.Modest

theorem Host.tame_new (cfg : TCPConfig) (random : UInt32) : (Host.new cfg random).Tame :=
  ⟨rfl, TCPSender.modest_new _ _ _ _, fun _ hp => absurd hp List.not_mem_nil,
    fun _ hp => absurd hp List.not_mem_nil⟩

/-- A fresh connection is in `SYN_SENT` when it has been opened. -/
theorem Host.state_connect (cfg : TCPConfig) (random : UInt32) :
    (Host.new cfg random).conn.connect.state = .ofState .synSent := by
  let s := TCPSender.new cfg.sendCapacity cfg.rtTimeout cfg.fixedIsn random
  have hlaw := TCPSender.segmented_new cfg.sendCapacity cfg.rtTimeout cfg.fixedIsn random
  have hsyned : s.fillWindow.syned = true := hlaw.fillWindow.syned_iff.mpr hlaw.sent_ne_nil
  have hbare : Bare s.fillWindow := Bare.fillWindow ⟨rfl, rfl, rfl⟩ hlaw fun _ => ⟨rfl, rfl⟩
  have hnext : s.fillWindow.nextSeqno = 1 := by
    rw [hbare.nextSeqno_eq, hsyned]
    rfl
  have hflight : s.fillWindow.bytesInFlight = 1 := by
    have hemit := s.fillWindow_emitted
    have hself : s.latestAckno = wrap 0 s.isn := (wrap_zero _).symm
    rw [TCPSender.bytesInFlight, TCPSender.absoluteAckno, hnext, hemit.latestAckno_eq,
      hemit.isn_eq, hself, unwrap_wrap s.isn (by decide) (by decide) (by decide)
        (by decide)]
    rfl
  have herror : s.fillWindow.stream.error = false :=
    TCPSender.fillWindow_keeps (s := s) (P := fun stream => stream.error = false)
      (fun _ _ h => h) rfl
  have hsender : s.fillWindow.stateSummary = .synSent := by
    simp [TCPSender.stateSummary, TCPSender.nextSeqnoAbsolute, herror, hnext, hflight]
  have hconn : (Host.new cfg random).conn.connect.sender.stateSummary = .synSent := hsender
  rw [TCPConnection.state, hconn]
  rfl

namespace Host.Tame

variable {h : Host}

/-- What was written and read, and what waits to be sent, does not matter. -/
theorem congr (htame : h.Tame) {h' : Host} (hsender : h'.conn.sender = h.conn.sender)
    (hactive : h'.conn.active = h.conn.active) (hpackets : h'.packets = h.packets) : h'.Tame := by
  refine ⟨?_, ?_, ?_, ?_⟩
  · rw [hsender]
    exact htame.quiet
  · rw [hsender]
    exact htame.modest.sender
  · rw [hpackets]
    exact htame.modest.packets
  · rw [hpackets, hactive]
    exact htame.modest.resets

/-- The window is filled with segments that are no resets, also when the connection is closed. -/
theorem feed (htame : h.Tame) (stream : ByteStream) :
    let s := TCPSender.fillWindow { h.conn.sender with stream := stream }
    let h' := h.enqueue { h.conn with sender := s }.sendWithAcknoAndWin
    h'.Tame ∧ ∀ p ∈ h'.packets, p ∈ h.packets ∨ p.seg.header.rst = false := by
  intro s h'
  have hfilled : s.Modest := (htame.modest.sender.withStream stream).fillWindow
  have hnew : ∀ p ∈ h'.packets, p ∈ h.packets ∨ ∃ seg ∈ s.segmentsOut,
      p.seg = TCPConnection.stamp h.conn.receiver seg := by
    intro p hp
    change p ∈ h.packets ++ List.map _ (List.drop _ (h.conn.segmentsOut ++ _)) at hp
    rw [List.drop_left, List.map_map] at hp
    refine (List.mem_append.mp hp).imp_right fun hp => ?_
    obtain ⟨seg, hseg, rfl⟩ := List.mem_map.mp hp
    exact ⟨seg, hseg, rfl⟩
  refine ⟨⟨rfl, ⟨hfilled.cache, fun _ hseg => absurd hseg List.not_mem_nil⟩, ?_, ?_⟩, ?_⟩
  · intro p hp
    rcases hnew p hp with hold | ⟨seg, hseg, heq⟩
    · exact htame.modest.packets p hold
    · rw [heq]
      exact (hfilled.queue seg hseg).toPlain.stamp _
  · intro p hp hrst
    rcases hnew p hp with hold | ⟨seg, hseg, heq⟩
    · exact htame.modest.resets p hold hrst
    · rw [heq] at hrst
      exact absurd hrst (Bool.eq_false_iff.mp (hfilled.queue seg hseg).rst_eq)
  · intro p hp
    refine (hnew p hp).imp_right fun ⟨seg, hseg, heq⟩ => ?_
    rw [heq]
    exact (hfilled.queue seg hseg).rst_eq

/-- An operation of an active connection. -/
theorem operate (htame : h.Tame) {f : TCPConnection → TCPConnection}
    (hf : TCPConnection.Appends f) {inbound : List Packet} {e : Event} {o : Outcome}
    (hturn : Turn inbound h.settled e o (f h.settled.conn).active
      (f h.settled.conn).lingerAfterStreamsFinish)
    (hbecomes : Becomes h.settled o (h.settled.launch (f h.settled.conn))) :
    (h.enqueue (f h.conn)).Tame := by
  have hold : h.settled.Modest :=
    ⟨htame.modest.sender, htame.modest.packets, htame.modest.resets⟩
  have hmodest := hold.becomes hturn hbecomes
  rw [← Host.settled_enqueue hf] at hbecomes hmodest
  exact ⟨congrArg TCPSender.segmentsOut hbecomes.sender_eq, hmodest.sender, hmodest.packets,
    hmodest.resets⟩

theorem tick (htame : h.Tame) (hactive : h.conn.active = true) (ms : UInt64) :
    (h.enqueue (h.conn.tick ms)).Tame := by
  obtain ⟨o, hturn, hbecomes⟩ : ∃ o, Turn [] h.settled (.tick ms) o _ _ ∧ Becomes _ o _ :=
    tick_turn (h := h.settled) hactive rfl ms
  exact htame.operate (TCPConnection.appends_tick ms) hturn hbecomes

theorem segmentReceived (htame : h.Tame) (hactive : h.conn.active = true) (seg : TCPSegment) :
    (h.enqueue (h.conn.segmentReceived seg)).Tame := by
  have hget : ([⟨seg, 0, 0, 0⟩] : List Packet)[0]? = some ⟨seg, 0, 0, 0⟩ := rfl
  obtain ⟨o, hturn, hbecomes⟩ :=
    segmentReceived_turn (h := h.settled) hactive rfl htame.quiet hget
  exact htame.operate (TCPConnection.appends_segmentReceived seg) hturn hbecomes

end Host.Tame

/-- A connection that a RST has closed has sent none. -/
theorem Stack.refused_segmentReceived {h : Host} (htame : h.Tame) (hactive : h.conn.active = true)
    {seg : TCPSegment} (hinactive : (h.conn.segmentReceived seg).active = false)
    (hqueue : (h.conn.segmentReceived seg).segmentsOut = h.conn.segmentsOut)
    (herror : (h.conn.segmentReceived seg).receiver.streamOut.error = true) :
    Stack.Refused (h.enqueue (h.conn.segmentReceived seg)) := by
  refine ⟨hinactive, herror, fun p hp => ?_⟩
  simp only [Host.enqueue, hqueue, List.drop_length, List.map_nil, List.append_nil] at hp
  by_contra hrst
  rw [htame.modest.resets p hp (Bool.eq_true_of_not_eq_false hrst)] at hactive
  cases hactive

end Sponge
