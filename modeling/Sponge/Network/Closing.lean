import Sponge.Network.Acknowledgement

/-!
# Closing without lingering

A connection whose peer has ended its stream first does not linger: it closes as soon as its
own FIN is acknowledged.  This strands nobody.  The flag is cleared before the own FIN is
sent, so every copy of that FIN carries the ackno behind the peer's FIN, and the peer, which
gives a segment to its receiver and its ackno to its sender in one call, has accepted that
ackno when it acknowledges the FIN.

Main results:

- Theorem {lit}`Turn.linger_cleared`: when the flag is cleared.
- Theorem {lit}`LastWord.step`: what the FINs of a host that will not linger acknowledge.
- Theorem {lit}`Heard.moved`: a host that has a FIN has accepted the ackno that came with it.
- Theorem {lit}`no_peer_stranded`: when a host closes without lingering, all of its peer's
  stream is acknowledged.
-/

namespace Sponge

open Library

variable {sent sent' more : List TCPSegment} {isn : WrappingInt32} {r r' : TCPReceiver}
  {popped popped' : List Byte} {inbound packets : List Packet} {ok : Packet → Prop}
  {h h' k : Host} {o : Outcome} {p : Packet} {e : Event} {active linger : Bool}

/-! ## The flag -/

/-- The flag is cleared by an error, or by a segment that ends the inbound stream while the
outbound one still runs. -/
theorem Turn.linger_cleared (hturn : Turn inbound h e o active linger) (hfalse : linger = false) :
    h.conn.lingerAfterStreamsFinish = false ∨ o.receiver.streamOut.error = true ∨
      o.receiver.streamOut.inputEnded = true ∧ h.conn.sender.stream.eof = false := by
  have hsegment : ∀ p : Packet, (h.conn.passOn p.seg).lingerAfterStreamsFinish = false →
      h.conn.lingerAfterStreamsFinish = false ∨
        (h.conn.receiver.segmentReceived p.seg).streamOut.error = true ∨
        (h.conn.receiver.segmentReceived p.seg).streamOut.inputEnded = true ∧
          h.conn.sender.stream.eof = false := by
    intro p hcleared
    rw [TCPConnection.lingerAfterStreamsFinish_passOn] at hcleared
    split at hcleared
    · rename_i hends
      rw [Bool.and_eq_true, Bool.not_eq_true'] at hends
      exact Or.inr (Or.inr hends)
    · exact Or.inl hcleared
  cases hturn with
  | feed e stream wrote hfeed hspoken => exact Or.inl hfalse
  | tick ms active => exact Or.inl hfalse
  | giveUp ms => exact Or.inr (Or.inl rfl)
  | read len => exact Or.inl hfalse
  | lose i hnone => exact Or.inl hfalse
  | reset i p hget hrst => exact Or.inr (Or.inl rfl)
  | close i p hget hrst hfinished hlinger => exact hsegment p hfalse
  | answer i p hget hrst hopen => exact hsegment p hfalse

/-- A segment that closes a connection without an error finds that it will not linger. -/
theorem Turn.linger_of_closed {i : Nat} (hturn : Turn inbound h (.deliver i) o active linger)
    (hactive : h.conn.active = true) (hclosed : active = false)
    (herror : o.receiver.streamOut.error = false) : linger = false := by
  cases hturn with
  | feed e stream wrote hfeed hspoken =>
      rw [hactive] at hclosed
      cases hclosed
  | lose i hnone =>
      rw [hactive] at hclosed
      cases hclosed
  | reset i p hget hrst => cases herror
  | close i p hget hrst hfinished hlinger => exact hlinger
  | answer i p hget hrst hopen =>
      rw [hactive] at hclosed
      cases hclosed

/-! ## What a FIN acknowledges -/

/-- An inbound stream that has ended stays as it is. -/
theorem Evolves.ended (hevolves : Evolves sent isn packets ok r popped r' popped')
    (hended : r.streamOut.inputEnded = true) :
    r'.streamOut.inputEnded = true ∧
      r'.streamOut.bytesWritten = r.streamOut.bytesWritten := by
  cases hevolves with
  | same => exact ⟨hended, rfl⟩
  | failed => exact ⟨hended, rfl⟩
  | read len => exact ⟨hended, rfl⟩
  | takes p hp hok hrst r' data index eof htakes =>
      change r'.reassembler.output.inputEnded = true ∧ r'.reassembler.output.bytesWritten = _
      rw [htakes.reassembler_eq]
      exact StreamReassembler.pushSubstring_ended hended data index eof

/-- A receiver in error stays in error. -/
theorem Evolves.error (hevolves : Evolves sent isn packets ok r popped r' popped')
    (herror : r'.streamOut.error = false) : r.streamOut.error = false := by
  cases hevolves with
  | same => exact herror
  | failed => cases herror
  | read len => exact herror
  | takes p hp hok hrst r' data index eof htakes =>
      change r'.reassembler.output.error = false at herror
      rw [htakes.reassembler_eq] at herror
      rw [← herror]
      exact (StreamReassembler.pushSubstring_keeps
        (P := fun stream => stream.error = r.streamOut.error) (fun _ _ h => h) (fun _ h => h)
        r.reassembler data index eof rfl).symm

/-- Only a receiver that has seen the SYN ends its stream. -/
theorem Evolves.synced (hevolves : Evolves sent isn packets ok r popped r' popped')
    (hsynced : r.streamOut.inputEnded = true → r.setIsn = true)
    (hended : r'.streamOut.inputEnded = true) : r'.setIsn = true := by
  cases hevolves with
  | same => exact hsynced hended
  | failed => exact hsynced hended
  | read len => exact hsynced hended
  | takes p hp hok hrst r' data index eof htakes => exact htakes.setIsn_eq

/-- Every FIN that a host has sent while it will not linger acknowledges all of the inbound
stream, which has ended. -/
structure LastWord (h : Host) : Prop where
  synced : h.conn.receiver.streamOut.inputEnded = true → h.conn.receiver.setIsn = true
  ended : h.conn.lingerAfterStreamsFinish = false → h.conn.receiver.streamOut.error = false →
    h.conn.receiver.streamOut.inputEnded = true
  fins : h.conn.lingerAfterStreamsFinish = false → h.conn.receiver.streamOut.error = false →
    ∀ p ∈ h.packets, p.seg.header.rst = false → p.seg.header.fin = true →
      p.seg.header.ack = true ∧ p.absAckno = h.conn.receiver.absoluteAckno

theorem lastWord_new (cfg : TCPConfig) (random : UInt32) : LastWord (Host.new cfg random) where
  synced := fun hended => by cases hended
  ended := fun hlinger => by cases hlinger
  fins := fun hlinger => by cases hlinger

/-- Before the outbound stream is at its end, no FIN has been sent. -/
theorem Endpoint.fin_eq_false (hend : Endpoint sent h) (heof : h.conn.sender.stream.eof = false)
    (hp : p ∈ h.packets) (hrst : p.seg.header.rst = false) : p.seg.header.fin = false := by
  by_contra hfin
  rw [Bool.not_eq_false] at hfin
  have hlaw := hend.sending.segmented
  have hsent := hlaw.fin_iff.mpr ((hend.carries p hp hrst).position.exists_fin hfin)
  rw [hlaw.eof_of_fin hsent] at heof
  cases heof

/-- A packet emitted behind the end of the inbound stream acknowledges all of it. -/
theorem ack_packet {seg : TCPSegment} (hset : o.receiver.setIsn = true)
    (herror : o.receiver.streamOut.error = false) : (o.packet seg).seg.header.ack = true := by
  change decide (o.receiver.stateSummary ≠ .listen) = true
  rw [decide_eq_true_eq, TCPReceiver.stateSummary_eq herror, hset]
  cases o.receiver.streamOut.inputEnded <;> simp

theorem LastWord.step (hlast : LastWord h) (hend : Endpoint sent h)
    (hturn : Turn k.packets h e o h'.conn.active h'.conn.lingerAfterStreamsFinish)
    (hstepped : Stepped ok sent sent' more h k o h') : LastWord h' := by
  have hbecomes := hstepped.becomes
  have hevolves := hstepped.evolves
  have hreceiver := hbecomes.receiver_eq
  have hflag := hturn.linger_cleared
  have hsynced := hevolves.synced hlast.synced
  have hended : h'.conn.lingerAfterStreamsFinish = false →
      o.receiver.streamOut.error = false → o.receiver.streamOut.inputEnded = true := by
    intro hlinger herror
    rcases hflag hlinger with hbefore | hfailed | ⟨hended, -⟩
    · exact (hevolves.ended (hlast.ended hbefore (hevolves.error herror))).1
    · rw [herror] at hfailed
      cases hfailed
    · exact hended
  refine ⟨by rw [hreceiver]; exact hsynced, by rw [hreceiver]; exact hended, ?_⟩
  rw [hreceiver]
  intro hlinger herror p hp hrst hfin
  have hset := hsynced (hended hlinger herror)
  rw [hbecomes.packets_eq, List.mem_append, List.mem_map] at hp
  rcases hp with hold | ⟨seg, hseg, rfl⟩
  · rcases hflag hlinger with hbefore | hfailed | ⟨-, heof⟩
    · have hhealthy := hevolves.error herror
      have hbefore_ended := hlast.ended hbefore hhealthy
      obtain ⟨hack, hall⟩ := hlast.fins hbefore hhealthy p hold hrst hfin
      refine ⟨hack, ?_⟩
      rw [hall]
      unfold TCPReceiver.absoluteAckno
      rw [hset, hlast.synced hbefore_ended, (hevolves.ended hbefore_ended).1, hbefore_ended,
        (hevolves.ended hbefore_ended).2]
    · rw [herror] at hfailed
      cases hfailed
    · -- The flag is cleared just now, before the FIN is sent.
      rw [hend.fin_eq_false heof hold hrst] at hfin
      cases hfin
  · exact ⟨ack_packet hset herror, rfl⟩

/-! ## What a host with a FIN has accepted -/

/-- The acknowledgement that a segment carries never moves the accepted ackno back, and moves it
up to its own position unless that is beyond what was sent. -/
theorem TCPSender.Cached.acked {s : TCPSender} {ack : Nat} (hcached : TCPSender.Cached sent ack s)
    (seg : TCPSegment) :
    ∃ ack', TCPSender.Cached sent ack' (TCPConnection.acked s seg) ∧ ack ≤ ack' ∧
      (seg.header.ack = true → unwrap seg.header.ackno s.isn s.nextSeqno ≤ s.nextSeqno →
        unwrap seg.header.ackno s.isn s.nextSeqno ≤ ack') := by
  unfold TCPConnection.acked
  split
  · have haccepts := hcached.accepts_iff seg.header.ackno
    refine ⟨s.ackAfter seg.header.ackno ack, hcached.ackReceived _ _, ?_⟩
    unfold TCPSender.ackAfter
    split
    · rename_i haccepted
      exact ⟨(haccepts.mp haccepted).1, fun _ _ => le_rfl⟩
    · rename_i hrefused
      refine ⟨le_rfl, fun _ hle => ?_⟩
      rw [haccepts] at hrefused
      omega
  · rename_i hnone
    exact ⟨ack, hcached, le_rfl, fun hack => absurd hack hnone⟩

/-- The answer to a segment leaves the accepted ackno as it is. -/
theorem TCPSender.Cached.reply {s : TCPSender} {ack : Nat} (hcached : TCPSender.Cached sent ack s)
    (r : TCPReceiver) (seg : TCPSegment)
    (hflight : (TCPConnection.reply r s seg).bytesInFlight < 2 ^ 31)
    (hnext : (TCPConnection.reply r s seg).nextSeqno < 2 ^ 64) :
    ∃ more, TCPSender.Cached (sent ++ more) ack (TCPConnection.reply r s seg) := by
  by_cases hsyn : r.ackno.isSome = true
  · obtain ⟨queue, hreply⟩ := TCPConnection.reply_fills hsyn s seg
    rw [hreply] at hflight hnext ⊢
    exact ⟨s.newSegments, (hcached.fillWindow hflight hnext).withStream _ queue⟩
  · refine ⟨[], ?_⟩
    rw [TCPConnection.reply, if_neg hsyn, List.append_nil]
    exact hcached

/-- A delivery never moves the accepted ackno back, and moves it up to the one delivered. -/
theorem Receives.absoluteAckno_le {ack : Nat} (hrec : Receives p h o)
    (hcached : TCPSender.Cached sent ack h.conn.sender)
    (hflight : o.sender.bytesInFlight < 2 ^ 31) (hnext : o.sender.nextSeqno < 2 ^ 64) :
    ack ≤ o.sender.absoluteAckno ∧
      (p.seg.header.rst = false → p.seg.header.ack = true →
        unwrap p.seg.header.ackno h.conn.sender.isn h.conn.sender.nextSeqno ≤
          h.conn.sender.nextSeqno →
        unwrap p.seg.header.ackno h.conn.sender.isn h.conn.sender.nextSeqno ≤
          o.sender.absoluteAckno) := by
  obtain ⟨ack', hacked, hmono, haccepts⟩ := hcached.acked p.seg
  cases hrec with
  | reset hrst =>
      refine ⟨(hcached.withStream _ _).absoluteAckno_eq.ge, fun hfalse => ?_⟩
      rw [hrst] at hfalse
      cases hfalse
  | close hrst =>
      rw [hacked.absoluteAckno_eq]
      exact ⟨hmono, fun _ => haccepts⟩
  | reply hrst =>
      obtain ⟨more, hreply⟩ := hacked.reply _ p.seg hflight hnext
      rw [hreply.absoluteAckno_eq]
      exact ⟨hmono, fun _ => haccepts⟩

/-- No event moves the accepted ackno back. -/
theorem Moves.absoluteAckno_le {ack : Nat} (hmove : Moves inbound ok h o)
    (hcached : TCPSender.Cached sent ack h.conn.sender)
    (hflight : o.sender.bytesInFlight < 2 ^ 31) (hnext : o.sender.nextSeqno < 2 ^ 64) :
    ack ≤ o.sender.absoluteAckno := by
  cases hmove with
  | feed stream wrote hfeed =>
      exact ((hcached.withStream stream _).fillWindow hflight hnext).absoluteAckno_eq.ge
  | tick ms => exact (hcached.tick ms).1.absoluteAckno_eq.ge
  | giveUp ms => exact ((hcached.tick ms).1.withStream _ _).absoluteAckno_eq.ge
  | read len => exact hcached.absoluteAckno_eq.ge
  | stay => exact hcached.absoluteAckno_eq.ge
  | receive p hp hok o hrec => exact (hrec.absoluteAckno_le hcached hflight hnext).1

/-- A host that knows the end of the inbound stream has a FIN of its peer, and has accepted the
ackno that came with it. -/
def Heard (h k : Host) : Prop :=
  h.conn.receiver.reassembler.eof = true → ∃ p ∈ k.packets, p.seg.header.rst = false ∧
    p.seg.header.fin = true ∧
    (p.seg.header.ack = true → p.absAckno ≤ h.conn.sender.absoluteAckno)

theorem Heard.of_packets (hheard : Heard h k) {k' : Host}
    (hsubset : ∀ p ∈ k.packets, p ∈ k'.packets) : Heard h k' := by
  intro heof
  obtain ⟨p, hp, hfin⟩ := hheard heof
  exact ⟨p, hsubset p hp, hfin⟩

/-- An event at a host with a FIN keeps what came with it, and a new FIN is accepted together
with its ackno. -/
theorem Heard.moved (hheard : Heard h k) (hlink : Link sent sent' h k)
    (hmove : Moves k.packets (fun p => p.SeqnoNear h ∧ p.AcknoNear h) h o)
    (hstepped : Stepped (fun p => p.SeqnoNear h ∧ p.AcknoNear h) sent sent' more h k o h') :
    Heard h' k := by
  have hcached := hlink.here.sending.cached
  have hafter := hstepped.sends.sending.cached
  have hnext := hafter.nextSeqno_lt
  have hflight : o.sender.bytesInFlight < 2 ^ 31 := by
    have hlt := hafter.inFlight_lt
    rw [hafter.bytesInFlight_eq]
    omega
  have hmono := hmove.absoluteAckno_le hcached hflight hnext
  have hack : h'.conn.sender.absoluteAckno = o.sender.absoluteAckno := by
    rw [hstepped.becomes.sender_eq]
    rfl
  -- What was known before stays known.
  have hkeep : h.conn.receiver.reassembler.eof = true →
      ∃ p ∈ k.packets, p.seg.header.rst = false ∧ p.seg.header.fin = true ∧
        (p.seg.header.ack = true → p.absAckno ≤ h'.conn.sender.absoluteAckno) := by
    intro heof
    obtain ⟨p, hp, hrst, hfin, hle⟩ := hheard heof
    refine ⟨p, hp, hrst, hfin, fun hflag => ?_⟩
    rw [hack]
    exact (hle hflag).trans hmono
  unfold Heard
  rw [hstepped.becomes.receiver_eq]
  refine hmove.receiver_cases (P := fun r => r.reassembler.eof = true → ∃ p ∈ k.packets,
    p.seg.header.rst = false ∧ p.seg.header.fin = true ∧
      (p.seg.header.ack = true → p.absAckno ≤ h'.conn.sender.absoluteAckno))
    hkeep hkeep (fun _ => hkeep) fun p hp hok hrst hrec heof => ?_
  rcases TCPReceiver.eof_of_segmentReceived heof with hold | hfin
  · exact hkeep hold
  · refine ⟨p, hp, hrst, hfin, fun hflag => ?_⟩
    have hunwrap := hlink.unwrap_ackno hp hrst hflag hok.2
    have hgiven := (hlink.there.acknowledges p hp hrst hflag).absAckno_le
    have hbehind := hlink.outbound.absoluteAckno_le hlink.here.sending.segmented
    have haccepted := (hrec.absoluteAckno_le hcached hflight hnext).2 hrst hflag
    rw [hunwrap] at haccepted
    rw [hack]
    exact haccepted (hgiven.trans hbehind)

/-! ## Runs -/

/-- Two hosts of which neither leaves the other one behind. -/
structure Parting (h k : Host) : Prop where
  acked : Acked h k
  here : LastWord h
  there : LastWord k
  hears : Heard h k
  heard : Heard k h

theorem Parting.symm (hparting : Parting h k) : Parting k h :=
  ⟨hparting.acked.symm, hparting.there, hparting.here, hparting.heard, hparting.hears⟩

theorem parting_new (cfgA cfgB : TCPConfig) (randomA randomB : UInt32)
    (hA : cfgA.recvCapacity < 2 ^ 63) (hB : cfgB.recvCapacity < 2 ^ 63) :
    Parting (Host.new cfgA randomA) (Host.new cfgB randomB) where
  acked := acked_new cfgA cfgB randomA randomB hA hB
  here := lastWord_new cfgA randomA
  there := lastWord_new cfgB randomB
  hears := fun heof => by cases heof
  heard := fun heof => by cases heof

theorem Parting.step (hparting : Parting h k) (hok : e.Ok h k) :
    Parting (h.step k.packets e) k := by
  obtain ⟨sent, sent', hlink⟩ := hparting.acked.linked
  have hacked := hparting.acked.step hok
  obtain ⟨⟨hallowed, hbounded, hseqno⟩, hackno⟩ := hok
  obtain ⟨o, hturn, hbecomes⟩ := Host.step_turn hlink.here.out_eq hlink.here.queue_eq e hallowed
  have hmove := hturn.moves (hseqno.and hackno)
  obtain ⟨more, hstepped⟩ := hlink.moved hmove hbecomes (fun _ hp => hp.1) hbounded
  refine ⟨hacked, hparting.here.step hlink.here hturn hstepped, hparting.there,
    hparting.hears.moved hlink hmove hstepped, hparting.heard.of_packets fun p hp => ?_⟩
  rw [hbecomes.packets_eq]
  exact List.mem_append_left _ hp

/-- The streams of `h` have finished, it will not linger, and it holds all of its peer's stream:
that stream is acknowledged up to the FIN. -/
theorem Parting.acknowledged (hparting : Parting h k)
    (hlinger : h.conn.lingerAfterStreamsFinish = false)
    (herror : h.conn.receiver.streamOut.error = false)
    (hfinished : TCPConnection.finished h.conn.receiver h.conn.sender = true)
    (hall : h.received = k.wrote) :
    (∃ p ∈ k.packets, p.seg.header.fin = true) ∧
      k.conn.sender.absoluteAckno = k.wrote.length + 2 ∧ k.conn.bytesInFlight = 0 := by
  obtain ⟨⟨⟨sent, sent', hlink⟩, hhere, -⟩, hlast, -, hhears, hheard⟩ := hparting
  obtain ⟨-, hpeer, hended⟩ := hlink.delivered_of_finished hhere hfinished
  obtain ⟨q, hq, -, hqfin, -⟩ := hhears (hlink.inbound.ended_eof hended)
  refine ⟨⟨q, hq, hqfin⟩, ?_⟩
  -- The peer has a FIN of `h`, and has accepted what it acknowledges: the whole stream.
  obtain ⟨p, hp, hrst, hfin, hle⟩ := hheard (hlink.outbound.ended_eof hpeer)
  obtain ⟨hflag, habs⟩ := hlast.fins hlinger herror p hp hrst hfin
  have hwritten := hlink.symm.length_received
  rw [hall] at hwritten
  have hack : k.wrote.length + 2 ≤ k.conn.sender.absoluteAckno := by
    have hcount := hle hflag
    rw [habs, TCPReceiver.absoluteAckno, hlast.synced hended] at hcount
    change _ + h.conn.inboundStream.bytesWritten + h.conn.inboundStream.inputEnded.toNat ≤ _
      at hcount
    rw [hended, ← hwritten] at hcount
    simp only [Bool.toNat_true] at hcount
    omega
  have hcached := hlink.there.sending.cached
  have hbelow := hcached.ack_le
  have hlaw := hlink.there.sending.segmented
  have hnext := hlaw.nextSeqno_le
  have hlength := hlaw.length_wrote
  refine ⟨by omega, ?_⟩
  change k.conn.sender.bytesInFlight = 0
  rw [hcached.bytesInFlight_eq]
  omega

/-- In every run, on either side: when `segment_received` closes the connection `b` without an
error, and the inbound stream of `b` holds every byte that the application of its peer `a` wrote,
then the FIN of `a` has been sent and acknowledged, and `a` has no bytes in flight. -/
theorem no_peer_stranded (cfgA cfgB : TCPConfig) (randomA randomB : UInt32)
    (events : List (Side × Event)) (side : Side) (i : Nat) (hA : cfgA.recvCapacity < 2 ^ 63)
    (hB : cfgB.recvCapacity < 2 ^ 63)
    (hrun : Admissible Network.step (Network.Allows Event.Ok)
      (Network.new cfgA cfgB randomA randomB) (events ++ [(side, .deliver i)])) :
    let n := run Network.step (Network.new cfgA cfgB randomA randomB)
      (events ++ [(side, .deliver i)])
    let a := n.peer side
    let b := n.host side
    b.conn.active = false → b.conn.sender.stream.error = false →
      b.conn.inboundStream.error = false → b.received = a.wrote →
      (∃ p ∈ a.packets, p.seg.header.fin = true) ∧
        a.conn.sender.absoluteAckno = a.wrote.length + 2 ∧ a.conn.bytesInFlight = 0 := by
  intro n a b hinactive _ herror hall
  have hclosed := (settled_run cfgA cfgB randomA randomB hA hB hrun side).here
  have hparting : Parting b a := Network.invariant_side (fun _ _ h => h.symm)
    (fun _ _ _ h hok => h.step hok) (parting_new cfgA cfgB randomA randomB hA hB) hrun side
  have hfinished : TCPConnection.finished b.conn.receiver b.conn.sender = true :=
    (hclosed hinactive).resolve_left (Bool.eq_false_iff.mp herror)
  refine hparting.acknowledged ?_ herror hfinished hall
  -- The last event found the connection active.
  obtain ⟨hbefore, ⟨⟨hactive, -, -⟩, -⟩⟩ := hrun.concat
  obtain ⟨⟨⟨_, _, hlink⟩, -, -⟩, -⟩ := settled_run cfgA cfgB randomA randomB hA hB hbefore side
  obtain ⟨o, hturn, hbecomes⟩ := Host.step_turn hlink.here.out_eq hlink.here.queue_eq
    (.deliver i) hactive
  have hlast : b = _ := Network.host_concat _ events side (.deliver i)
  rw [← hlast] at hturn hbecomes
  refine hturn.linger_of_closed hactive hinactive ?_
  rw [← hbecomes.receiver_eq]
  exact herror

/-- The peer ends its stream first: `b` closes when its FIN is acknowledged, and `a`, whose own
FIN was acknowledged by every copy of that FIN, is left to linger. -/
theorem no_peer_stranded_last_ack :
    let cfgA : TCPConfig := { recvCapacity := 8, sendCapacity := 8, fixedIsn := some ⟨4294967294⟩ }
    let cfgB : TCPConfig := { recvCapacity := 8, sendCapacity := 8, fixedIsn := some ⟨7⟩ }
    let events : List (Side × Event) :=
      [(.a, .connect), (.b, .deliver 0), (.a, .deliver 0), (.b, .deliver 1),
        (.a, .write [104, 105]), (.b, .deliver 2), (.a, .endInputStream), (.b, .deliver 3),
        (.b, .endInputStream), (.a, .deliver 3)]
    let n := run Network.step (Network.new cfgA cfgB 0 0) (events ++ [(.b, .deliver 4)])
    Admissible Network.step (Network.Allows Event.Ok)
        (Network.new cfgA cfgB 0 0) (events ++ [(.b, .deliver 4)]) ∧
      n.b.conn.active = false ∧ n.a.conn.active = true ∧
      (∃ p ∈ n.a.packets, p.seg.header.fin = true) ∧
      n.a.conn.sender.absoluteAckno = n.a.wrote.length + 2 ∧ n.a.conn.bytesInFlight = 0 := by
  intro cfgA cfgB events n
  have hrun : Admissible Network.step (Network.Allows Event.Ok)
      (Network.new cfgA cfgB 0 0) (events ++ [(.b, .deliver 4)]) := by decide +kernel
  have hinactive : n.b.conn.active = false := by decide +kernel
  have hactive : n.a.conn.active = true := by decide +kernel
  have hsender : n.b.conn.sender.stream.error = false := by decide +kernel
  have hreceiver : n.b.conn.inboundStream.error = false := by decide +kernel
  have hall : n.b.received = n.a.wrote := by decide +kernel
  have hn : run Network.step (Network.new cfgA cfgB 0 0) (events ++ [(.b, .deliver 4)]) = n := rfl
  have hclose := no_peer_stranded cfgA cfgB 0 0 events .b 4 (by decide) (by decide) hrun
  rw [hn] at hclose
  clear_value n
  exact ⟨hrun, hinactive, hactive, hclose hinactive hsender hreceiver hall⟩

end Sponge
