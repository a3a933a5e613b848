import Sponge.Network.Handshake
import Sponge.TCPSender.Idle

/-!
# The states of a connection

`state()` puts together the summaries of the two halves of a connection and its two flags.
The halves do not know of each other, so most combinations are none of the twelve states of
`TCPState::State`; that they do not occur is a law of whole runs.

It fails in two ways.  A segment without SYN that arrives in `SYN_SENT` goes to the sender all
the same, which may take its ackno while the receiver still listens.  And a connection whose
outbound stream is at its end, but whose FIN waits for the window, lingers although its peer
has ended first.  In every run without these two, both connections are in one of the twelve
states all the time.

Main results:

- Theorem {lit}`Sending.stateSummary_eq`: the summary of a sender, in terms of what was sent
  and acknowledged.
- Theorem {lit}`Standing.step`: every event keeps what decides the state.
- Theorem {lit}`only_official_states`: both connections are in one of the twelve states.
-/

namespace Sponge

open Library

variable {sent sent' : List TCPSegment} {wrote : List Byte} {s : TCPSender} {r : TCPReceiver}
  {ack : Nat} {h h' k : Host} {o : Outcome} {e : Event} {active linger : Bool}

/-! ## Summaries -/

/-- The summary of a sender without error. -/
theorem Sending.stateSummary_eq (hs : Sending wrote sent ack s) (herror : s.stream.error = false) :
    s.stateSummary = if s.syned = false then .closed else if ack = 0 then .synSent
      else if s.fin = false then .synAcked else if ack = s.nextSeqno then .finAcked
      else .finSent := by
  have hlaw := hs.segmented
  have hflight := hs.cached.bytesInFlight_eq
  have hack := hs.cached.ack_le
  have hnext := hlaw.nextSeqno_eq
  unfold TCPSender.stateSummary TCPSender.nextSeqnoAbsolute
  rw [herror, hflight]
  by_cases hsyned : s.syned = true
  · rw [hsyned] at hnext ⊢
    simp only [Bool.toNat_true] at hnext
    have hpositive : s.nextSeqno ≠ 0 := by omega
    by_cases hzero : ack = 0
    · simp [hpositive, hzero]
    · have hacked : ¬ s.nextSeqno = s.nextSeqno - ack := by omega
      by_cases hfin : s.fin = true
      · -- The FIN ends a stream that is at its end.
        have hnil := (hlaw.fin_ended hfin).2
        have heof := hlaw.eof_of_fin hfin
        have hwritten : ¬ s.nextSeqno < s.stream.bytesWritten + 2 := by
          have hall := s.stream.bytesWritten_eq
          rw [hfin, Bool.toNat_true] at hnext
          rw [← s.stream.length_contents, hnil, List.length_nil] at hall
          omega
        by_cases hall : ack = s.nextSeqno
        · simp [hpositive, hfin, heof, hwritten, hall]
        · have hsome : s.nextSeqno - ack ≠ 0 := by omega
          simp [hpositive, hzero, hacked, hfin, heof, hwritten, hall, hsome]
      · rw [Bool.not_eq_true] at hfin
        have hwritten : s.nextSeqno < s.stream.bytesWritten + 2 := by
          have hall := s.stream.bytesWritten_eq
          rw [hfin, Bool.toNat_false] at hnext
          omega
        simp [hpositive, hzero, hacked, hfin, hwritten]
  · have hnone : s.nextSeqno = 0 := by
      have hextent := hlaw.extent_eq
      rw [not_ne_iff.mp fun hne => hsyned (hlaw.syned_iff.mpr hne), extent_nil] at hextent
      exact hextent.symm
    rw [Bool.not_eq_true] at hsyned
    simp [hsyned, hnone]

/-- The sender is in `FIN_ACKED` when its FIN is sent and everything is acknowledged. -/
theorem Sending.stateSummary_eq_finAcked (hs : Sending wrote sent ack s)
    (herror : s.stream.error = false) :
    s.stateSummary = .finAcked ↔ s.fin = true ∧ ack = s.nextSeqno := by
  rw [hs.stateSummary_eq herror]
  have hnext := hs.segmented.nextSeqno_eq
  constructor
  · intro hsummary
    split at hsummary
    · cases hsummary
    · split at hsummary
      · cases hsummary
      · split at hsummary
        · cases hsummary
        · rename_i hfin
          split at hsummary
          · rename_i hall
            exact ⟨Bool.eq_true_of_not_eq_false hfin, hall⟩
          · cases hsummary
  · rintro ⟨hfin, hall⟩
    have hsyned : s.syned = true := by
      obtain ⟨seg, hseg, -⟩ := hs.segmented.fin_iff.mp hfin
      exact hs.segmented.syned_iff.mpr (List.ne_nil_of_mem hseg)
    rw [hsyned, Bool.toNat_true] at hnext
    have hpositive : s.nextSeqno ≠ 0 := by omega
    simp [hsyned, hfin, hall, hpositive]

/-- A sender that is not finished is not finished by filling the window. -/
theorem TCPSender.Cached.unfinished_fillWindow (hcached : TCPSender.Cached sent ack s)
    (hopen : s.fin = true → ack ≠ s.nextSeqno) (hfin : s.fillWindow.fin = true) :
    ack ≠ s.fillWindow.nextSeqno := by
  intro hall
  have hemit := s.fillWindow_emitted
  have hle := hcached.ack_le
  have hnext := hemit.nextSeqno_eq
  have hnone : s.newSegments = [] := by
    cases hnew : s.newSegments with
    | nil => rfl
    | cons seg rest =>
        have hseg : seg ∈ s.newSegments := by
          rw [hnew]
          exact List.mem_cons_self
        have hpositive := TCPSender.length_pos_of_mem_newSegments hseg
        rw [hnew, extent_cons] at hnext
        omega
  have hsame := s.fillWindow_eq_run
  rw [hnone] at hsame
  rw [hsame] at hfin hall
  exact hopen hfin hall

/-! ## What decides the state -/

/-- The flags of a connection agree with its streams: both streams fail together, an active
connection that will not linger waits for its own FIN to be acknowledged, and one whose peer
has ended and that will linger has sent its FIN. -/
structure Finishing (h : Host) : Prop where
  error_eq : h.conn.sender.stream.error = h.conn.receiver.streamOut.error
  closed : h.ClosedSoundly
  waits : h.conn.active = true → h.conn.lingerAfterStreamsFinish = false →
    h.conn.receiver.streamOut.inputEnded = true ∧
      (h.conn.sender.fin = true → h.conn.sender.absoluteAckno ≠ h.conn.sender.nextSeqno)
  lingers : h.conn.active = true → h.conn.receiver.streamOut.inputEnded = true →
    h.conn.lingerAfterStreamsFinish = true → h.conn.sender.fin = true

theorem finishing_new (cfg : TCPConfig) (random : UInt32) : Finishing (Host.new cfg random) where
  error_eq := rfl
  closed := Host.closedSoundly_new cfg random
  waits := fun _ hlinger => by cases hlinger
  lingers := fun _ hended => by cases hended

/-- The two streams of a connection fail together. -/
theorem Turn.error_eq (hturn : Turn k.packets h e o active linger)
    (herror : h.conn.sender.stream.error = h.conn.receiver.streamOut.error) :
    o.sender.stream.error = o.receiver.streamOut.error := by
  have hfills : ∀ s : TCPSender, s.stream.error = h.conn.receiver.streamOut.error →
      s.fillWindow.stream.error = h.conn.receiver.streamOut.error := fun s hs =>
    TCPSender.fillWindow_keeps
      (P := fun stream => stream.error = h.conn.receiver.streamOut.error) (fun _ _ hs => hs) hs
  cases hturn with
  | feed e stream wrote hfeed hspoken =>
      refine hfills _ ?_
      cases hfeed with
      | write data => exact herror
      | endInput => exact herror
      | connect => exact herror
  | tick ms active =>
      obtain ⟨segs, hticked⟩ := h.conn.sender.tick_ticked ms
      rw [hticked.stream_eq, herror]
  | giveUp ms => rfl
  | read len => exact herror
  | lose i hnone => exact herror
  | reset i p hget hrst => rfl
  | close i p hget hrst hfinished hlinger =>
      rw [TCPConnection.stream_acked, herror, TCPReceiver.error_segmentReceived]
  | answer i p hget hrst hopen =>
      rw [TCPReceiver.error_segmentReceived]
      have hacked : (TCPConnection.acked h.conn.sender p.seg).stream.error =
          h.conn.receiver.streamOut.error := by rw [TCPConnection.stream_acked, herror]
      by_cases hsyn : (h.conn.receiver.segmentReceived p.seg).ackno.isSome = true
      · obtain ⟨queue, hreply⟩ := TCPConnection.reply_fills hsyn
          (TCPConnection.acked h.conn.sender p.seg) p.seg
        rw [hreply]
        exact hfills _ hacked
      · rw [TCPConnection.reply, if_neg hsyn]
        exact hacked

/-- A segment that does not close a connection that will not linger leaves something of the
outbound stream to be acknowledged. -/
theorem Handshake.waits_answer {p : Packet} (hh : Handshake sent sent' h k)
    (herror : (TCPConnection.acked h.conn.sender p.seg).stream.error = false)
    (hp : p ∈ k.packets) (hrst : p.seg.header.rst = false) (hin : p.Introduced h)
    (hflight : (TCPConnection.reply (h.conn.receiver.segmentReceived p.seg)
      (TCPConnection.acked h.conn.sender p.seg) p.seg).bytesInFlight < 2 ^ 31)
    (hnext : (TCPConnection.reply (h.conn.receiver.segmentReceived p.seg)
      (TCPConnection.acked h.conn.sender p.seg) p.seg).nextSeqno < 2 ^ 64)
    (hopen : (TCPConnection.acked h.conn.sender p.seg).stateSummary ≠ .finAcked) :
    let s := TCPConnection.reply (h.conn.receiver.segmentReceived p.seg)
      (TCPConnection.acked h.conn.sender p.seg) p.seg
    s.fin = true → s.absoluteAckno ≠ s.nextSeqno := by
  obtain ⟨ack, hacked⟩ := hh.acked hp hrst
  have hunfinished : (TCPConnection.acked h.conn.sender p.seg).fin = true →
      ack ≠ (TCPConnection.acked h.conn.sender p.seg).nextSeqno := fun hfin hall =>
    hopen ((hacked.stateSummary_eq_finAcked herror).mpr ⟨hfin, hall⟩)
  obtain ⟨queue, hreply⟩ := hin.reply_fills hrst (TCPConnection.acked h.conn.sender p.seg)
  simp only [hreply] at hflight hnext ⊢
  have hfilled := hacked.cached.fillWindow hflight hnext
  rw [(hfilled.withStream _ queue).absoluteAckno_eq]
  exact hacked.cached.unfinished_fillWindow hunfinished

/-- An active connection that will not linger waits for its FIN to be acknowledged. -/
theorem Handshake.waits_turn (hh : Handshake sent sent' h k) (hfinishing : Finishing h)
    (hturn : Turn k.packets h e o active linger) (hwas : h.conn.active = true)
    (hflight : o.sender.bytesInFlight < 2 ^ 31) (hnext : o.sender.nextSeqno < 2 ^ 64)
    (hintroduced : e.Delivers (fun p => p.Introduced h) k.packets)
    (hactive : active = true) (hlinger : linger = false) :
    o.receiver.streamOut.inputEnded = true ∧
      (o.sender.fin = true → o.sender.absoluteAckno ≠ o.sender.nextSeqno) := by
  have hcached := hh.here.sending.cached
  have hwaits := hfinishing.waits hwas
  have hcleared := hturn.linger_cleared hlinger
  cases hturn with
  | feed e stream wrote hfeed hspoken =>
      obtain ⟨hended, hopen⟩ := hwaits hlinger
      have hfed := hcached.withStream stream h.conn.sender.segmentsOut
      rw [(hfed.fillWindow hflight hnext).absoluteAckno_eq]
      exact ⟨hended, hfed.unfinished_fillWindow hopen⟩
  | tick ms active =>
      obtain ⟨hended, hopen⟩ := hwaits hlinger
      obtain ⟨segs, hticked⟩ := h.conn.sender.tick_ticked ms
      rw [(hcached.tick ms).1.absoluteAckno_eq, hticked.fin_eq, hticked.nextSeqno_eq]
      exact ⟨hended, hopen⟩
  | giveUp ms => cases hactive
  | read len => exact hwaits hlinger
  | lose i hnone => exact hwaits hlinger
  | reset i p hget hrst => cases hactive
  | close i p hget hrst hfinished hlinger => cases hactive
  | answer i p hget hrst hopen =>
      have hhealthy := hh.here.healthy hwas
      have herror : (h.conn.receiver.segmentReceived p.seg).streamOut.error = false := by
        rw [TCPReceiver.error_segmentReceived, hhealthy]
      have hended : (h.conn.receiver.segmentReceived p.seg).streamOut.inputEnded = true := by
        rcases hcleared with hbefore | hfailed | ⟨hended, -⟩
        · exact TCPReceiver.segmentReceived_keeps (P := fun stream => stream.inputEnded = true)
            (fun _ _ hs => hs) (fun _ _ => rfl) p.seg (hwaits hbefore).1
        · rw [herror] at hfailed
          cases hfailed
        · exact hended
      have hreceiver : (h.conn.receiver.segmentReceived p.seg).stateSummary = .finRecv := by
        rw [TCPReceiver.stateSummary_eq herror, (hintroduced p hget).setIsn_eq hrst, hended]
        rfl
      have hsender : (TCPConnection.acked h.conn.sender p.seg).stream.error = false := by
        rw [TCPConnection.stream_acked, hfinishing.error_eq, hhealthy]
      refine ⟨hended, hh.waits_answer hsender (List.mem_of_getElem? hget) hrst
        (hintroduced p hget) hflight hnext fun hall => hopen ⟨?_, hlinger⟩⟩
      rw [TCPConnection.finished, decide_eq_true_eq]
      exact ⟨hreceiver, hall⟩

/-- Two hosts in order, with flags that agree with their streams. -/
structure Standing (h k : Host) : Prop where
  handshake : ∃ sent sent', Handshake sent sent' h k
  here : Finishing h
  there : Finishing k

theorem standing_new (cfgA cfgB : TCPConfig) (randomA randomB : UInt32) :
    Standing (Host.new cfgA randomA) (Host.new cfgB randomB) where
  handshake := ⟨[], [], handshake_new cfgA cfgB randomA randomB⟩
  here := finishing_new cfgA randomA
  there := finishing_new cfgB randomB

theorem Standing.symm (hstanding : Standing h k) : Standing k h := by
  obtain ⟨⟨sent, sent', hh⟩, hhere, hthere⟩ := hstanding
  exact ⟨⟨sent', sent, hh.symm⟩, hthere, hhere⟩

/-- A connection that has not seen the peer's SYN is in `LISTEN` or `SYN_SENT`. -/
theorem Standing.state_of_unsynced (hstanding : Standing h k) (hactive : h.conn.active = true)
    (hset : h.conn.receiver.setIsn = false) :
    h.conn.state = .ofState .listen ∨ h.conn.state = .ofState .synSent := by
  obtain ⟨⟨sent, sent', hh⟩, hfinishing, -⟩ := hstanding
  have herror := hh.here.healthy hactive
  have hzero := (hh.opening.silent hset).1
  have hlinger : h.conn.lingerAfterStreamsFinish = true := by
    by_contra hlinger
    rw [Bool.not_eq_true] at hlinger
    exact hh.opening.heard (Or.inr (hfinishing.waits hactive hlinger).1) hzero
  have hreceiver : h.conn.receiver.stateSummary = .listen := by
    rw [TCPReceiver.stateSummary_eq herror, hset]
    rfl
  have hsender := hh.here.sending.stateSummary_eq (hfinishing.error_eq.trans herror)
  unfold TCPConnection.state
  rw [hreceiver, hsender, hactive, hlinger, hzero]
  cases h.conn.sender.syned with
  | false => exact Or.inl rfl
  | true => exact Or.inr rfl

/-- An active connection that has seen the peer's SYN, before the peer's stream has ended. -/
theorem Standing.official_of_running (hstanding : Standing h k) (hactive : h.conn.active = true)
    (hset : h.conn.receiver.setIsn = true)
    (hrunning : h.conn.receiver.streamOut.inputEnded = false) : h.conn.state.Official := by
  obtain ⟨⟨sent, sent', hh⟩, hfinishing, -⟩ := hstanding
  have herror := hh.here.healthy hactive
  have hreceiver := TCPReceiver.stateSummary_eq herror
  have hsender := hh.here.sending.stateSummary_eq (hfinishing.error_eq.trans herror)
  have hlinger : h.conn.lingerAfterStreamsFinish = true := by
    by_contra hlinger
    rw [Bool.not_eq_true] at hlinger
    rw [(hfinishing.waits hactive hlinger).1] at hrunning
    cases hrunning
  rw [hset, hrunning] at hreceiver
  rw [hh.opening.answered hset] at hsender
  unfold TCPConnection.state
  rw [hreceiver, hsender, hactive, hlinger]
  by_cases hzero : h.conn.sender.absoluteAckno = 0
  · exact ⟨.synRcvd, by simp [TCPState.ofState, hzero]⟩
  · by_cases hfin : h.conn.sender.fin = true
    · by_cases hall : h.conn.sender.absoluteAckno = h.conn.sender.nextSeqno
      · exact ⟨.finWait2, by simp [TCPState.ofState, hzero, hfin, ← hall]⟩
      · exact ⟨.finWait1, by simp [TCPState.ofState, hzero, hfin, hall]⟩
    · exact ⟨.established, by simp [TCPState.ofState, hzero, hfin]⟩

/-- An active connection whose peer has ended its stream. -/
theorem Standing.official_of_ended (hstanding : Standing h k) (hactive : h.conn.active = true)
    (hset : h.conn.receiver.setIsn = true)
    (hended : h.conn.receiver.streamOut.inputEnded = true) : h.conn.state.Official := by
  obtain ⟨⟨sent, sent', hh⟩, hfinishing, -⟩ := hstanding
  have herror := hh.here.healthy hactive
  have hreceiver := TCPReceiver.stateSummary_eq herror
  have hsender := hh.here.sending.stateSummary_eq (hfinishing.error_eq.trans herror)
  have hacked := hh.opening.heard (Or.inr hended)
  rw [hset, hended] at hreceiver
  rw [hh.opening.answered hset] at hsender
  unfold TCPConnection.state
  rw [hreceiver, hsender, hactive]
  by_cases hlinger : h.conn.lingerAfterStreamsFinish = true
  · rw [hfinishing.lingers hactive hended hlinger, hlinger]
    by_cases hall : h.conn.sender.absoluteAckno = h.conn.sender.nextSeqno
    · exact ⟨.timeWait, by simp [TCPState.ofState, hacked, ← hall]⟩
    · exact ⟨.closing, by simp [TCPState.ofState, hacked, hall]⟩
  · rw [Bool.not_eq_true] at hlinger
    have hopen := (hfinishing.waits hactive hlinger).2
    rw [hlinger]
    by_cases hfin : h.conn.sender.fin = true
    · exact ⟨.lastAck, by simp [TCPState.ofState, hacked, hfin, hopen hfin]⟩
    · exact ⟨.closeWait, by simp [TCPState.ofState, hacked, hfin]⟩

/-- A connection that is no longer active. -/
theorem Finishing.official_of_inactive (hfinishing : Finishing h)
    (hactive : h.conn.active = false) : h.conn.state.Official := by
  unfold TCPConnection.state
  rw [hactive]
  rcases hfinishing.closed hactive with herror | hfinished
  · refine ⟨.reset, ?_⟩
    rw [TCPReceiver.stateSummary, TCPSender.stateSummary, hfinishing.error_eq, herror]
    rfl
  · refine ⟨.closed, ?_⟩
    rw [TCPConnection.finished, decide_eq_true_eq] at hfinished
    rw [hfinished.1, hfinished.2]
    rfl

/-- The connection is in one of the twelve states. -/
theorem Standing.official (hstanding : Standing h k) : h.conn.state.Official := by
  cases hactive : h.conn.active with
  | false => exact hstanding.here.official_of_inactive hactive
  | true =>
      cases hset : h.conn.receiver.setIsn with
      | false =>
          rcases hstanding.state_of_unsynced hactive hset with hlisten | hsent
          · exact ⟨_, hlisten⟩
          · exact ⟨_, hsent⟩
      | true =>
          cases hended : h.conn.receiver.streamOut.inputEnded with
          | false => exact hstanding.official_of_running hactive hset hended
          | true => exact hstanding.official_of_ended hactive hset hended

/-! ## Runs -/

/-- The application writes and ends its stream only once the handshake has left `LISTEN` and
`SYN_SENT`. -/
def Event.Settled (h : Host) (e : Event) : Prop :=
  e.Speaks → h.conn.state ≠ .ofState .listen ∧ h.conn.state ≠ .ofState .synSent

instance (h : Host) (e : Event) : Decidable (e.Settled h) :=
  inferInstanceAs (Decidable (_ → _))

/-- A segment that may end the peer's stream, because it has the FIN or the FIN is known, does not
find the own FIN held back: if the own stream is at its end, its FIN has been sent, or there is
room for it. -/
def Packet.Unblocked (p : Packet) (h : Host) : Prop :=
  p.seg.header.rst = false → h.conn.inboundStream.inputEnded = false →
    p.seg.header.fin = true ∨ h.conn.receiver.reassembler.eof = true →
      h.conn.sender.stream.eof = true →
        h.conn.sender.fin = true ∨
          TCPSender.HasRoom (TCPConnection.windowBehind h.conn.sender p.seg)

instance (p : Packet) (h : Host) : Decidable (p.Unblocked h) :=
  inferInstanceAs (Decidable (_ → _ → _ → _ → _))

/-- The conditions under which the states are in order: operations are invoked on active
endpoints, the application waits for the handshake, the bytes in flight stay bounded, no
segment without SYN arrives before the SYN, and no segment that may end the peer's stream arrives
while the own FIN is held back. -/
def Event.StateOk (h peer : Host) (e : Event) : Prop :=
  e.Allowed h ∧ e.Settled h ∧ (h.step peer.packets e).Bounded ∧
    e.Delivers (fun p => p.Introduced h) peer.packets ∧
    e.Delivers (fun p => p.Unblocked h) peer.packets

instance (h peer : Host) (e : Event) : Decidable (e.StateOk h peer) :=
  inferInstanceAs (Decidable (_ ∧ _ ∧ _ ∧ _ ∧ _))

/-- A segment that ends the peer's stream lets the own FIN out. -/
theorem Handshake.fin_answer {p : Packet} (hh : Handshake sent sent' h k)
    (hrst : p.seg.header.rst = false) (hin : p.Introduced h) (hfree : p.Unblocked h)
    (hbefore : h.conn.receiver.streamOut.inputEnded = false)
    (hended : (h.conn.receiver.segmentReceived p.seg).streamOut.inputEnded = true)
    (heof : h.conn.sender.stream.eof = true) (hfin : h.conn.sender.fin = false) :
    (TCPConnection.reply (h.conn.receiver.segmentReceived p.seg)
      (TCPConnection.acked h.conn.sender p.seg) p.seg).fin = true := by
  have hknown : p.seg.header.fin = true ∨ h.conn.receiver.reassembler.eof = true := by
    rcases TCPReceiver.inputEnded_of_segmentReceived hended with hold | hknown
    · rw [hbefore] at hold
      cases hold
    · exact (TCPReceiver.eof_of_segmentReceived hknown).symm
  have hroom := (hfree hrst hbefore hknown heof).resolve_left (by rw [hfin]; decide)
  rw [TCPConnection.windowBehind_eq] at hroom
  -- The application ends its stream only once the peer's SYN has arrived.
  have hset : h.conn.receiver.setIsn = true := by
    by_contra hset
    rw [Bool.not_eq_true] at hset
    rw [ByteStream.eof, (hh.opening.silent hset).2.2] at heof
    cases heof
  have hsyned : (TCPConnection.acked h.conn.sender p.seg).syned = true := by
    rw [(TCPConnection.quiet_acked h.conn.sender p.seg).syned_eq]
    exact hh.opening.answered hset
  obtain ⟨queue, hreply⟩ := hin.reply_fills hrst (TCPConnection.acked h.conn.sender p.seg)
  rw [hreply]
  exact TCPSender.fin_fillWindow hsyned (by rw [TCPConnection.stream_acked, heof]) hroom

/-- A connection that lingers has sent its FIN when its peer's stream ends. -/
theorem Handshake.lingers_turn (hh : Handshake sent sent' h k) (hfinishing : Finishing h)
    (hturn : Turn k.packets h e o active linger) (hwas : h.conn.active = true)
    (hintroduced : e.Delivers (fun p => p.Introduced h) k.packets)
    (hfree : e.Delivers (fun p => p.Unblocked h) k.packets)
    (hactive : active = true) (hlinger : linger = true)
    (hended : o.receiver.streamOut.inputEnded = true) :
    h.conn.sender.fin = true ∨ o.sender.fin = true := by
  have hlingers := hfinishing.lingers hwas
  cases hturn with
  | feed e stream wrote hfeed hspoken => exact Or.inl (hlingers hended hlinger)
  | tick ms active => exact Or.inl (hlingers hended hlinger)
  | giveUp ms => cases hactive
  | read len => exact Or.inl (hlingers hended hlinger)
  | lose i hnone => exact Or.inl (hlingers hended hlinger)
  | reset i p hget hrst => cases hactive
  | close i p hget hrst hfinished hlinger => cases hactive
  | answer i p hget hrst hopen =>
      rw [TCPConnection.lingerAfterStreamsFinish_passOn, hended, Bool.true_and] at hlinger
      split at hlinger
      · cases hlinger
      · rename_i heof
        rw [Bool.not_eq_true', Bool.not_eq_false] at heof
        by_cases hbefore : h.conn.receiver.streamOut.inputEnded = true
        · exact Or.inl (hlingers hbefore hlinger)
        · rw [Bool.not_eq_true] at hbefore
          by_cases hfin : h.conn.sender.fin = true
          · exact Or.inl hfin
          · rw [Bool.not_eq_true] at hfin
            exact Or.inr (hh.fin_answer hrst (hintroduced p hget) (hfree p hget) hbefore hended
              heof hfin)

/-- The application speaks to an active connection. -/
theorem Event.active_of_speaks (hspoken : e.Speaks) (hallowed : e.Allowed h) :
    h.conn.active = true := by
  cases e with
  | write data => exact hallowed
  | endInputStream => exact hallowed
  | connect | tick | read | deliver => cases hspoken

/-- Every event keeps what decides the states. -/
theorem Standing.step (hstanding : Standing h k) (hok : e.StateOk h k) :
    Standing (h.step k.packets e) k := by
  obtain ⟨hallowed, hsettled, hbounded, hintroduced, hfree⟩ := hok
  obtain ⟨⟨sent, sent', hh⟩, hhere, hthere⟩ := id hstanding
  have hspeaks : e.Speaks → h.conn.receiver.setIsn = true := by
    intro hspoken
    by_contra hset
    rw [Bool.not_eq_true] at hset
    exact (hstanding.state_of_unsynced (Event.active_of_speaks hspoken hallowed) hset).elim
      (hsettled hspoken).1 (hsettled hspoken).2
  have hclosed := hhere.closed.step (k := k) hh.here hallowed
  obtain ⟨o, hturn, hbecomes⟩ := Host.step_turn hh.here.out_eq hh.here.queue_eq e hallowed
  obtain ⟨more, hh'⟩ := hh.moved hturn hbecomes hbounded hspeaks hintroduced
  have hflight := hbounded.1
  have hnext := hh'.here.sending.cached.nextSeqno_lt
  rw [TCPConnection.bytesInFlight, hbecomes.sender_eq] at hflight
  rw [hbecomes.sender_eq] at hnext
  refine ⟨⟨_, _, hh'⟩, ⟨?_, hclosed, ?_, ?_⟩, hthere⟩
  · rw [hbecomes.sender_eq, hbecomes.receiver_eq]
    exact hturn.error_eq hhere.error_eq
  · intro hactive hlinger
    rw [hbecomes.sender_eq, hbecomes.receiver_eq]
    exact hh.waits_turn hhere hturn (hbecomes.active (Or.inr hactive)) hflight hnext hintroduced
      hactive hlinger
  · intro hactive hended hlinger
    have hwas := hbecomes.active (Or.inr hactive)
    have hturned := hh.lingers_turn hhere hturn hwas hintroduced hfree hactive hlinger
      (hbecomes.receiver_eq ▸ hended)
    rcases hturned with hfin | hfin
    · -- What was sent stays sent.
      obtain ⟨seg, hseg, hsegfin⟩ := hh.here.sending.segmented.fin_iff.mp hfin
      exact hh'.here.sending.segmented.fin_iff.mpr ⟨seg, List.mem_append_left _ hseg, hsegfin⟩
    · rw [hbecomes.sender_eq]
      exact hfin

/-- In every run in which no segment without SYN arrives before the SYN, and in which no segment
that may end the peer's stream arrives while the own FIN is held back, either connection is always
in one of the twelve states; in particular a sender whose SYN is acknowledged has a receiver that
has seen one. -/
theorem only_official_states (cfgA cfgB : TCPConfig) (randomA randomB : UInt32)
    (events : List (Side × Event))
    (hrun : Admissible Network.step (Network.Allows Event.StateOk)
      (Network.new cfgA cfgB randomA randomB) events) (side : Side) :
    let c := ((run Network.step (Network.new cfgA cfgB randomA randomB) events).host side).conn
    c.state.Official ∧ (c.receiver.stateSummary = .listen →
      c.sender.stateSummary = .closed ∨ c.sender.stateSummary = .synSent) := by
  intro c
  have hstanding : Standing ((run Network.step (Network.new cfgA cfgB randomA randomB)
      events).host side) _ := Network.invariant_side (fun _ _ h => h.symm)
    (fun _ _ _ h hok => h.step hok) (standing_new cfgA cfgB randomA randomB) hrun side
  have hofficial : c.state.Official := hstanding.official
  refine ⟨hofficial, fun hlisten => ?_⟩
  obtain ⟨state, hstate⟩ := hofficial
  have hreceiver : c.receiver.stateSummary = (TCPState.ofState state).receiver :=
    congrArg TCPState.receiver hstate
  have hsender : c.sender.stateSummary = (TCPState.ofState state).sender :=
    congrArg TCPState.sender hstate
  rw [hlisten] at hreceiver
  rw [hsender]
  cases state with
  | listen => exact Or.inl rfl
  | synSent => exact Or.inr rfl
  | synRcvd | established | closeWait | lastAck | finWait1 | finWait2 | closing | timeWait
  | closed | reset => cases hreceiver

/-- A handshake, a transfer, and both streams ended: the peer that ends last closes, the other
one lingers. -/
theorem only_official_states_close :
    let cfgA : TCPConfig := { recvCapacity := 8, sendCapacity := 8, fixedIsn := some ⟨4294967294⟩ }
    let cfgB : TCPConfig := { recvCapacity := 8, sendCapacity := 8, fixedIsn := some ⟨7⟩ }
    let events : List (Side × Event) :=
      [(.a, .connect), (.b, .deliver 0), (.a, .deliver 0), (.b, .deliver 1),
        (.a, .write [104, 105]), (.b, .deliver 2), (.a, .endInputStream), (.b, .deliver 3),
        (.b, .endInputStream), (.a, .deliver 3), (.b, .deliver 4)]
    let n := run Network.step (Network.new cfgA cfgB 0 0) events
    Admissible Network.step (Network.Allows Event.StateOk) (Network.new cfgA cfgB 0 0) events ∧
      n.a.conn.state = .ofState .timeWait ∧ n.b.conn.state = .ofState .closed ∧
      n.a.conn.state.Official ∧ n.b.conn.state.Official := by
  intro cfgA cfgB events n
  have hrun : Admissible Network.step (Network.Allows Event.StateOk)
      (Network.new cfgA cfgB 0 0) events := by decide +kernel
  have hlingers : n.a.conn.state = .ofState .timeWait := by decide +kernel
  have hcloses : n.b.conn.state = .ofState .closed := by decide +kernel
  have hn : run Network.step (Network.new cfgA cfgB 0 0) events = n := rfl
  have hofficial := only_official_states cfgA cfgB 0 0 events hrun
  rw [hn] at hofficial
  clear_value n
  exact ⟨hrun, hlingers, hcloses, (hofficial .a).1, (hofficial .b).1⟩

/-- Two runs that leave the twelve states.  In the first one the answer to a SYN is lost, and
the answer to its repetition is an ACK without SYN, which moves the sender to `SYN_ACKED` while
the receiver still listens.  In the second one the peer's FIN arrives while the own FIN waits
for the window: the receiver is in `FIN_RECV`, the sender in `SYN_ACKED`, and the connection
will linger. -/
theorem unofficial_states :
    let cfg : TCPConfig := { recvCapacity := 8, sendCapacity := 8, fixedIsn := some ⟨0⟩ }
    let narrow : TCPConfig := { recvCapacity := 1, sendCapacity := 8, fixedIsn := some ⟨7⟩ }
    let ok := Network.Allows fun h peer e => e.Ok h peer ∧ e.Settled h
    let lost : List (Side × Event) :=
      [(.a, .connect), (.b, .deliver 0), (.a, .tick 1000), (.b, .deliver 1), (.a, .deliver 1)]
    let blocked : List (Side × Event) :=
      [(.a, .connect), (.b, .deliver 0), (.a, .deliver 0), (.b, .deliver 1), (.a, .write [120]),
        (.a, .endInputStream), (.b, .endInputStream), (.a, .deliver 1)]
    let n := run Network.step (Network.new cfg cfg 0 0) lost
    let m := run Network.step (Network.new cfg narrow 0 0) blocked
    (Admissible Network.step ok (Network.new cfg cfg 0 0) lost ∧
      n.a.conn.state = { sender := .synAcked, receiver := .listen } ∧
      ¬ n.a.conn.state.Official) ∧
    (Admissible Network.step ok (Network.new cfg narrow 0 0) blocked ∧
      m.a.conn.state = { sender := .synAcked, receiver := .finRecv } ∧
      ¬ m.a.conn.state.Official) := by
  decide +kernel

end Sponge
