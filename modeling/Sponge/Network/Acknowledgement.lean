import Sponge.Network.Link

/-!
# Acknowledgements

A host accepts only acknowledgements that its peer has really given, so the position
accepted never runs ahead of what the peer has received.  Two consequences: a pure ACK
that is up to date is never taken for a keep-alive, so pure ACKs are not answered by
pure ACKs; and a connection that closes without an error has delivered everything.

Main results:

- Theorem {lit}`acknowledgements_never_ahead`: the bounds on acknowledgements, and the end
  of every exchange of pure ACKs.
- Theorem {lit}`clean_close_delivers`: what holds when a connection closes without error.
-/

namespace Sponge

open Library

/-- The linked hosts `h` and `k` have accepted no acknowledgement that the other one has
not given. -/
structure Acked (h k : Host) : Prop where
  linked : Linked h k
  here : h.conn.sender.absoluteAckno ≤ k.conn.receiver.absoluteAckno
  there : k.conn.sender.absoluteAckno ≤ h.conn.receiver.absoluteAckno

variable {sent sent' more : List TCPSegment} {h h' k : Host} {o : Outcome} {p : Packet}

theorem Acked.symm (hacked : Acked h k) : Acked k h :=
  ⟨hacked.linked.symm, hacked.there, hacked.here⟩

/-- The ackno of a delivered packet is recovered from its 32 bits. -/
theorem Link.unwrap_ackno (hlink : Link sent sent' h k) (hp : p ∈ k.packets)
    (hrst : p.seg.header.rst = false) (hack : p.seg.header.ack = true) (hnear : p.AcknoNear h) :
    unwrap p.seg.header.ackno h.conn.sender.isn h.conn.sender.nextSeqno = p.absAckno := by
  have hgiven := hlink.there.acknowledges p hp hrst hack
  have hisn := (hlink.outbound.synced hgiven.setIsn_eq).1
  have hle := hlink.outbound.absoluteAckno_le hlink.here.sending.segmented
  have hgiven_le := hgiven.absAckno_le
  have hlt := hlink.here.sending.cached.nextSeqno_lt
  obtain ⟨hlow, hhigh⟩ := hnear hrst hack
  rw [hgiven.ackno_eq, hisn]
  exact unwrap_wrap _ (by omega) hlt hlow hhigh

/-- An event at `h` accepts only what the peer has received. -/
theorem Stepped.absoluteAckno_le
    (hstepped : Stepped (fun p => p.SeqnoNear h ∧ p.AcknoNear h) sent sent' more h k o h')
    (hlink : Link sent sent' h k)
    (hle : h.conn.sender.absoluteAckno ≤ k.conn.receiver.absoluteAckno) :
    h'.conn.sender.absoluteAckno ≤ k.conn.receiver.absoluteAckno := by
  rw [hstepped.becomes.sender_eq]
  change o.sender.absoluteAckno ≤ _
  rcases hstepped.sends.accepted with hsame | ⟨p, hp, hok, hrst, hack, hnew⟩
  · rw [hsame]
    exact hle
  · rw [hnew, hlink.unwrap_ackno hp hrst hack hok.2]
    exact (hlink.there.acknowledges p hp hrst hack).absAckno_le

/-- Two conditions on a delivered packet. -/
theorem Event.Delivers.and {P Q : Packet → Prop} {packets : List Packet} {e : Event}
    (hP : e.Delivers P packets) (hQ : e.Delivers Q packets) :
    e.Delivers (fun p => P p ∧ Q p) packets := by
  cases e with
  | deliver i => exact fun p hp => ⟨hP p hp, hQ p hp⟩
  | connect | write | endInputStream | tick | read => trivial

/-- An event at `h` keeps the acknowledgements sound. -/
theorem Acked.step (hacked : Acked h k) {e : Event} (hok : e.Ok h k) :
    Acked (h.step k.packets e) k := by
  obtain ⟨sent, sent', hlink⟩ := hacked.linked
  obtain ⟨⟨hallowed, hbounded, hseqno⟩, hackno⟩ := hok
  obtain ⟨o, more, hstepped⟩ := hlink.step (fun p hp => hp.1) hallowed hbounded
    (hseqno.and hackno)
  refine ⟨⟨_, _, hstepped.link⟩, hstepped.absoluteAckno_le hlink hacked.here, ?_⟩
  rw [hstepped.becomes.receiver_eq]
  exact hacked.there.trans (hstepped.evolves.advances hlink.inbound).absoluteAckno_le

/-- Fresh hosts have accepted nothing. -/
theorem acked_new (cfgA cfgB : TCPConfig) (randomA randomB : UInt32)
    (hA : cfgA.recvCapacity < 2 ^ 63) (hB : cfgB.recvCapacity < 2 ^ 63) :
    Acked (Host.new cfgA randomA) (Host.new cfgB randomB) := by
  have hzero : ∀ (cfg : TCPConfig) (random : UInt32),
      (Host.new cfg random).conn.sender.absoluteAckno = 0 := fun cfg random =>
    (TCPSender.cached_new cfg.sendCapacity cfg.rtTimeout cfg.fixedIsn random).absoluteAckno_eq
  refine ⟨⟨[], [], link_new cfgA cfgB randomA randomB hA hB⟩, ?_, ?_⟩
  · rw [hzero]
    exact Nat.zero_le _
  · rw [hzero]
    exact Nat.zero_le _

/-- Both hosts accept only what the other one has given, in every run. -/
theorem acked_run (cfgA cfgB : TCPConfig) (randomA randomB : UInt32)
    {events : List (Side × Event)} (hA : cfgA.recvCapacity < 2 ^ 63)
    (hB : cfgB.recvCapacity < 2 ^ 63)
    (hrun : Admissible Network.step (Network.Allows Event.Ok)
      (Network.new cfgA cfgB randomA randomB) events) (side : Side) :
    let n := run Network.step (Network.new cfgA cfgB randomA randomB) events
    Acked (n.host side) (n.peer side) :=
  Network.invariant_side (fun _ _ h => h.symm) (fun _ _ _ h hok => h.step hok)
    (acked_new cfgA cfgB randomA randomB hA hB) hrun side

/-! ## Pure ACKs -/

/-- The packets of a host that take no sequence numbers. -/
def Host.pureAcks (h : Host) : List Packet :=
  h.packets.filter fun p => decide (p.seg.lengthInSequenceSpace = 0)

/-- The delivery of an empty segment whose sender has sent nothing new since. -/
def Event.DeliversFreshAck (peer : Host) : Event → Prop
  | .deliver i => ∃ p, peer.packets[i]? = some p ∧ p.seg.lengthInSequenceSpace = 0 ∧
      p.nextSeqno = peer.conn.sender.nextSeqno
  | _ => False

instance (peer : Host) : ∀ e, Decidable (Event.DeliversFreshAck peer e)
  | .deliver i =>
      match h : peer.packets[i]? with
      | none => isFalse (by simp [Event.DeliversFreshAck, h])
      | some p =>
          decidable_of_iff (p.seg.lengthInSequenceSpace = 0 ∧
            p.nextSeqno = peer.conn.sender.nextSeqno) (by simp [Event.DeliversFreshAck, h])
  | .connect | .write _ | .endInputStream | .tick _ | .read _ => isFalse id

/-- The seqno before another one, as it wraps around. -/
theorem wrap_sub_one (a : Nat) (isn : WrappingInt32) :
    (wrap a isn).sub 1 = wrap (a + (2 ^ 32 - 1)) isn := by
  rw [← add_wrap]
  rfl

/-- What the delivery of a packet does to the receiver. -/
theorem Link.delivered (hlink : Link sent sent' h k) (hp : p ∈ k.packets)
    (hrst : p.seg.header.rst = false) (hnear : p.SeqnoNear h) :
    Evolves sent' k.conn.sender.isn k.packets (fun p => p.SeqnoNear h) h.conn.receiver h.popped
      (h.conn.receiver.segmentReceived p.seg) h.popped := by
  have hlaw := hlink.there.sending.segmented
  exact (Moves.receive p hp hnear _ (.close hrst)).evolves hlink.inbound hlaw
    hlink.there.carries (hlaw.length_payloads_le.trans_lt hlink.there.bytesWritten_lt)
    fun _ hok => hok

/-- An up-to-date pure ACK is no keep-alive: its seqno is `_next_seqno` of its sender,
which is at least the ackno and less than `2 ^ 31` ahead of it. -/
theorem Link.isKeepAlive_eq_false (hlink : Link sent sent' h k) (hp : p ∈ k.packets)
    (hrst : p.seg.header.rst = false) (hnear : p.SeqnoNear h)
    (hlen : p.seg.lengthInSequenceSpace = 0)
    (hfresh : p.nextSeqno = k.conn.sender.nextSeqno) :
    TCPConnection.isKeepAlive (h.conn.receiver.segmentReceived p.seg) p.seg = false := by
  have hevolves := hlink.delivered hp hrst hnear
  have hadvances := hevolves.advances hlink.inbound
  have hinbound := hevolves.inbound hlink.inbound
  have hset := h.conn.receiver.setIsn_segmentReceived p.seg
  rw [(payload_eq_nil_of_length hlen).2.1, Bool.or_false] at hset
  generalize h.conn.receiver.segmentReceived p.seg = r at *
  unfold TCPConnection.isKeepAlive TCPReceiver.ackno
  by_cases hsyn : r.setIsn = true
  · rw [if_pos hsyn]
    have hbehind := hinbound.absoluteAckno_le hlink.there.sending.segmented
    have hmono := hadvances.absoluteAckno_le
    obtain ⟨hlow, -⟩ := hnear hrst (Or.inl (hset ▸ hsyn))
    have hwritten : h.conn.inboundStream.bytesWritten ≤ h.conn.receiver.absoluteAckno := by
      unfold TCPReceiver.absoluteAckno TCPConnection.inboundStream
      omega
    have hplace := hlink.there.empty_at p hp hrst hlen
    have hseqno := (hlink.there.carries p hp hrst).seqno_eq
    rw [hplace, hfresh] at hseqno hlow
    simp only [decide_eq_false_iff_not]
    rw [hseqno, (hinbound.synced hsyn).1, wrap_sub_one, wrap_eq_wrap_iff]
    omega
  · rw [if_neg hsyn]

/-- An empty segment that is no keep-alive makes the sender fill the window or do nothing. -/
theorem reply_eq_of_empty {r : TCPReceiver} {s : TCPSender} {seg : TCPSegment}
    (hlen : seg.lengthInSequenceSpace = 0) (hkeep : TCPConnection.isKeepAlive r seg = false) :
    TCPConnection.reply r s seg = s.fillWindow ∨ TCPConnection.reply r s seg = s := by
  simp only [TCPConnection.reply, hlen, hkeep]
  split
  · left
    simp
  · exact Or.inr rfl

/-- The answer to an up-to-date pure ACK is new data or nothing. -/
theorem Link.pureAcks_step (hlink : Link sent sent' h k) {e : Event} (hok : e.Ok h k)
    (hack : e.DeliversFreshAck k) : (h.step k.packets e).pureAcks = h.pureAcks := by
  cases e with
  | connect | write | endInputStream | tick | read => cases hack
  | deliver i =>
      obtain ⟨p, hget, hlen, hfresh⟩ := hack
      obtain ⟨⟨hactive, -, hseqno⟩, -⟩ := hok
      have hp := List.mem_of_getElem? hget
      have hempty := hlink.here.queue_eq
      obtain ⟨o, hturn, hbecomes⟩ := segmentReceived_turn hactive hlink.here.out_eq hempty hget
      have hrec := hturn.receives hget
      have hpos : ∀ seg ∈ o.sender.segmentsOut, seg.lengthInSequenceSpace ≠ 0 := by
        have hnone : (TCPConnection.acked h.conn.sender p.seg).segmentsOut = [] := by
          rw [TCPConnection.segmentsOut_acked, hempty]
        cases hrec with
        | reset hrst => simp [hempty]
        | close hrst => simp [hnone]
        | reply hrst =>
            have hkeep := hlink.isKeepAlive_eq_false hp hrst (hseqno p hget) hlen hfresh
            rcases reply_eq_of_empty (s := TCPConnection.acked h.conn.sender p.seg) hlen hkeep with
              hfill | hsame
            · rw [hfill, (TCPSender.fillWindow_emitted _).segmentsOut_eq, hnone, List.nil_append]
              intro seg hseg
              exact (TCPSender.length_pos_of_mem_newSegments hseg).ne'
            · simp [hsame, hnone]
      have hstep : h.step k.packets (.deliver i) = h.launch (h.conn.segmentReceived p.seg) := by
        rw [Host.step, hget]
      have hnew : (o.sender.segmentsOut.map o.packet).filter
          (fun p => decide (p.seg.lengthInSequenceSpace = 0)) = [] := by
        rw [List.filter_eq_nil_iff]
        intro q hq
        obtain ⟨seg, hseg, rfl⟩ := List.mem_map.mp hq
        rw [decide_eq_true_eq]
        exact hpos seg hseg
      rw [hstep, Host.pureAcks, hbecomes.packets_eq, List.filter_append, hnew, List.append_nil]
      rfl

/-- While up-to-date pure ACKs are delivered, no pure ACK is emitted. -/
theorem Acked.pureAcks_run {n : Network} (hacked : Acked n.a n.b)
    {deliveries : List (Side × Event)}
    (hrun : Admissible Network.step
      (Network.Allows fun h k e => e.Ok h k ∧ e.DeliversFreshAck k) n deliveries) :
    (run Network.step n deliveries).a.pureAcks = n.a.pureAcks ∧
      (run Network.step n deliveries).b.pureAcks = n.b.pureAcks := by
  have h := Admissible.invariant (I := fun m : Network => Acked m.a m.b ∧
    m.a.pureAcks = n.a.pureAcks ∧ m.b.pureAcks = n.b.pureAcks) ?_ ⟨hacked, rfl, rfl⟩ hrun
  · exact h.2
  · rintro m ⟨side, e⟩ ⟨hm, hA, hB⟩ ⟨hok, hack⟩
    cases side with
    | a =>
        obtain ⟨sent, sent', hlink⟩ := hm.linked
        exact ⟨hm.step hok, (hlink.pureAcks_step hok hack).trans hA, hB⟩
    | b =>
        obtain ⟨sent, sent', hlink⟩ := hm.symm.linked
        exact ⟨(hm.symm.step hok).symm, hA, (hlink.pureAcks_step hok hack).trans hB⟩

/-- In every run, on either side: once the peer `b` has the SYN of `a`, the ackno that `a`
has accepted is at most what `b` has received, and that is at most `_next_seqno` of `a`;
the acknos of the packets that `b` has emitted are bounded in the same way.  An empty
segment of `a` that is delivered before `a` sends anything new is not taken for a
keep-alive, and however many of them are delivered on both sides, neither emits a pure
ACK. -/
theorem acknowledgements_never_ahead (cfgA cfgB : TCPConfig) (randomA randomB : UInt32)
    (events : List (Side × Event)) (hA : cfgA.recvCapacity < 2 ^ 63)
    (hB : cfgB.recvCapacity < 2 ^ 63)
    (hrun : Admissible Network.step (Network.Allows Event.Ok)
      (Network.new cfgA cfgB randomA randomB) events) :
    let n := run Network.step (Network.new cfgA cfgB randomA randomB) events
    (∀ side,
      let a := n.host side
      let b := n.peer side
      let received := 1 + b.conn.inboundStream.bytesWritten + b.conn.inboundStream.inputEnded.toNat
      (b.conn.receiver.setIsn = true →
        a.conn.sender.absoluteAckno ≤ received ∧
          received ≤ a.conn.sender.nextSeqnoAbsolute) ∧
      (∀ p ∈ b.packets, p.seg.header.rst = false → p.seg.header.ack = true →
        b.conn.receiver.setIsn = true ∧
          p.seg.header.ackno = wrap p.absAckno a.conn.sender.isn ∧
          p.absAckno ≤ received ∧ p.absAckno ≤ a.conn.sender.nextSeqnoAbsolute) ∧
      (∀ p ∈ a.packets, p.seg.header.rst = false → p.seg.lengthInSequenceSpace = 0 →
        p.nextSeqno = a.conn.sender.nextSeqnoAbsolute → p.SeqnoNear b →
        TCPConnection.isKeepAlive (b.conn.receiver.segmentReceived p.seg) p.seg = false)) ∧
    ∀ deliveries, Admissible Network.step
        (Network.Allows fun h k e => e.Ok h k ∧ e.DeliversFreshAck k) n deliveries →
      (run Network.step n deliveries).a.pureAcks = n.a.pureAcks ∧
        (run Network.step n deliveries).b.pureAcks = n.b.pureAcks := by
  intro n
  have hacked := acked_run cfgA cfgB randomA randomB hA hB hrun
  refine ⟨?_, fun deliveries hdeliveries => (hacked .a).pureAcks_run hdeliveries⟩
  intro side a b received
  obtain ⟨hlinked, hhere, -⟩ := hacked side
  obtain ⟨sent, sent', hlink⟩ := hlinked
  have hbehind : b.conn.receiver.absoluteAckno ≤ a.conn.sender.nextSeqno :=
    hlink.outbound.absoluteAckno_le hlink.here.sending.segmented
  have hreceived : b.conn.receiver.setIsn = true →
      b.conn.receiver.absoluteAckno = received := by
    intro hset
    rw [TCPReceiver.absoluteAckno, hset]
    rfl
  refine ⟨?_, ?_, ?_⟩
  · intro hset
    rw [← hreceived hset]
    exact ⟨hhere, hbehind⟩
  · intro p hp hrst hack
    have hgiven := hlink.there.acknowledges p hp hrst hack
    refine ⟨hgiven.setIsn_eq, ?_, ?_, hgiven.absAckno_le.trans hbehind⟩
    · rw [hgiven.ackno_eq, (hlink.outbound.synced hgiven.setIsn_eq).1]
    · rw [← hreceived hgiven.setIsn_eq]
      exact hgiven.absAckno_le
  · intro p hp hrst hlen hfresh hnear
    exact hlink.symm.isKeepAlive_eq_false hp hrst hnear hlen hfresh

/-- Two bytes are acknowledged; the ACK, delivered twice, draws no ACK in return. -/
theorem acknowledgements_never_ahead_exchange :
    let cfgA : TCPConfig := { recvCapacity := 8, sendCapacity := 8, fixedIsn := some ⟨4294967294⟩ }
    let cfgB : TCPConfig := { recvCapacity := 8, sendCapacity := 8, fixedIsn := some ⟨7⟩ }
    let events : List (Side × Event) :=
      [(.a, .connect), (.b, .deliver 0), (.a, .deliver 0), (.a, .write [104, 105]),
        (.b, .deliver 2)]
    let n := run Network.step (Network.new cfgA cfgB 0 0) events
    let deliveries : List (Side × Event) := [(.a, .deliver 1), (.a, .deliver 1)]
    Admissible Network.step (Network.Allows Event.Ok)
        (Network.new cfgA cfgB 0 0) events ∧
      n.b.conn.receiver.setIsn = true ∧
      n.a.conn.sender.absoluteAckno ≤
        1 + n.b.conn.inboundStream.bytesWritten + n.b.conn.inboundStream.inputEnded.toNat ∧
      (run Network.step n deliveries).a.pureAcks = n.a.pureAcks := by
  intro cfgA cfgB events n deliveries
  have hrun : Admissible Network.step (Network.Allows Event.Ok)
      (Network.new cfgA cfgB 0 0) events := by decide +kernel
  have hset : n.b.conn.receiver.setIsn = true := by decide +kernel
  have hdeliveries : Admissible Network.step
      (Network.Allows fun h k e => e.Ok h k ∧ e.DeliversFreshAck k) n deliveries := by
    decide +kernel
  have hn : run Network.step (Network.new cfgA cfgB 0 0) events = n := rfl
  have hall := acknowledgements_never_ahead cfgA cfgB 0 0 events (by decide) (by decide) hrun
  rw [hn] at hall
  clear_value n
  exact ⟨hrun, hset, ((hall.1 .a).1 hset).1, (hall.2 deliveries hdeliveries).1⟩

/-! ## Closing without an error -/

/-- A closed connection has failed or both its streams have finished. -/
def Host.ClosedSoundly (h : Host) : Prop :=
  h.conn.active = false → h.conn.receiver.streamOut.error = true ∨
    TCPConnection.finished h.conn.receiver h.conn.sender = true

/-- An event keeps a closed connection sound. -/
theorem Host.ClosedSoundly.step {sent : List TCPSegment} {h k : Host} (hclosed : h.ClosedSoundly)
    (hend : Endpoint sent h) {e : Event} (hallowed : e.Allowed h) :
    (h.step k.packets e).ClosedSoundly := by
  by_cases hactive : h.conn.active = true
  · obtain ⟨o, -, hbecomes⟩ := @Host.step_moves k.packets (fun _ => True) h hend.out_eq
      hend.queue_eq e hallowed (by cases e <;> simp [Event.Delivers])
    intro hinactive
    rw [hbecomes.receiver_eq, hbecomes.sender_eq]
    exact (hbecomes.closed hinactive).resolve_left (by simp [hactive])
  · -- A closed connection is only read.
    cases e with
    | read len =>
        rw [Host.step]
        exact hclosed
    | connect | write | endInputStream | tick | deliver => exact absurd hallowed hactive

/-- A fresh connection is not closed. -/
theorem Host.closedSoundly_new (cfg : TCPConfig) (random : UInt32) :
    (Host.new cfg random).ClosedSoundly := by
  intro hinactive
  cases hinactive

/-- Both hosts have accepted only what the other one has given, and closed soundly. -/
structure Settled (h k : Host) : Prop where
  acked : Acked h k
  here : h.ClosedSoundly
  there : k.ClosedSoundly

theorem Settled.symm (hsettled : Settled h k) : Settled k h :=
  ⟨hsettled.acked.symm, hsettled.there, hsettled.here⟩

/-- An event at `h` keeps both hosts settled. -/
theorem Settled.step (hsettled : Settled h k) {e : Event} (hok : e.Ok h k) :
    Settled (h.step k.packets e) k := by
  obtain ⟨sent, sent', hlink⟩ := hsettled.acked.linked
  exact ⟨hsettled.acked.step hok, hsettled.here.step hlink.here hok.1.1, hsettled.there⟩

/-- Both hosts are settled in every run. -/
theorem settled_run (cfgA cfgB : TCPConfig) (randomA randomB : UInt32)
    {events : List (Side × Event)} (hA : cfgA.recvCapacity < 2 ^ 63)
    (hB : cfgB.recvCapacity < 2 ^ 63)
    (hrun : Admissible Network.step (Network.Allows Event.Ok)
      (Network.new cfgA cfgB randomA randomB) events) (side : Side) :
    let n := run Network.step (Network.new cfgA cfgB randomA randomB) events
    Settled (n.host side) (n.peer side) :=
  Network.invariant_side (fun _ _ h => h.symm) (fun _ _ _ h hok => h.step hok)
    ⟨acked_new cfgA cfgB randomA randomB hA hB, Host.closedSoundly_new cfgA randomA,
      Host.closedSoundly_new cfgB randomB⟩ hrun side

/-- Both streams of `h` have finished: the peer has received all of one and `h` all of
the other. -/
theorem Link.delivered_of_finished (hlink : Link sent sent' h k)
    (hle : h.conn.sender.absoluteAckno ≤ k.conn.receiver.absoluteAckno)
    (hfinished : TCPConnection.finished h.conn.receiver h.conn.sender = true) :
    k.received = h.wrote ∧ k.conn.inboundStream.inputEnded = true ∧
      h.conn.inboundStream.inputEnded = true := by
  obtain ⟨hreceiver, hsender⟩ := of_decide_eq_true hfinished
  obtain ⟨hsent, hflight⟩ := TCPSender.sent_of_finAcked hsender
  have hlaw := hlink.here.sending.segmented
  have hcached := hlink.here.sending.cached
  rw [hcached.bytesInFlight_eq] at hflight
  have hack := hcached.ack_le
  have hread := hlaw.length_payloads_le
  have hwritten := hlink.outbound.bytesWritten_le
  -- The FIN is acknowledged, so the peer has counted the SYN, every byte and the FIN.
  have hcount : k.conn.receiver.absoluteAckno = k.conn.receiver.setIsn.toNat +
    k.conn.inboundStream.bytesWritten + k.conn.inboundStream.inputEnded.toNat := rfl
  change k.conn.inboundStream.bytesWritten ≤ _ at hwritten
  have hset := k.conn.receiver.setIsn.toNat_le
  have hfin := k.conn.inboundStream.inputEnded.toNat_le
  have hall : k.conn.inboundStream.bytesWritten = h.wrote.length := by
    rw [hlaw.length_wrote]
    omega
  have hended : k.conn.inboundStream.inputEnded.toNat = 1 := by omega
  refine ⟨?_, ?_, TCPReceiver.inputEnded_of_finRecv hreceiver⟩
  · apply hlink.received_isPrefix_wrote.eq_of_length
    rw [← hall, hlink.length_received]
  · simpa using hended

/-- In every run, on either side: when `a` has become inactive and neither of its streams
is in error, its peer `b` has received all that the application of `a` wrote, and both
inbound streams have ended. -/
theorem clean_close_delivers (cfgA cfgB : TCPConfig) (randomA randomB : UInt32)
    (events : List (Side × Event)) (hA : cfgA.recvCapacity < 2 ^ 63)
    (hB : cfgB.recvCapacity < 2 ^ 63)
    (hrun : Admissible Network.step (Network.Allows Event.Ok)
      (Network.new cfgA cfgB randomA randomB) events) :
    let n := run Network.step (Network.new cfgA cfgB randomA randomB) events
    ∀ side,
      let a := n.host side
      let b := n.peer side
      a.conn.active = false → a.conn.sender.stream.error = false →
        a.conn.inboundStream.error = false →
        b.received = a.wrote ∧ b.conn.inboundStream.inputEnded = true ∧
          a.conn.inboundStream.inputEnded = true := by
  intro n side a b hinactive _ herror
  obtain ⟨⟨⟨sent, sent', hlink⟩, hhere, -⟩, hclosed, -⟩ :=
    settled_run cfgA cfgB randomA randomB hA hB hrun side
  refine hlink.delivered_of_finished hhere ((hclosed hinactive).resolve_left ?_)
  change ¬ a.conn.inboundStream.error = true
  simp [herror]

/-- Both sides send their FINs; `a` lingers until the clock lets it close. -/
theorem clean_close_delivers_linger :
    let cfgA : TCPConfig := { recvCapacity := 8, sendCapacity := 8, fixedIsn := some ⟨4294967294⟩ }
    let cfgB : TCPConfig := { recvCapacity := 8, sendCapacity := 8, fixedIsn := some ⟨7⟩ }
    let events : List (Side × Event) :=
      [(.a, .connect), (.b, .deliver 0), (.a, .deliver 0), (.b, .deliver 1),
        (.a, .write [104, 105]), (.b, .deliver 2), (.a, .endInputStream), (.b, .deliver 3),
        (.a, .deliver 1), (.b, .endInputStream), (.a, .deliver 3), (.b, .deliver 4),
        (.a, .tick 10000)]
    let n := run Network.step (Network.new cfgA cfgB 0 0) events
    Admissible Network.step (Network.Allows Event.Ok)
        (Network.new cfgA cfgB 0 0) events ∧
      n.a.conn.active = false ∧ n.b.received = n.a.wrote ∧
      n.b.conn.inboundStream.inputEnded = true ∧ n.a.conn.inboundStream.inputEnded = true := by
  intro cfgA cfgB events n
  have hrun : Admissible Network.step (Network.Allows Event.Ok)
      (Network.new cfgA cfgB 0 0) events := by decide +kernel
  have hinactive : n.a.conn.active = false := by decide +kernel
  have hsender : n.a.conn.sender.stream.error = false := by decide +kernel
  have hreceiver : n.a.conn.inboundStream.error = false := by decide +kernel
  have hn : run Network.step (Network.new cfgA cfgB 0 0) events = n := rfl
  have hall := clean_close_delivers cfgA cfgB 0 0 events (by decide) (by decide) hrun
  rw [hn] at hall
  clear_value n
  exact ⟨hrun, hinactive, hall .a hinactive hsender hreceiver⟩

end Sponge
