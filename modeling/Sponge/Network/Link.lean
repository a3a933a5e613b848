import Sponge.Network.Inbound

/-!
# Two hosts

Both hosts put only segments of their own streams on the network, and each has received
a part of the other one's stream.  Every event at one of them keeps this, so in every run
the bytes that a host has received are the first bytes that its peer has written.

Main results:

- Theorem {lit}`Link.step`: what an event at one of two linked hosts does.
- Theorem {lit}`Network.invariant`: the induction over the runs of a network.
- Theorem {lit}`stream_safety`: a host receives what its peer writes, in order and from
  the start.
-/

namespace Sponge

open Library

/-! ## One host -/

/-- A packet with the ack flag carries an ackno of the receiver `r`. -/
structure Acknowledges (r : TCPReceiver) (p : Packet) : Prop where
  setIsn_eq : r.setIsn = true
  ackno_eq : p.seg.header.ackno = wrap p.absAckno r.isn
  absAckno_le : p.absAckno ≤ r.absoluteAckno

/-- A host that has sent `sent`. -/
structure Endpoint (sent : List TCPSegment) (h : Host) : Prop where
  sending : Sending h.wrote sent h.conn.sender.absoluteAckno h.conn.sender
  queue_eq : h.conn.sender.segmentsOut = []
  out_eq : h.conn.segmentsOut = []
  bytesWritten_lt : h.conn.sender.stream.bytesWritten < 2 ^ 62
  healthy : h.conn.active = true → h.conn.receiver.streamOut.error = false
  carries : ∀ p ∈ h.packets, p.seg.header.rst = false →
    Carries sent h.conn.sender.isn p.absSeqno p.seg
  empty_at : ∀ p ∈ h.packets, p.seg.header.rst = false → p.seg.lengthInSequenceSpace = 0 →
    p.absSeqno = p.nextSeqno
  acknowledges : ∀ p ∈ h.packets, p.seg.header.rst = false → p.seg.header.ack = true →
    Acknowledges h.conn.receiver p

theorem endpoint_new (cfg : TCPConfig) (random : UInt32) : Endpoint [] (Host.new cfg random) where
  sending := by
    have hsending := sending_new cfg.sendCapacity cfg.rtTimeout cfg.fixedIsn random
    have hack := hsending.cached.absoluteAckno_eq
    change Sending [] [] (TCPSender.new cfg.sendCapacity cfg.rtTimeout cfg.fixedIsn
      random).absoluteAckno _
    rw [hack]
    exact hsending
  queue_eq := rfl
  out_eq := rfl
  bytesWritten_lt := by simp [Host.new, TCPConnection.new, TCPSender.new, ByteStream.new,
    ByteStream.bytesWritten]
  healthy := fun _ => rfl
  carries := by simp [Host.new]
  empty_at := by simp [Host.new]
  acknowledges := by simp [Host.new]

variable {sent sent' more : List TCPSegment} {h h' k : Host} {o : Outcome} {r r' : TCPReceiver}
  {p : Packet} {packets : List Packet} {ok : Packet → Prop}

theorem Acknowledges.advance (ha : Acknowledges r p) (hr : Advances r r') :
    Acknowledges r' p := by
  obtain ⟨hset, hisn⟩ := hr.setIsn_eq ha.setIsn_eq
  refine ⟨hset, ?_, ha.absAckno_le.trans hr.absoluteAckno_le⟩
  rw [ha.ackno_eq, hisn]

/-- The connection stamps the ackno of its receiver, unless its inbound stream failed. -/
theorem acknowledges_packet {seg : TCPSegment} (herror : o.receiver.streamOut.error = false)
    (hack : (o.packet seg).seg.header.ack = true) : Acknowledges o.receiver (o.packet seg) := by
  change decide (o.receiver.stateSummary ≠ .listen) = true at hack
  have hset : o.receiver.setIsn = true := by
    by_contra hset
    apply of_decide_eq_true hack
    rw [TCPReceiver.stateSummary_eq herror, if_pos (Bool.eq_false_of_not_eq_true hset)]
  refine ⟨hset, ?_, le_rfl⟩
  change o.receiver.ackno.getD ⟨0⟩ = _
  rw [TCPReceiver.ackno, if_pos hset]
  rfl

/-- A packet is in place if its segment is. -/
theorem carries_packet {seg : TCPSegment} (hqueued : Queued sent o.sender)
    (hseg : seg ∈ o.sender.segmentsOut) (hrst : (o.packet seg).seg.header.rst = false) :
    Carries sent o.sender.isn (o.packet seg).absSeqno (o.packet seg).seg ∧
      ((o.packet seg).seg.lengthInSequenceSpace = 0 →
        (o.packet seg).absSeqno = (o.packet seg).nextSeqno) := by
  rcases hqueued seg hseg with hreset | ⟨n, hcarries, hle, hnear, hempty⟩
  · change seg.header.rst = false at hrst
    rw [hreset] at hrst
    cases hrst
  · rw [Outcome.absSeqno_packet hcarries.seqno_eq hle hnear]
    exact ⟨hcarries.stamp o.receiver, hempty⟩

/-- An event at a host keeps its packets in order. -/
theorem Endpoint.moved {ack : Nat} (hend : Endpoint sent h) (hbecomes : Becomes h o h')
    (hsends : Sends packets ok h sent h.conn.sender.absoluteAckno o more ack)
    (hadvances : Advances h.conn.receiver o.receiver)
    (hbound : o.sender.stream.bytesWritten < 2 ^ 62) : Endpoint (sent ++ more) h' := by
  have hsending := hsends.sending
  have hsender := hbecomes.sender_eq
  have hisn : h'.conn.sender.isn = o.sender.isn := by rw [hsender]
  have hack : h'.conn.sender.absoluteAckno = ack := by
    rw [hsender]
    exact hsending.cached.absoluteAckno_eq
  refine ⟨?_, ?_, hbecomes.segmentsOut_eq, ?_, ?_, ?_, ?_, ?_⟩
  · rw [hack, hsender, hbecomes.wrote_eq]
    exact hsending.requeue o.sender.stream [] (by simp) hsending.segmented
  · rw [hsender]
  · rw [hsender]
    exact hbound
  · intro hactive
    have hold := hend.healthy (hbecomes.active (Or.inr hactive))
    rcases hbecomes.error with hsame | ⟨hclosed, -⟩
    · rw [hbecomes.receiver_eq, hsame, hold]
    · rw [hactive] at hclosed
      cases hclosed
  · intro p hp hrst
    rw [hbecomes.packets_eq, List.mem_append, List.mem_map] at hp
    rw [hisn]
    rcases hp with hold | ⟨seg, hseg, rfl⟩
    · rw [hsends.isn_eq]
      exact (hend.carries p hold hrst).append more
    · exact (carries_packet hsending.queued hseg hrst).1
  · intro p hp hrst
    rw [hbecomes.packets_eq, List.mem_append, List.mem_map] at hp
    rcases hp with hold | ⟨seg, hseg, rfl⟩
    · exact hend.empty_at p hold hrst
    · exact (carries_packet hsending.queued hseg hrst).2
  · intro p hp hrst hflag
    rw [hbecomes.packets_eq, List.mem_append, List.mem_map] at hp
    rw [hbecomes.receiver_eq]
    rcases hp with hold | ⟨seg, hseg, rfl⟩
    · exact (hend.acknowledges p hold hrst hflag).advance hadvances
    · have hactive := hbecomes.active (Or.inl (List.ne_nil_of_mem hseg))
      rcases hbecomes.error with hsame | ⟨-, hresets⟩
      · exact acknowledges_packet (hsame.trans (hend.healthy hactive)) hflag
      · change seg.header.rst = false at hrst
        rw [hresets seg hseg] at hrst
        cases hrst

/-! ## Two hosts -/

/-- The host `h` has sent `sent` and its peer `k` has sent `sent'`, and each has received
a part of the other one's stream. -/
structure Link (sent sent' : List TCPSegment) (h k : Host) : Prop where
  here : Endpoint sent h
  there : Endpoint sent' k
  inbound : Inbound sent' k.conn.sender.isn h.conn.receiver h.popped
  outbound : Inbound sent h.conn.sender.isn k.conn.receiver k.popped

theorem link_new (cfgA cfgB : TCPConfig) (randomA randomB : UInt32)
    (hA : cfgA.recvCapacity < 2 ^ 63) (hB : cfgB.recvCapacity < 2 ^ 63) :
    Link [] [] (Host.new cfgA randomA) (Host.new cfgB randomB) where
  here := endpoint_new cfgA randomA
  there := endpoint_new cfgB randomB
  inbound := inbound_new _ hA
  outbound := inbound_new _ hB

theorem Link.symm (hlink : Link sent sent' h k) : Link sent' sent k h :=
  ⟨hlink.there, hlink.here, hlink.outbound, hlink.inbound⟩

/-- What an event at `h` with the outcome `o` has done to two linked hosts, where `ok`
holds of the packet delivered, if any. -/
structure Stepped (ok : Packet → Prop) (sent sent' more : List TCPSegment) (h k : Host)
    (o : Outcome) (h' : Host) : Prop where
  becomes : Becomes h o h'
  sends : Sends k.packets ok h sent h.conn.sender.absoluteAckno o more o.sender.absoluteAckno
  evolves : Evolves sent' k.conn.sender.isn k.packets ok h.conn.receiver h.popped o.receiver
    o.popped
  link : Link (sent ++ more) sent' h' k

/-- A move at a host keeps it linked to its peer. -/
theorem Link.moved (hlink : Link sent sent' h k) (hmove : Moves k.packets ok h o)
    (hbecomes : Becomes h o h') (hnear : ∀ p, ok p → p.SeqnoNear h) (hbounded : h'.Bounded) :
    ∃ more, Stepped ok sent sent' more h k o h' := by
  have hlaw := hlink.there.sending.segmented
  have hsender := hbecomes.sender_eq
  obtain ⟨hflight, hbound⟩ := hbounded
  rw [TCPConnection.bytesInFlight, hsender] at hflight
  rw [hsender] at hbound
  have hsize : (TCPSender.payloads sent').length < 2 ^ 62 :=
    hlaw.length_payloads_le.trans_lt hlink.there.bytesWritten_lt
  have hevolves := hmove.evolves hlink.inbound hlaw hlink.there.carries hsize hnear
  -- The peer acknowledges only once it has our SYN, so acknowledgements find it sent.
  have hsyn : ∀ p ∈ k.packets, p.seg.header.rst = false → p.seg.header.ack = true →
      sent ≠ [] := fun p hp hrst hack =>
    (hlink.outbound.synced (hlink.there.acknowledges p hp hrst hack).setIsn_eq).2
  obtain ⟨more, ack, hsends⟩ := hmove.sends hlink.here.sending hlink.here.queue_eq hsyn hflight
    hbound
  obtain rfl : o.sender.absoluteAckno = ack := hsends.sending.cached.absoluteAckno_eq
  have hisn : h'.conn.sender.isn = h.conn.sender.isn := by
    rw [hsender]
    exact hsends.isn_eq
  refine ⟨more, hbecomes, hsends, hevolves, ?_, hlink.there, ?_, ?_⟩
  · exact hlink.here.moved hbecomes hsends (hevolves.advances hlink.inbound) hbound
  · rw [hbecomes.receiver_eq, hbecomes.popped_eq]
    exact hevolves.inbound hlink.inbound
  · rw [hisn]
    exact hlink.outbound.append hlink.here.sending.segmented more

/-- An event at a host keeps it linked to its peer. -/
theorem Link.step (hlink : Link sent sent' h k) (hnear : ∀ p, ok p → p.SeqnoNear h)
    {e : Event} (hallowed : e.Allowed h) (hbounded : (h.step k.packets e).Bounded)
    (hok : e.Delivers ok k.packets) :
    ∃ o more, Stepped ok sent sent' more h k o (h.step k.packets e) := by
  obtain ⟨o, hmove, hbecomes⟩ :=
    Host.step_moves hlink.here.out_eq hlink.here.queue_eq e hallowed hok
  exact ⟨o, hlink.moved hmove hbecomes hnear hbounded⟩

/-! ## Runs -/

/-- What is symmetric in the two hosts and kept by the events at one of them holds along
every run of the network. -/
theorem Network.invariant {I : Host → Host → Prop} {cond : Host → Host → Event → Prop}
    (hsymm : ∀ h k, I h k → I k h)
    (hstep : ∀ h k e, I h k → cond h k e → I (h.step k.packets e) k) {n : Network}
    {events : List (Side × Event)} (hinit : I n.a n.b)
    (hrun : Admissible Network.step (Network.Allows cond) n events) :
    I (run Network.step n events).a (run Network.step n events).b := by
  refine Admissible.invariant (I := fun n : Network => I n.a n.b) ?_ hinit hrun
  rintro n ⟨side, e⟩ hn hcond
  cases side with
  | a => exact hstep n.a n.b e hn hcond
  | b => exact hsymm _ _ (hstep n.b n.a e (hsymm _ _ hn) hcond)

/-- The same, seen from either side. -/
theorem Network.invariant_side {I : Host → Host → Prop} {cond : Host → Host → Event → Prop}
    (hsymm : ∀ h k, I h k → I k h)
    (hstep : ∀ h k e, I h k → cond h k e → I (h.step k.packets e) k) {n : Network}
    {events : List (Side × Event)} (hinit : I n.a n.b)
    (hrun : Admissible Network.step (Network.Allows cond) n events) (side : Side) :
    I ((run Network.step n events).host side) ((run Network.step n events).peer side) := by
  have hruns := Network.invariant hsymm hstep hinit hrun
  cases side with
  | a => exact hruns
  | b => exact hsymm _ _ hruns

/-- The last event of a run is taken at its host. -/
theorem Network.host_concat (n : Network) (events : List (Side × Event)) (side : Side) (e : Event) :
    (run Network.step n (events ++ [(side, e)])).host side =
      ((run Network.step n events).host side).step
        ((run Network.step n events).peer side).packets e := by
  rw [run_concat]
  cases side with
  | a => rfl
  | b => rfl

/-- The two hosts are linked. -/
def Linked (h k : Host) : Prop :=
  ∃ sent sent', Link sent sent' h k

theorem Linked.symm (hlinked : Linked h k) : Linked k h := by
  obtain ⟨sent, sent', hlink⟩ := hlinked
  exact ⟨sent', sent, hlink.symm⟩

theorem Linked.step (hlinked : Linked h k) {e : Event} (hok : e.SeqnoOk h k) :
    Linked (h.step k.packets e) k := by
  obtain ⟨sent, sent', hlink⟩ := hlinked
  obtain ⟨hallowed, hbounded, hdelivers⟩ := hok
  obtain ⟨o, more, hstepped⟩ := hlink.step (fun p hp => hp) hallowed hbounded hdelivers
  exact ⟨_, _, hstepped.link⟩

/-- What a host has received is the beginning of what its peer has written. -/
theorem Link.received_isPrefix_wrote (hlink : Link sent sent' h k) : k.received <+: h.wrote := by
  have hreceived : k.received = (TCPSender.payloads sent).take
      k.conn.receiver.reassembler.headIndex := hlink.outbound.prefixed.written_eq
  rw [hreceived, hlink.here.sending.segmented.wrote_eq]
  exact (List.take_prefix _ _).trans (List.prefix_append _ _)

theorem Link.length_received (hlink : Link sent sent' h k) :
    k.received.length = k.conn.inboundStream.bytesWritten := by
  have hreceived : k.received = (TCPSender.payloads sent).take
      k.conn.receiver.reassembler.headIndex := hlink.outbound.prefixed.written_eq
  rw [hreceived, List.length_take, Nat.min_eq_left hlink.outbound.prefixed.head_le]
  exact hlink.outbound.headIndex_eq

/-- In every run of two connections over a network that loses, repeats, delays and
reorders segments, the bytes written to the inbound stream of either side are the
beginning of the bytes that the application on the other side wrote, as long as the
bytes in flight and the distance of delivered seqnos stay below `2 ^ 31`. -/
theorem stream_safety (cfgA cfgB : TCPConfig) (randomA randomB : UInt32)
    (events : List (Side × Event)) (hA : cfgA.recvCapacity < 2 ^ 63)
    (hB : cfgB.recvCapacity < 2 ^ 63)
    (hrun : Admissible Network.step (Network.Allows Event.SeqnoOk)
      (Network.new cfgA cfgB randomA randomB) events) :
    let n := run Network.step (Network.new cfgA cfgB randomA randomB) events
    n.b.received <+: n.a.wrote ∧ n.a.received <+: n.b.wrote := by
  intro n
  have hlinked : Linked n.a n.b := Network.invariant (fun _ _ h => h.symm)
    (fun _ _ _ h hok => h.step hok) ⟨[], [], link_new cfgA cfgB randomA randomB hA hB⟩ hrun
  obtain ⟨sent, sent', hlink⟩ := hlinked
  exact ⟨hlink.received_isPrefix_wrote, hlink.symm.received_isPrefix_wrote⟩

/-- Segments that overtake each other, a repeated SYN and a retransmission, with seqnos
that wrap around. -/
theorem stream_safety_reordered :
    let cfgA : TCPConfig := { recvCapacity := 8, sendCapacity := 8, fixedIsn := some ⟨4294967294⟩ }
    let cfgB : TCPConfig := { recvCapacity := 8, sendCapacity := 8, fixedIsn := some ⟨7⟩ }
    let events : List (Side × Event) :=
      [(.a, .connect), (.b, .deliver 0), (.a, .deliver 0), (.a, .write [104, 105]),
        (.a, .write [33]), (.b, .deliver 3), (.b, .deliver 0), (.a, .tick 1000),
        (.b, .deliver 4), (.b, .read 1), (.b, .deliver 3)]
    let n := run Network.step (Network.new cfgA cfgB 0 0) events
    Admissible Network.step (Network.Allows Event.SeqnoOk)
        (Network.new cfgA cfgB 0 0) events ∧
      n.b.received.length = 3 ∧ n.b.received <+: n.a.wrote ∧ n.a.received <+: n.b.wrote := by
  intro cfgA cfgB events n
  have hrun : Admissible Network.step (Network.Allows Event.SeqnoOk)
      (Network.new cfgA cfgB 0 0) events := by decide +kernel
  exact ⟨hrun, by decide +kernel,
    stream_safety cfgA cfgB 0 0 events (by decide) (by decide) hrun⟩

end Sponge
