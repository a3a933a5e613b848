import Sponge.Network.Acknowledgement

/-!
# The end of the stream

A FIN that arrives without payload, ahead of data that is still missing, makes the
receiver end its inbound stream early, and acknowledge the missing data with it.  This
module names that kind of delivery, proves that without it the end of the stream and the
acknowledgements are sound, and shows a run in which it happens.

Main results:

- Theorem {lit}`end_of_stream_sound`: without such deliveries a host that sees the end of
  the stream has received all of it, and what is acknowledged has been received.
- Theorem {lit}`end_of_stream_sound_fails`: a FIN that overtakes the data breaks both.
-/

namespace Sponge

open Library

/-- If the inbound stream of `b` has ended, the application of `a` has ended its stream,
and `b` has received as many bytes as it wrote. -/
def EndOfStreamSound (a b : Host) : Prop :=
  b.conn.inboundStream.inputEnded = true → a.conn.sender.stream.inputEnded = true ∧
    b.conn.inboundStream.bytesWritten = a.wrote.length

instance (a b : Host) : Decidable (EndOfStreamSound a b) :=
  inferInstanceAs (Decidable (_ → _))

/-- Every byte of the stream of `a` below the ackno that `a` has accepted has been
received by `b`; byte `i` has the seqno `i + 1`. -/
def AcknowledgedReceived (a b : Host) : Prop :=
  ∀ i < a.wrote.length, i + 1 < a.conn.sender.absoluteAckno → b.received[i]? = a.wrote[i]?

instance (a b : Host) : Decidable (AcknowledgedReceived a b) :=
  inferInstanceAs (Decidable (∀ i < _, _ → _))

/-- A packet that is a bare FIN inside the window finds the byte in front of it written or
waiting. -/
def Packet.EndArrived (p : Packet) (h : Host) : Prop :=
  p.seg.header.rst = false → h.conn.receiver.setIsn = true →
    StreamReassembler.Call.EndArrived h.conn.receiver.reassembler
      (.push (p.absSeqno - 1) p.seg.payload.length p.seg.header.fin)

instance (p : Packet) (h : Host) : Decidable (p.EndArrived h) :=
  inferInstanceAs (Decidable (_ → _ → _))

/-- The conditions for delivered seqnos and acknos, and no bare FIN before its data. -/
def Event.EndOk (h peer : Host) (e : Event) : Prop :=
  e.Ok h peer ∧ e.Delivers (fun p => p.EndArrived h) peer.packets

instance (h peer : Host) (e : Event) : Decidable (e.EndOk h peer) :=
  inferInstanceAs (Decidable (_ ∧ _))

/-- The end mark of `h` stands for a last byte that is written or waiting, and its inbound
stream ends with that byte; `wrote` is what the peer wrote. -/
structure EndKnown (r : TCPReceiver) (wrote : List Byte) : Prop where
  known : r.reassembler.eof = true → r.reassembler.headIndex = wrote.length ∨
    wrote.length - 1 ∈ r.reassembler.pending
  ended : r.streamOut.inputEnded = true → r.reassembler.headIndex = wrote.length

variable {sent sent' more : List TCPSegment} {isn : WrappingInt32} {r r' : TCPReceiver}
  {popped popped' wrote wrote' : List Byte} {s s' : TCPSender} {packets : List Packet}
  {h h' k : Host} {o : Outcome}

theorem endKnown_new (capacity : Nat) : EndKnown (TCPReceiver.new capacity) [] where
  known := by simp [TCPReceiver.new, StreamReassembler.new]
  ended := by simp [TCPReceiver.new, StreamReassembler.new]

/-- Once the end mark has arrived, all that was written has been sent. -/
theorem Inbound.payloads_eq_wrote (hin : Inbound sent isn r popped)
    (hlaw : TCPSender.Segmented wrote sent s) (heof : r.reassembler.eof = true) :
    TCPSender.payloads sent = wrote :=
  hlaw.payloads_eq_wrote (hin.eof_fin heof)

/-- For the reassembler, the stream is what was sent of it. -/
theorem endSound_iff_endKnown (hin : Inbound sent isn r popped)
    (hlaw : TCPSender.Segmented wrote sent s) :
    StreamReassembler.EndSound (TCPSender.payloads sent) r.capacity ⟨r.reassembler, popped⟩ ↔
      EndKnown r wrote := by
  have hall := hin.payloads_eq_wrote hlaw
  constructor
  · intro hsound
    refine ⟨fun heof => ?_, fun hended => ?_⟩
    · rw [← hall heof]
      exact hsound.eof_known heof
    · rw [← hall (hin.ended_eof hended)]
      exact hsound.ended hended
  · intro hknown
    refine ⟨hin.prefixed, fun heof => ?_, fun hended => ?_⟩
    · rw [hall heof]
      exact hknown.known heof
    · rw [hall (hin.ended_eof hended)]
      exact hknown.ended hended

/-- What the receiver knows of the end stays right, if no bare FIN comes before its
data. -/
theorem Evolves.endKnown {ok : Packet → Prop}
    (hevolves : Evolves sent isn packets ok h.conn.receiver h.popped r' popped')
    (hok : ∀ p, ok p → p.EndArrived h) (hin : Inbound sent isn h.conn.receiver h.popped)
    (hlaw : TCPSender.Segmented wrote sent s) (hknown : EndKnown h.conn.receiver wrote) :
    EndKnown r' wrote := by
  have hin' := hevolves.inbound hin
  cases hevolves with
  | same => exact hknown
  | failed => exact ⟨hknown.known, hknown.ended⟩
  | read len => exact ⟨hknown.known, hknown.ended⟩
  | takes p hp hpok hrst r' data index eof htakes =>
      have hsound := (endSound_iff_endKnown hin hlaw).mpr hknown
      have harrived : StreamReassembler.Call.EndArrived h.conn.receiver.reassembler
          (.push index data.length eof) := by
        intro hzero heof
        obtain ⟨hset, hfin, rfl, rfl⟩ := htakes.fin heof
        exact hok p hpok hrst hset hzero hfin
      rw [← endSound_iff_endKnown hin' hlaw, htakes.capacity_eq, htakes.reassembler_eq]
      exact hsound.push htakes.size_lt htakes.pushable harrived

/-- Nothing is written behind the FIN, so what is known of the end stays right while the
peer goes on. -/
theorem EndKnown.of_sent (hknown : EndKnown r wrote) (hin : Inbound sent isn r popped)
    (hlaw : TCPSender.Segmented wrote sent s)
    (hlaw' : TCPSender.Segmented wrote' (sent ++ more) s') : EndKnown r wrote' := by
  have hsame : r.reassembler.eof = true → wrote' = wrote := by
    intro heof
    have hfin := hin.eof_fin heof
    have hnil := hlaw'.eq_nil_of_fin hfin
    rw [hnil, List.append_nil] at hlaw'
    rw [← hlaw.payloads_eq_wrote hfin, hlaw'.payloads_eq_wrote hfin]
  refine ⟨fun heof => ?_, fun hended => ?_⟩
  · rw [hsame heof]
    exact hknown.known heof
  · rw [hsame (hin.ended_eof hended)]
    exact hknown.ended hended

/-- Two hosts that accept only what the other one has given and end their inbound streams
where the other one does. -/
structure Ended (h k : Host) : Prop where
  acked : Acked h k
  here : EndKnown h.conn.receiver k.wrote
  there : EndKnown k.conn.receiver h.wrote

theorem Ended.symm (hended : Ended h k) : Ended k h :=
  ⟨hended.acked.symm, hended.there, hended.here⟩

theorem Ended.step (hended : Ended h k) {e : Event} (hok : e.EndOk h k) :
    Ended (h.step k.packets e) k := by
  have hacked := hended.acked.step hok.1
  obtain ⟨sent, sent', hlink⟩ := hended.acked.linked
  obtain ⟨⟨⟨hallowed, hbounded, hseqno⟩, -⟩, harrived⟩ := hok
  obtain ⟨o, more, hstepped⟩ := hlink.step (fun p hp => hp.1) hallowed hbounded
    (hseqno.and harrived)
  refine ⟨hacked, ?_, ?_⟩
  · rw [hstepped.becomes.receiver_eq]
    exact hstepped.evolves.endKnown (fun p hp => hp.2) hlink.inbound
      hlink.there.sending.segmented hended.here
  · exact hended.there.of_sent hlink.outbound hlink.here.sending.segmented
      hstepped.link.here.sending.segmented

/-- The end of the stream is seen only behind the last byte. -/
theorem Link.endOfStreamSound (hlink : Link sent sent' h k)
    (hknown : EndKnown k.conn.receiver h.wrote) : EndOfStreamSound h k := by
  intro hended
  have hfin := hlink.outbound.eof_fin (hlink.outbound.ended_eof hended)
  have hlaw := hlink.here.sending.segmented
  refine ⟨(hlaw.fin_ended (hlaw.fin_iff.mpr hfin)).1, ?_⟩
  rw [← hknown.ended hended]
  exact hlink.outbound.headIndex_eq.symm

/-- What is acknowledged has been received. -/
theorem Link.acknowledgedReceived (hlink : Link sent sent' h k)
    (hle : h.conn.sender.absoluteAckno ≤ k.conn.receiver.absoluteAckno)
    (hsound : EndOfStreamSound h k) : AcknowledgedReceived h k := by
  intro i hi hacked
  have hcount : k.conn.receiver.absoluteAckno = k.conn.receiver.setIsn.toNat +
    k.conn.inboundStream.bytesWritten + k.conn.inboundStream.inputEnded.toNat := rfl
  have hset := k.conn.receiver.setIsn.toNat_le
  have hwritten : i < k.received.length := by
    rw [hlink.length_received]
    cases hended : k.conn.inboundStream.inputEnded with
    | true =>
        rw [(hsound hended).2]
        exact hi
    | false =>
        rw [hended] at hcount
        simp only [Bool.toNat_false] at hcount
        omega
  obtain ⟨rest, hrest⟩ := hlink.received_isPrefix_wrote
  rw [← hrest, List.getElem?_append_left hwritten]

/-- In every run in which no bare FIN is delivered before the byte in front of it, on
either side: if the inbound stream of the peer `b` has ended, the application of `a` has
ended its stream and `b` has received as many bytes as it wrote; and every byte below
the ackno that `a` has accepted has been received by `b`. -/
theorem end_of_stream_sound (cfgA cfgB : TCPConfig) (randomA randomB : UInt32)
    (events : List (Side × Event)) (hA : cfgA.recvCapacity < 2 ^ 63)
    (hB : cfgB.recvCapacity < 2 ^ 63)
    (hrun : Admissible Network.step (Network.Allows Event.EndOk)
      (Network.new cfgA cfgB randomA randomB) events) :
    let n := run Network.step (Network.new cfgA cfgB randomA randomB) events
    ∀ side, EndOfStreamSound (n.host side) (n.peer side) ∧
      AcknowledgedReceived (n.host side) (n.peer side) := by
  intro n side
  have hside : Ended (n.host side) (n.peer side) := Network.invariant_side (fun _ _ h => h.symm)
    (fun _ _ _ h hok => h.step hok)
    ⟨acked_new cfgA cfgB randomA randomB hA hB, endKnown_new cfgA.recvCapacity,
      endKnown_new cfgB.recvCapacity⟩ hrun side
  obtain ⟨⟨⟨sent, sent', hlink⟩, hle, -⟩, -, hknown⟩ := hside
  have hsound := hlink.endOfStreamSound hknown
  exact ⟨hsound, hlink.acknowledgedReceived hle hsound⟩

/-- The second of two bytes overtakes the first, and the bare FIN follows it: the end is
seen when the first byte arrives. -/
theorem end_of_stream_sound_waiting :
    let cfg : TCPConfig := { recvCapacity := 8, sendCapacity := 8, fixedIsn := some ⟨7⟩ }
    let events : List (Side × Event) :=
      [(.a, .connect), (.b, .deliver 0), (.a, .deliver 0), (.a, .write [104]),
        (.a, .write [105]), (.a, .endInputStream), (.b, .deliver 3), (.b, .deliver 4),
        (.b, .deliver 2), (.a, .deliver 3)]
    let n := run Network.step (Network.new cfg cfg 0 0) events
    Admissible Network.step (Network.Allows Event.EndOk) (Network.new cfg cfg 0 0)
        events ∧
      n.b.conn.inboundStream.inputEnded = true ∧
      EndOfStreamSound n.a n.b ∧ AcknowledgedReceived n.a n.b := by
  intro cfg events n
  have hrun : Admissible Network.step (Network.Allows Event.EndOk)
      (Network.new cfg cfg 0 0) events := by decide +kernel
  have hended : n.b.conn.inboundStream.inputEnded = true := by decide +kernel
  have hn : run Network.step (Network.new cfg cfg 0 0) events = n := rfl
  have hall := end_of_stream_sound cfg cfg 0 0 events (by decide) (by decide) hrun
  rw [hn] at hall
  clear_value n
  exact ⟨hrun, hended, hall .a⟩

/-- A bare FIN overtakes the only byte: the inbound stream of `b` ends with no byte
received, and `a` gets the byte acknowledged together with the FIN. -/
theorem end_of_stream_sound_fails :
    (¬ ∀ (cfgA cfgB : TCPConfig) (randomA randomB : UInt32) (events : List (Side × Event)),
      cfgA.recvCapacity < 2 ^ 63 → cfgB.recvCapacity < 2 ^ 63 →
      Admissible Network.step (Network.Allows Event.Ok)
        (Network.new cfgA cfgB randomA randomB) events →
      EndOfStreamSound (run Network.step (Network.new cfgA cfgB randomA randomB) events).a
        (run Network.step (Network.new cfgA cfgB randomA randomB) events).b) ∧
    ¬ ∀ (cfgA cfgB : TCPConfig) (randomA randomB : UInt32) (events : List (Side × Event)),
      cfgA.recvCapacity < 2 ^ 63 → cfgB.recvCapacity < 2 ^ 63 →
      Admissible Network.step (Network.Allows Event.Ok)
        (Network.new cfgA cfgB randomA randomB) events →
      AcknowledgedReceived (run Network.step (Network.new cfgA cfgB randomA randomB) events).a
        (run Network.step (Network.new cfgA cfgB randomA randomB) events).b := by
  let cfg : TCPConfig := { recvCapacity := 8, sendCapacity := 8, fixedIsn := some ⟨7⟩ }
  let events : List (Side × Event) :=
    [(.a, .connect), (.b, .deliver 0), (.a, .deliver 0), (.a, .write [120]),
      (.a, .endInputStream), (.b, .deliver 3), (.a, .deliver 1)]
  have hrun : Admissible Network.step (Network.Allows Event.Ok)
      (Network.new cfg cfg 0 0) events := by decide +kernel
  constructor
  · intro h
    exact absurd (h cfg cfg 0 0 events (by decide) (by decide) hrun) (by decide +kernel)
  · intro h
    exact absurd (h cfg cfg 0 0 events (by decide) (by decide) hrun) (by decide +kernel)

end Sponge
