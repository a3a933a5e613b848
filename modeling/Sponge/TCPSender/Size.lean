import Sponge.TCPConnection.Model
import Sponge.TCPOverIPv4.Tuntap
import Sponge.TCPSender.Cache

/-!
# The segments of a sender

Every segment that a connection emits has a header without options and at most
`MAX_PAYLOAD_SIZE` bytes of payload, so it fits into a datagram.  Those of the sender are never
resets.

Main results:

- Theorem {lit}`TCPSender.Modest.fillWindow`: the segments that `fill_window` creates.
- Theorem {lit}`TCPSender.Modest.reply`: the segments that answer one that was received.
-/

namespace Sponge

open Library

/-- A segment as a connection emits it. -/
structure TCPSegment.Plain (seg : TCPSegment) : Prop where
  doff_eq : seg.header.doff = 5
  payload_le : seg.payload.length ≤ TCPConfig.maxPayloadSize

/-- A segment as a sender creates it. -/
structure TCPSegment.Fresh (seg : TCPSegment) : Prop extends seg.Plain where
  rst_eq : seg.header.rst = false

/-- A plain segment fits a datagram. -/
theorem TCPSegment.Plain.sized {seg : TCPSegment} (h : seg.Plain) : seg.Sized := by
  have hdoff : seg.header.doff.toNat = 5 := by
    rw [h.doff_eq]
    rfl
  have hpayload := h.payload_le
  unfold TCPConfig.maxPayloadSize at hpayload
  exact ⟨by omega, by omega, by omega⟩

namespace TCPSender

/-- The segments that the sender keeps and those in its queue are its own. -/
structure Modest (s : TCPSender) : Prop where
  cache : ∀ seg ∈ s.tcpSegCache.map Prod.snd, seg.Fresh
  queue : ∀ seg ∈ s.segmentsOut, seg.Fresh

variable {s : TCPSender}

/-- A fresh sender has sent nothing. -/
theorem modest_new (capacity : Nat) (retxTimeout : UInt16) (fixedIsn : Option WrappingInt32)
    (random : UInt32) : (new capacity retxTimeout fixedIsn random).Modest :=
  ⟨fun _ h => absurd h List.not_mem_nil, fun _ h => absurd h List.not_mem_nil⟩

/-- The stream does not matter. -/
theorem Modest.withStream (h : s.Modest) (stream : ByteStream) :
    { s with stream := stream }.Modest :=
  ⟨h.cache, h.queue⟩

/-- The queue is exchanged. -/
theorem Modest.withQueue (h : s.Modest) {queue : List TCPSegment}
    (hqueue : ∀ seg ∈ queue, seg.Fresh) : { s with segmentsOut := queue }.Modest :=
  ⟨h.cache, hqueue⟩

/-- What `fill_window` makes is fresh. -/
theorem fresh_of_mem_newSegments {seg : TCPSegment} (hseg : seg ∈ s.newSegments) : seg.Fresh := by
  have hnone : ∀ x ∈ ([] : List TCPSegment), x.Fresh := fun _ h => absurd h List.not_mem_nil
  refine s.admissible_newSegments.history (I := fun done _ => ∀ x ∈ done, x.Fresh) ?_ hnone seg hseg
  intro done s' x hdone hsend seg hseg
  rcases List.mem_append.mp hseg with hold | hnew
  · exact hdone seg hold
  · rw [List.mem_singleton.mp hnew]
    refine ⟨⟨?_, hsend.payload_le⟩, ?_⟩
    · rw [hsend.header_eq]
    · rw [hsend.header_eq]

/-- `fill_window()` sends plain segments. -/
theorem Modest.fillWindow (h : s.Modest) : s.fillWindow.Modest := by
  have hemitted := s.fillWindow_emitted
  refine ⟨?_, ?_⟩
  · intro seg hseg
    rw [hemitted.cache_eq] at hseg
    exact (List.mem_append.mp hseg).elim (h.cache seg) fresh_of_mem_newSegments
  · intro seg hseg
    rw [hemitted.segmentsOut_eq] at hseg
    exact (List.mem_append.mp hseg).elim (h.queue seg) fresh_of_mem_newSegments

/-- `send_empty_segment()` sends a plain segment. -/
theorem Modest.sendEmptySegment (h : s.Modest) : s.sendEmptySegment.Modest := by
  refine h.withQueue ?_
  intro seg hseg
  rcases List.mem_append.mp hseg with hseg | hseg
  · exact h.queue seg hseg
  · rw [List.mem_singleton.mp hseg]
    exact ⟨⟨rfl, Nat.zero_le _⟩, rfl⟩

/-- Acknowledged segments go. -/
theorem Modest.removeAckedSeg (h : s.Modest) : s.removeAckedSeg.Modest := by
  refine ⟨?_, h.queue⟩
  intro seg hseg
  obtain ⟨item, hitem, rfl⟩ := List.mem_map.mp hseg
  exact h.cache item.2 (List.mem_map_of_mem ((List.dropWhile_sublist _).subset hitem))

/-- `ack_received` sends what fits. -/
theorem Modest.ackReceived (h : s.Modest) (ackno : WrappingInt32) (windowSize : UInt16) :
    (s.ackReceived ackno windowSize).Modest := by
  unfold TCPSender.ackReceived
  split
  · simp only
    split
    · exact ⟨h.cache, h.queue⟩
    · have hremoved : ({ s.updateWindow ackno windowSize with
          retransmissionTimeout := s.initialRetransmissionTimeout
          retransmissionCount := 0
          latestAckno := ackno }.removeAckedSeg).Modest := Modest.removeAckedSeg ⟨h.cache, h.queue⟩
      refine ⟨?_, hremoved.queue⟩
      rw [map_snd_restartTimer]
      exact hremoved.cache
  · exact h

/-- `tick` sends what was sent before. -/
theorem Modest.tick (h : s.Modest) (ms : UInt64) : (s.tick ms).Modest := by
  have hremoved : ({ s with nowTimeMs := s.nowTimeMs + ms }.removeAckedSeg).Modest :=
    Modest.removeAckedSeg ⟨h.cache, h.queue⟩
  obtain ⟨segs, hticked, hcache, holdest⟩ :=
    retransmit_ticked { s with nowTimeMs := s.nowTimeMs + ms }.removeAckedSeg
  refine ⟨?_, ?_⟩
  · change ∀ seg ∈ (TCPSender.retransmit _).tcpSegCache.map Prod.snd, seg.Fresh
    rw [hcache]
    exact hremoved.cache
  · intro seg hseg
    change seg ∈ (TCPSender.retransmit _).segmentsOut at hseg
    rw [hticked.segmentsOut_eq] at hseg
    rcases List.mem_append.mp hseg with hseg | hseg
    · exact hremoved.queue seg hseg
    · exact hremoved.cache seg (List.mem_of_mem_head? (holdest seg hseg))

/-- The ackno of a segment is accepted. -/
theorem Modest.acked (h : s.Modest) (seg : TCPSegment) : (TCPConnection.acked s seg).Modest := by
  unfold TCPConnection.acked
  split
  · exact h.ackReceived _ _
  · exact h

/-- The reply to a segment is plain. -/
theorem Modest.reply (h : s.Modest) (r : TCPReceiver) (seg : TCPSegment) :
    (TCPConnection.reply r s seg).Modest := by
  unfold TCPConnection.reply
  split
  · simp only
    split
    · exact h.fillWindow.sendEmptySegment
    · exact h.fillWindow
  · exact h

end TCPSender

/-- A RST is plain. -/
theorem TCPConnection.plain_rstSegment (s : TCPSender) : (rstSegment s).Plain :=
  ⟨rfl, Nat.zero_le _⟩

/-- The stamp changes neither the payload nor the length of the header. -/
theorem TCPSegment.Plain.stamp {seg : TCPSegment} (h : seg.Plain) (r : TCPReceiver) :
    (TCPConnection.stamp r seg).Plain :=
  ⟨h.doff_eq, h.payload_le⟩

end Sponge
