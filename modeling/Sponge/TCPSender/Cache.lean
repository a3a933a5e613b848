import Sponge.TCPSender.Emission

/-!
# Nothing unacknowledged is forgotten

The segments a sender has created tile the sequence space from 0 up to `_next_seqno`,
and `_tcp_seg_cache` holds those of them that end beyond the ackno accepted last.
Acknowledgements and the clock only ever remove what lies below that ackno, since every
comparison of 32-bit numbers they make is between positions less than `2 ^ 31` apart.

Main results:

- Theorem {lit}`Cached.fillWindow`: `fill_window` adds new tiles.
- Theorem {lit}`Cached.ackReceived`: an acknowledgement moves the accepted ackno up, or
  not at all.
- Theorem {lit}`Cached.tick`: the clock only sends the oldest unacknowledged segment
  again.
-/

namespace Sponge

open Library

namespace TCPSender

/-- The segments created so far tile the sequence space up to `_next_seqno`. -/
structure Tiled (sent : List TCPSegment) (s : TCPSender) : Prop where
  extent_eq : extent TCPSegment.lengthInSequenceSpace sent = s.nextSeqno
  seqno_eq : ∀ p ∈ place TCPSegment.lengthInSequenceSpace 0 sent,
    p.2.header.seqno = wrap p.1 s.isn
  length_pos : ∀ seg ∈ sent, 0 < seg.lengthInSequenceSpace

/-- The cache holds the tiles that end beyond `ack`, the position accepted last. -/
structure Cached (sent : List TCPSegment) (ack : Nat) (s : TCPSender) : Prop
    extends Tiled sent s where
  latestAckno_eq : s.latestAckno = wrap ack s.isn
  ack_le : ack ≤ s.nextSeqno
  inFlight_lt : s.nextSeqno < ack + 2 ^ 31
  nextSeqno_lt : s.nextSeqno < 2 ^ 64
  windowSize_lt : s.windowSize < 2 ^ 16
  cache_eq : s.tcpSegCache.map Prod.snd =
    (unfinished TCPSegment.lengthInSequenceSpace 0 ack sent).map Prod.snd

/-- A fresh sender has sent nothing. -/
theorem tiled_new (capacity : Nat) (retxTimeout : UInt16) (fixedIsn : Option WrappingInt32)
    (random : UInt32) : Tiled [] (new capacity retxTimeout fixedIsn random) where
  extent_eq := rfl
  seqno_eq := by simp
  length_pos := by simp

/-- A fresh sender keeps nothing. -/
theorem cached_new (capacity : Nat) (retxTimeout : UInt16) (fixedIsn : Option WrappingInt32)
    (random : UInt32) : Cached [] 0 (new capacity retxTimeout fixedIsn random) where
  toTiled := tiled_new capacity retxTimeout fixedIsn random
  latestAckno_eq := by simp [new]
  ack_le := le_rfl
  inFlight_lt := by simp [new]
  nextSeqno_lt := by simp [new]
  windowSize_lt := by simp [new]
  cache_eq := rfl

variable {sent segs : List TCPSegment} {ack : Nat} {s : TCPSender}

/-- The cache depends neither on the stream nor on the queue. -/
theorem Cached.withStream (h : Cached sent ack s) (stream : ByteStream)
    (queue : List TCPSegment) :
    Cached sent ack { s with stream := stream, segmentsOut := queue } :=
  ⟨⟨h.extent_eq, h.seqno_eq, h.length_pos⟩, h.latestAckno_eq, h.ack_le, h.inFlight_lt,
    h.nextSeqno_lt, h.windowSize_lt, h.cache_eq⟩

/-! ## Positions -/

/-- The accepted ackno is recovered from its 32 bits. -/
theorem Cached.absoluteAckno_eq (h : Cached sent ack s) : s.absoluteAckno = ack := by
  have hle := h.ack_le
  have hlt := h.nextSeqno_lt
  have hflight := h.inFlight_lt
  rw [absoluteAckno, h.latestAckno_eq, unwrap_wrap s.isn (by omega) hlt (by omega) (by omega)]

/-- In flight is what was sent and not acknowledged. -/
theorem Cached.bytesInFlight_eq (h : Cached sent ack s) :
    s.bytesInFlight = s.nextSeqno - ack := by
  rw [bytesInFlight, h.absoluteAckno_eq, wordSub_eq_sub h.ack_le h.nextSeqno_lt]

/-- The count of `bytes_in_flight()` is right as long as the true one is below `2 ^ 32`. -/
theorem lt_of_bytesInFlight_lt (hlatest : s.latestAckno = wrap ack s.isn)
    (hle : ack ≤ s.nextSeqno) (hnear : s.nextSeqno < ack + 2 ^ 32)
    (hnext : s.nextSeqno < 2 ^ 64) (hflight : s.bytesInFlight < 2 ^ 31) :
    s.nextSeqno < ack + 2 ^ 31 := by
  have hlt := unwrap_lt s.latestAckno s.isn hnext
  have hwrap := wrap_unwrap s.latestAckno s.isn hnext
  have hclose := distance_unwrap_le hnext (show ack < 2 ^ 64 by omega) hlatest.symm
  rw [hlatest, wrap_eq_wrap_iff, ← hlatest] at hwrap
  rw [distance_eq, distance_eq] at hclose
  unfold bytesInFlight absoluteAckno wordSub at hflight
  omega

/-- A tile that ends beyond the accepted ackno has its right end recovered too. -/
theorem Cached.absoluteRightEnd_eq (h : Cached sent ack s) {p : Nat × TCPSegment}
    (hp : p ∈ unfinished TCPSegment.lengthInSequenceSpace 0 ack sent) :
    s.absoluteRightEnd p.2 = p.1 + p.2.lengthInSequenceSpace := by
  obtain ⟨hplace, hend⟩ := mem_unfinished.mp hp
  have hbounds := (bounds_of_mem_place hplace).2
  have hlt := h.nextSeqno_lt
  have hflight := h.inFlight_lt
  rw [h.extent_eq, Nat.zero_add] at hbounds
  rw [absoluteRightEnd, h.seqno_eq p hplace, add_wrap,
    unwrap_wrap s.isn (by omega) hlt (by omega) (by omega)]

/-! ## New segments -/

/-- An emission adds a tile. -/
theorem Tiled.emit {seg : TCPSegment} (h : Tiled sent s) (hsend : Sendable s seg) :
    Tiled (sent ++ [seg]) (s.emit seg) where
  extent_eq := by
    rw [extent_append, h.extent_eq, extent_cons, extent_nil, Nat.add_zero]
    rfl
  seqno_eq := by
    intro p hp
    rw [place_append, List.mem_append, Nat.zero_add, h.extent_eq] at hp
    rcases hp with hold | hnew
    · exact h.seqno_eq p hold
    · rw [place_cons, place_nil, List.mem_singleton] at hnew
      rw [hnew, hsend.header_eq]
      rfl
  length_pos := by
    intro x hx
    rcases List.mem_append.mp hx with hold | hnew
    · exact h.length_pos x hold
    · rw [List.mem_singleton.mp hnew]
      exact hsend.length_pos

/-- `fill_window()` sends the next positions. -/
theorem Tiled.fillWindow (h : Tiled sent s) : Tiled (sent ++ s.newSegments) s.fillWindow := by
  rw [fillWindow_eq_run]
  exact s.admissible_newSegments.history (fun _ _ _ hdone hsend => hdone.emit hsend) h

/-- New segments join the cache, provided that the count of bytes in flight stays
unambiguous. -/
theorem Cached.fillWindow (h : Cached sent ack s)
    (hflight : s.fillWindow.bytesInFlight < 2 ^ 31)
    (hnext : s.fillWindow.nextSeqno < 2 ^ 64) :
    Cached (sent ++ s.newSegments) ack s.fillWindow := by
  have htiled := h.toTiled.fillWindow
  have hemit := s.fillWindow_emitted
  have hmono := hemit.nextSeqno_eq
  have hjump := hemit.nextSeqno_le
  have hle := h.ack_le
  have hlt := h.inFlight_lt
  have hwindow := h.windowSize_lt
  have hlatest : s.fillWindow.latestAckno = wrap ack s.fillWindow.isn := by
    rw [hemit.latestAckno_eq, hemit.isn_eq, h.latestAckno_eq]
  refine ⟨htiled, hlatest, by omega, ?_, hnext, by rw [hemit.windowSize_eq]; exact hwindow, ?_⟩
  · exact lt_of_bytesInFlight_lt hlatest (by omega) (by omega) hnext hflight
  · have hpos : ∀ seg ∈ s.newSegments, 0 < seg.lengthInSequenceSpace := fun seg hseg =>
      htiled.length_pos seg (List.mem_append_right _ hseg)
    rw [hemit.cache_eq, h.cache_eq,
      unfinished_append hpos (by rw [Nat.zero_add, h.extent_eq]; exact hle), List.map_append,
      map_snd_place]

/-! ## Acknowledgements -/

/-- An ackno is accepted when it lies between the accepted one and `_next_seqno`. -/
theorem Cached.accepts_iff (h : Cached sent ack s) (ackno : WrappingInt32) :
    s.accepts ackno = true ↔
      ack ≤ unwrap ackno s.isn s.nextSeqno ∧ unwrap ackno s.isn s.nextSeqno ≤ s.nextSeqno := by
  have hack := h.absoluteAckno_eq
  rw [absoluteAckno] at hack
  simp only [accepts, compare, hack, Bool.not_eq_true', Bool.or_eq_false_iff,
    decide_eq_false_iff_not]
  omega

/-- The position accepted last, after `ack_received`. -/
def ackAfter (s : TCPSender) (ackno : WrappingInt32) (ack : Nat) : Nat :=
  if s.accepts ackno then unwrap ackno s.isn s.nextSeqno else ack

/-- `remove_acked_seg` keeps the tiles that end beyond the latest ackno. -/
theorem Cached.map_snd_removeAckedSeg (h : Cached sent ack s) {s' : TCPSender} {ack' : Nat}
    (hcache : s'.tcpSegCache = s.tcpSegCache) (hisn : s'.isn = s.isn)
    (hnext : s'.nextSeqno = s.nextSeqno) (hack : s'.absoluteAckno = ack') (hle : ack ≤ ack') :
    s'.removeAckedSeg.tcpSegCache.map Prod.snd =
      (unfinished TCPSegment.lengthInSequenceSpace 0 ack' sent).map Prod.snd := by
  have hright : ∀ seg, s'.absoluteRightEnd seg = s.absoluteRightEnd seg := by
    intro seg
    rw [absoluteRightEnd, absoluteRightEnd, hisn, hnext]
  simp only [removeAckedSeg, hcache, hack, hright]
  have hseg : (s.tcpSegCache.dropWhile
        fun item => decide (ack' ≥ s.absoluteRightEnd item.2)).map Prod.snd =
      (s.tcpSegCache.map Prod.snd).dropWhile
        fun seg => decide (ack' ≥ s.absoluteRightEnd seg) := by
    rw [List.dropWhile_map]
    rfl
  rw [hseg, h.cache_eq, List.dropWhile_map]
  congr 1
  apply dropWhile_unfinished hle
  intro p hp
  rw [Function.comp_apply, h.absoluteRightEnd_eq hp, decide_eq_true_eq]

/-- Restarting the timer keeps the segments. -/
@[simp]
theorem map_snd_restartTimer (s : TCPSender) :
    s.restartTimer.tcpSegCache.map Prod.snd = s.tcpSegCache.map Prod.snd := by
  cases hcache : s.tcpSegCache with
  | nil => simp [restartTimer, hcache]
  | cons item rest => simp [restartTimer, hcache]

/-- An acknowledgement moves the accepted ackno up, or not at all, and drops the
segments it covers. -/
theorem Cached.ackReceived (h : Cached sent ack s) (ackno : WrappingInt32)
    (windowSize : UInt16) :
    Cached sent (s.ackAfter ackno ack) (s.ackReceived ackno windowSize) := by
  unfold TCPSender.ackReceived ackAfter
  split
  · rename_i haccept
    obtain ⟨hlow, hhigh⟩ := (h.accepts_iff ackno).mp haccept
    have hwrap := wrap_unwrap ackno s.isn h.nextSeqno_lt
    have hflight := h.inFlight_lt
    have hwindow : windowSize.toNat < 2 ^ 16 := windowSize.toNat_lt
    simp only
    split
    · rename_i hsame
      change ackno = s.latestAckno at hsame
      -- Both positions lie in the half space below `_next_seqno`, so they are equal.
      have hack : unwrap ackno s.isn s.nextSeqno = ack := by
        rw [hsame, h.latestAckno_eq, wrap_eq_wrap_iff, ← h.latestAckno_eq, ← hsame] at hwrap
        omega
      rw [hack]
      exact ⟨⟨h.extent_eq, h.seqno_eq, h.length_pos⟩, h.latestAckno_eq, h.ack_le, hflight,
        h.nextSeqno_lt, hwindow, h.cache_eq⟩
    · refine ⟨⟨h.extent_eq, h.seqno_eq, h.length_pos⟩, hwrap.symm, hhigh, ?_,
        h.nextSeqno_lt, hwindow, ?_⟩
      · change s.nextSeqno < unwrap ackno s.isn s.nextSeqno + 2 ^ 31
        omega
      · rw [map_snd_restartTimer]
        exact h.map_snd_removeAckedSeg rfl rfl rfl rfl hlow
  · exact h

/-! ## The clock -/

/-- The clock removes nothing: what is cached is not acknowledged. -/
theorem Cached.clock (h : Cached sent ack s) (ms : UInt64) :
    Cached sent ack { s with nowTimeMs := s.nowTimeMs + ms }.removeAckedSeg where
  extent_eq := h.extent_eq
  seqno_eq := h.seqno_eq
  length_pos := h.length_pos
  latestAckno_eq := h.latestAckno_eq
  ack_le := h.ack_le
  inFlight_lt := h.inFlight_lt
  nextSeqno_lt := h.nextSeqno_lt
  windowSize_lt := h.windowSize_lt
  cache_eq := h.map_snd_removeAckedSeg rfl rfl rfl h.absoluteAckno_eq le_rfl

/-- The stream and what has been sent of it stay as they are. -/
structure Quiet (s s' : TCPSender) : Prop where
  isn_eq : s'.isn = s.isn
  stream_eq : s'.stream = s.stream
  nextSeqno_eq : s'.nextSeqno = s.nextSeqno
  syned_eq : s'.syned = s.syned
  fin_eq : s'.fin = s.fin

/-- A call that sends nothing keeps the positions. -/
theorem Tiled.quiet {s' : TCPSender} (h : Tiled sent s) (hquiet : Quiet s s') :
    Tiled sent s' where
  extent_eq := by rw [h.extent_eq, hquiet.nextSeqno_eq]
  seqno_eq := by
    intro p hp
    rw [h.seqno_eq p hp, hquiet.isn_eq]
  length_pos := h.length_pos

/-- `ack_received` sends nothing by itself. -/
theorem quiet_ackReceived (s : TCPSender) (ackno : WrappingInt32) (windowSize : UInt16) :
    Quiet s (s.ackReceived ackno windowSize) := by
  unfold TCPSender.ackReceived
  split
  · simp only
    split
    · exact ⟨rfl, rfl, rfl, rfl, rfl⟩
    · exact ⟨rfl, rfl, rfl, rfl, rfl⟩
  · exact ⟨rfl, rfl, rfl, rfl, rfl⟩

/-- A step of the clock sends `segs` again and changes nothing but the timers. -/
structure Ticked (s : TCPSender) (segs : List TCPSegment) (s' : TCPSender) : Prop
    extends Quiet s s' where
  segmentsOut_eq : s'.segmentsOut = s.segmentsOut ++ segs
  windowSize_eq : s'.windowSize = s.windowSize
  windowUsedSize_eq : s'.windowUsedSize = s.windowUsedSize
  latestAckno_eq : s'.latestAckno = s.latestAckno

/-- At most the oldest segment in the cache is sent again. -/
theorem retransmit_ticked (s : TCPSender) :
    ∃ segs, Ticked s segs s.retransmit ∧
      s.retransmit.tcpSegCache.map Prod.snd = s.tcpSegCache.map Prod.snd ∧
      ∀ seg ∈ segs, (s.tcpSegCache.map Prod.snd).head? = some seg := by
  cases hcache : s.tcpSegCache with
  | nil =>
      simp only [retransmit, hcache]
      exact ⟨[], ⟨⟨rfl, rfl, rfl, rfl, rfl⟩, by simp, rfl, rfl, rfl⟩, by simp, by simp⟩
  | cons item rest =>
      simp only [retransmit, hcache]
      split
      · refine ⟨[item.2], ?_⟩
        unfold backOff
        split
        · exact ⟨⟨⟨rfl, rfl, rfl, rfl, rfl⟩, rfl, rfl, rfl, rfl⟩, by simp, by simp⟩
        · exact ⟨⟨⟨rfl, rfl, rfl, rfl, rfl⟩, rfl, rfl, rfl, rfl⟩, by simp, by simp⟩
      · exact ⟨[], ⟨⟨rfl, rfl, rfl, rfl, rfl⟩, by simp, rfl, rfl, rfl⟩, by simp [hcache], by simp⟩

/-- What a `tick` does. -/
theorem tick_ticked (s : TCPSender) (ms : UInt64) : ∃ segs, Ticked s segs (s.tick ms) := by
  obtain ⟨segs, h, -, -⟩ :=
    retransmit_ticked { s with nowTimeMs := s.nowTimeMs + ms }.removeAckedSeg
  exact ⟨segs, ⟨h.isn_eq, h.stream_eq, h.nextSeqno_eq, h.syned_eq, h.fin_eq⟩,
    h.segmentsOut_eq, h.windowSize_eq, h.windowUsedSize_eq, h.latestAckno_eq⟩

/-- A `tick` keeps the segments that are waiting. -/
theorem Cached.ticked {s' : TCPSender} (h : Cached sent ack s) (hticked : Ticked s segs s')
    (hcache : s'.tcpSegCache.map Prod.snd = s.tcpSegCache.map Prod.snd) :
    Cached sent ack s' where
  toTiled := h.toTiled.quiet hticked.toQuiet
  latestAckno_eq := by rw [hticked.latestAckno_eq, hticked.isn_eq, h.latestAckno_eq]
  ack_le := by rw [hticked.nextSeqno_eq]; exact h.ack_le
  inFlight_lt := by rw [hticked.nextSeqno_eq]; exact h.inFlight_lt
  nextSeqno_lt := by rw [hticked.nextSeqno_eq]; exact h.nextSeqno_lt
  windowSize_lt := by rw [hticked.windowSize_eq]; exact h.windowSize_lt
  cache_eq := by rw [hcache, h.cache_eq]

/-- The clock keeps the cache, and what it sends again is the tile that holds the
accepted ackno. -/
theorem Cached.tick (h : Cached sent ack s) (ms : UInt64) :
    Cached sent ack (s.tick ms) ∧ ∃ segs, Ticked s segs (s.tick ms) ∧
      ∀ seg ∈ segs, ∃ n, (n, seg) ∈ unfinished TCPSegment.lengthInSequenceSpace 0 ack sent ∧
        n ≤ ack := by
  have hclock := h.clock ms
  obtain ⟨segs, hticked, hcache, holdest⟩ :=
    retransmit_ticked { s with nowTimeMs := s.nowTimeMs + ms }.removeAckedSeg
  refine ⟨hclock.ticked hticked hcache, segs, ?_, ?_⟩
  · exact ⟨⟨hticked.isn_eq, hticked.stream_eq, hticked.nextSeqno_eq, hticked.syned_eq,
      hticked.fin_eq⟩, hticked.segmentsOut_eq, hticked.windowSize_eq,
      hticked.windowUsedSize_eq, hticked.latestAckno_eq⟩
  · intro seg hseg
    have hhead := holdest seg hseg
    rw [hclock.cache_eq] at hhead
    cases htiles : unfinished TCPSegment.lengthInSequenceSpace 0 ack sent with
    | nil =>
        rw [htiles] at hhead
        cases hhead
    | cons p rest =>
        rw [htiles, List.map_cons, List.head?_cons, Option.some.injEq] at hhead
        refine ⟨p.1, ?_, head_unfinished_le htiles (Nat.zero_le _)⟩
        rw [← hhead]
        exact List.mem_cons_self

end TCPSender
end Sponge
