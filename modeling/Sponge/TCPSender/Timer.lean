import Sponge.TCPSender.Cache

/-!
# One retransmission timer

The source keeps a send time with every cached segment and looks only at the first.  The
protocol speaks of a single timer instead: it is started when a segment is sent while none
is outstanding, and again when new data is acknowledged and when it expires.  `Timer` keeps
that time and the number of retransmissions since the last new acknowledgement, from what
can be observed of a sender, and `Timed` relates it to the send times and to the timeout
that the source keeps.

Main results:

- Theorem {lit}`Timed.fillWindow`, {lit}`Timed.ackReceived`, {lit}`Timed.tick`: the calls of
  the source drive the timer.
- Theorem {lit}`Timed.tick_segmentsOut`: the clock sends the oldest outstanding segment again
  exactly when the timer has expired.
-/

namespace Sponge

open Library

namespace TCPSender

/-- The single timer and what it depends on: the segments created, the highest position
acknowledged, the time at which the timer was last started, and the number of
retransmissions on an open window since the last new acknowledgement. -/
structure Timer where
  created : List TCPSegment
  ack : Nat
  start : UInt64
  count : Nat

namespace Timer

/-- The timer of a sender that has done nothing. -/
def new : Timer where
  created := []
  ack := 0
  start := 0
  count := 0

/-- The segments that are not acknowledged, the oldest first. -/
def outstanding (t : Timer) : List TCPSegment :=
  (unfinished TCPSegment.lengthInSequenceSpace 0 t.ack t.created).map Prod.snd

/-- The timer behind `fill_window` of `s`: it starts when a segment is created while none is
outstanding. -/
def filled (t : Timer) (s : TCPSender) : Timer :=
  { t with
    created := t.created ++ s.newSegments
    start := if t.outstanding = [] ∧ s.newSegments ≠ [] then s.nowTimeMs else t.start }

/-- The timer behind `ack_received` of `s`: an ackno above all earlier ones ends the count, and
starts the timer again if something stays outstanding. -/
def acked (t : Timer) (s : TCPSender) (ackno : WrappingInt32) : Timer :=
  if s.accepts ackno = true ∧ t.ack < unwrap ackno s.isn s.nextSeqno then
    let t := { t with ack := unwrap ackno s.isn s.nextSeqno, count := 0 }
    { t with start := if t.outstanding = [] then t.start else s.nowTimeMs }
  else t

/-- The timer behind `tick` of `s`: a retransmission starts it again, and counts unless the
window is closed. -/
def ticked (t : Timer) (s : TCPSender) (ms : UInt64) : Timer :=
  if (s.tick ms).segmentsOut = s.segmentsOut then t
  else
    { t with
      start := (s.tick ms).nowTimeMs
      count := if s.windowSize = 0 then t.count else t.count + 1 }

/-- The time at which the timer expires, counted from its start. -/
def timeout (t : Timer) (rtTimeout : UInt16) : Nat :=
  rtTimeout.toNat * 2 ^ t.count

/-- Something is outstanding and the timer has expired at the time `now`. -/
def Expired (t : Timer) (rtTimeout : UInt16) (now : UInt64) : Prop :=
  t.outstanding ≠ [] ∧ t.timeout rtTimeout ≤ (now - t.start).toNat

instance (t : Timer) (rtTimeout : UInt16) (now : UInt64) : Decidable (t.Expired rtTimeout now) :=
  inferInstanceAs (Decidable (_ ∧ _))

end Timer

/-- The sender keeps the time of the timer with its oldest segment, and the timeout and the
count of the timer. -/
structure Timed (rtTimeout : UInt16) (t : Timer) (s : TCPSender) : Prop
    extends Cached t.created t.ack s where
  start_eq : ∀ item ∈ s.tcpSegCache.head?, item.1 = t.start
  initial_eq : s.initialRetransmissionTimeout.toNat = rtTimeout.toNat
  timeout_eq : s.retransmissionTimeout.toNat = t.timeout rtTimeout
  count_eq : s.retransmissionCount = t.count

theorem timed_new (capacity : Nat) (retxTimeout : UInt16) (fixedIsn : Option WrappingInt32)
    (random : UInt32) :
    Timed retxTimeout Timer.new (new capacity retxTimeout fixedIsn random) where
  toCached := cached_new capacity retxTimeout fixedIsn random
  start_eq := by simp [new]
  initial_eq := by simp [new]
  timeout_eq := by simp [new, Timer.new, Timer.timeout]
  count_eq := rfl

variable {rtTimeout : UInt16} {t : Timer} {s : TCPSender}

/-- The timer depends neither on the stream nor on the queue. -/
theorem Timed.withStream (h : Timed rtTimeout t s) (stream : ByteStream)
    (queue : List TCPSegment) :
    Timed rtTimeout t { s with stream := stream, segmentsOut := queue } where
  toCached := h.toCached.withStream stream queue
  start_eq := h.start_eq
  initial_eq := h.initial_eq
  timeout_eq := h.timeout_eq
  count_eq := h.count_eq

/-- The cached segments are the outstanding ones. -/
theorem Timed.map_snd_cache (h : Timed rtTimeout t s) :
    s.tcpSegCache.map Prod.snd = t.outstanding :=
  h.cache_eq

theorem Timed.cache_eq_nil_iff (h : Timed rtTimeout t s) :
    s.tcpSegCache = [] ↔ t.outstanding = [] := by
  rw [← h.map_snd_cache, List.map_eq_nil_iff]

/-! ## New segments -/

/-- What a run of emissions does to the timers: every segment gets the time of the call. -/
structure Dated (s : TCPSender) (segs : List TCPSegment) (s' : TCPSender) : Prop where
  nowTimeMs_eq : s'.nowTimeMs = s.nowTimeMs
  cache_eq : s'.tcpSegCache = s.tcpSegCache ++ segs.map (Prod.mk s.nowTimeMs)
  initial_eq : s'.initialRetransmissionTimeout = s.initialRetransmissionTimeout
  timeout_eq : s'.retransmissionTimeout = s.retransmissionTimeout
  count_eq : s'.retransmissionCount = s.retransmissionCount

theorem fillWindow_dated (s : TCPSender) : Dated s s.newSegments s.fillWindow := by
  have hstep : ∀ done s' seg, Dated s done s' → Sendable s' seg →
      Dated s (done ++ [seg]) (s'.emit seg) := by
    intro done s' seg hdone _
    refine ⟨hdone.nowTimeMs_eq, ?_, hdone.initial_eq, hdone.timeout_eq, hdone.count_eq⟩
    rw [List.map_append, ← List.append_assoc, ← hdone.cache_eq, ← hdone.nowTimeMs_eq]
    rfl
  have hstart : Dated s [] s := ⟨rfl, by simp, rfl, rfl, rfl⟩
  have hrun := s.admissible_newSegments.history hstep hstart
  rwa [← fillWindow_eq_run] at hrun

/-- New segments start the timer if they are the only ones. -/
theorem Timed.fillWindow (h : Timed rtTimeout t s)
    (hflight : s.fillWindow.bytesInFlight < 2 ^ 31)
    (hnext : s.fillWindow.nextSeqno < 2 ^ 64) :
    Timed rtTimeout (t.filled s) s.fillWindow := by
  have hdated := s.fillWindow_dated
  refine ⟨h.toCached.fillWindow hflight hnext, ?_, ?_, ?_, ?_⟩
  · intro item hitem
    rw [hdated.cache_eq] at hitem
    cases hcache : s.tcpSegCache with
    | nil =>
        rw [hcache, List.nil_append, List.head?_map, Option.mem_map] at hitem
        obtain ⟨seg, hseg, rfl⟩ := hitem
        have hne : s.newSegments ≠ [] := List.ne_nil_of_mem (List.mem_of_mem_head? hseg)
        exact (if_pos ⟨h.cache_eq_nil_iff.mp hcache, hne⟩).symm
    | cons oldest rest =>
        have hout : t.outstanding ≠ [] := by
          rw [Ne, ← h.cache_eq_nil_iff, hcache]
          exact List.cons_ne_nil _ _
        rw [hcache, List.cons_append, List.head?_cons] at hitem
        have hold := h.start_eq item (by rw [hcache]; exact hitem)
        rw [hold]
        exact (if_neg fun hfirst => hout hfirst.1).symm
  · rw [hdated.initial_eq]
    exact h.initial_eq
  · rw [hdated.timeout_eq]
    exact h.timeout_eq
  · rw [hdated.count_eq]
    exact h.count_eq

/-! ## Acknowledgements -/

/-- The timer follows the position accepted last. -/
theorem Timed.ack_acked (h : Timed rtTimeout t s) (ackno : WrappingInt32) :
    (t.acked s ackno).ack = s.ackAfter ackno t.ack := by
  unfold Timer.acked ackAfter
  by_cases haccept : s.accepts ackno = true
  · have hlow := ((h.accepts_iff ackno).mp haccept).1
    rw [if_pos haccept]
    split
    · rfl
    · rename_i hnot
      have : ¬ t.ack < unwrap ackno s.isn s.nextSeqno := fun hlt => hnot ⟨haccept, hlt⟩
      omega
  · rw [if_neg haccept, if_neg fun hnew => haccept hnew.1]

theorem created_acked (t : Timer) (s : TCPSender) (ackno : WrappingInt32) :
    (t.acked s ackno).created = t.created := by
  unfold Timer.acked
  split
  · rfl
  · rfl

/-- An accepted ackno is new unless it is the latest one. -/
theorem Cached.lt_unwrap_iff {sent : List TCPSegment} {ack : Nat} (h : Cached sent ack s)
    {ackno : WrappingInt32} (haccept : s.accepts ackno = true) :
    ack < unwrap ackno s.isn s.nextSeqno ↔ ackno ≠ s.latestAckno := by
  obtain ⟨hlow, hhigh⟩ := (h.accepts_iff ackno).mp haccept
  constructor
  · rintro hlt rfl
    have hack := h.absoluteAckno_eq
    rw [absoluteAckno] at hack
    omega
  · intro hne
    refine lt_of_le_of_ne hlow fun heq => hne ?_
    rw [h.latestAckno_eq, heq, wrap_unwrap ackno s.isn h.nextSeqno_lt]

/-- An acknowledgement of new data, as the source handles it. -/
theorem ackReceived_new {ackno : WrappingInt32} (haccept : s.accepts ackno = true)
    (hne : ackno ≠ s.latestAckno) (windowSize : UInt16) :
    s.ackReceived ackno windowSize =
      ({ s.updateWindow ackno windowSize with
          retransmissionTimeout := s.initialRetransmissionTimeout
          retransmissionCount := 0
          latestAckno := ackno }.removeAckedSeg).restartTimer := by
  rw [TCPSender.ackReceived, if_pos haccept]
  exact if_neg hne

/-- Every other acknowledgement changes at most the window. -/
theorem ackReceived_old {ackno : WrappingInt32}
    (hold : s.accepts ackno = true → ackno = s.latestAckno) (windowSize : UInt16) :
    ∃ size used, s.ackReceived ackno windowSize =
      { s with windowSize := size, windowUsedSize := used } := by
  unfold TCPSender.ackReceived
  split
  · rename_i haccept
    exact ⟨_, _, if_pos (hold haccept)⟩
  · exact ⟨_, _, rfl⟩

/-- An acknowledgement of new data resets the timer, and every other one leaves it alone. -/
theorem Timed.ackReceived (h : Timed rtTimeout t s) (ackno : WrappingInt32)
    (windowSize : UInt16) :
    Timed rtTimeout (t.acked s ackno) (s.ackReceived ackno windowSize) := by
  have hcached := h.toCached.ackReceived ackno windowSize
  rw [← h.ack_acked, ← created_acked t s ackno] at hcached
  by_cases hnew : s.accepts ackno = true ∧ t.ack < unwrap ackno s.isn s.nextSeqno
  · obtain ⟨haccept, hlt⟩ := hnew
    have heq := ackReceived_new haccept ((h.lt_unwrap_iff haccept).mp hlt) windowSize
    have hacked : t.acked s ackno = { t with
        ack := unwrap ackno s.isn s.nextSeqno
        count := 0
        start := if (t.acked s ackno).outstanding = [] then t.start else s.nowTimeMs } := by
      rw [Timer.acked, if_pos ⟨haccept, hlt⟩]
      rfl
    refine ⟨hcached, ?_, ?_, ?_, ?_⟩
    · intro item hitem
      have hout : (t.acked s ackno).outstanding ≠ [] := by
        change (unfinished _ 0 (t.acked s ackno).ack _).map Prod.snd ≠ []
        rw [← hcached.cache_eq, Ne, List.map_eq_nil_iff]
        exact List.ne_nil_of_mem (List.mem_of_mem_head? hitem)
      rw [hacked]
      rw [heq, restartTimer] at hitem
      simp only [if_neg hout]
      split at hitem
      · cases hitem
      · rw [List.head?_cons, Option.mem_some_iff] at hitem
        rw [← hitem]
        rfl
    · rw [heq]
      exact h.initial_eq
    · rw [heq, hacked]
      change s.initialRetransmissionTimeout.toNat = rtTimeout.toNat * 2 ^ 0
      rw [h.initial_eq, Nat.pow_zero, Nat.mul_one]
    · rw [heq, hacked]
      rfl
  · have hold : s.accepts ackno = true → ackno = s.latestAckno := by
      intro haccept
      by_contra hne
      exact hnew ⟨haccept, (h.lt_unwrap_iff haccept).mpr hne⟩
    obtain ⟨size, used, heq⟩ := ackReceived_old hold windowSize
    rw [Timer.acked, if_neg hnew] at hcached ⊢
    rw [heq] at hcached ⊢
    exact ⟨hcached, h.start_eq, h.initial_eq, h.timeout_eq, h.count_eq⟩

/-! ## The clock -/

/-- The clock finds nothing acknowledged in the cache. -/
theorem Cached.tick_eq {sent : List TCPSegment} {ack : Nat} (h : Cached sent ack s)
    (ms : UInt64) :
    s.tick ms = { s with nowTimeMs := s.nowTimeMs + ms }.retransmit := by
  have hkeep : { s with nowTimeMs := s.nowTimeMs + ms }.removeAckedSeg.tcpSegCache =
      s.tcpSegCache := by
    apply (List.dropWhile_suffix _).eq_of_length
    have hlength := congrArg List.length ((h.clock ms).cache_eq.trans h.cache_eq.symm)
    rwa [List.length_map, List.length_map] at hlength
  have hsame : { s with nowTimeMs := s.nowTimeMs + ms }.removeAckedSeg =
      { s with nowTimeMs := s.nowTimeMs + ms } := by
    conv_rhs => rw [← hkeep]
    rfl
  rw [TCPSender.tick, hsame]

/-- The comparison that the source makes is that of the timer. -/
theorem Timed.due_iff (h : Timed rtTimeout t s) {item : UInt64 × TCPSegment}
    (hitem : s.tcpSegCache.head? = some item) (now : UInt64) :
    now - item.1 ≥ s.retransmissionTimeout.toUInt64 ↔ t.Expired rtTimeout now := by
  have hout : t.outstanding ≠ [] := by
    rw [Ne, ← h.cache_eq_nil_iff]
    rintro hnil
    rw [hnil] at hitem
    cases hitem
  rw [h.start_eq item hitem, ge_iff_le, UInt64.le_iff_toNat_le, UInt32.toNat_toUInt64,
    h.timeout_eq]
  exact ⟨fun hle => ⟨hout, hle⟩, fun hexp => hexp.2⟩

/-- A tick on an expired timer: the oldest segment is sent again. -/
theorem Timed.tick_expired (h : Timed rtTimeout t s) {ms : UInt64}
    (hexp : t.Expired rtTimeout (s.nowTimeMs + ms)) :
    ∃ time seg rest, s.tcpSegCache = (time, seg) :: rest ∧
      s.tick ms = { s with
        nowTimeMs := s.nowTimeMs + ms
        tcpSegCache := (s.nowTimeMs + ms, seg) :: rest
        segmentsOut := s.segmentsOut ++ [seg] }.backOff := by
  cases hcache : s.tcpSegCache with
  | nil => exact absurd (h.cache_eq_nil_iff.mp hcache) hexp.1
  | cons item rest =>
      obtain ⟨time, seg⟩ := item
      refine ⟨time, seg, rest, rfl, ?_⟩
      have hdue := (h.due_iff (by rw [hcache]; rfl) _).mpr hexp
      rw [h.tick_eq, retransmit]
      simp only [hcache]
      exact if_pos hdue

/-- A tick on a timer that has not expired only moves the clock. -/
theorem Timed.tick_not_expired (h : Timed rtTimeout t s) {ms : UInt64}
    (hexp : ¬ t.Expired rtTimeout (s.nowTimeMs + ms)) :
    s.tick ms = { s with nowTimeMs := s.nowTimeMs + ms } := by
  rw [h.tick_eq, retransmit]
  cases hcache : s.tcpSegCache with
  | nil => rfl
  | cons item rest =>
      obtain ⟨time, seg⟩ := item
      have hnotDue := mt (h.due_iff (by rw [hcache]; rfl) _).mp hexp
      simp only
      rw [if_neg hnotDue]

/-- The clock sends the oldest outstanding segment again exactly when the timer has
expired, and nothing else. -/
theorem Timed.tick_segmentsOut (h : Timed rtTimeout t s) (ms : UInt64) :
    (s.tick ms).segmentsOut = s.segmentsOut ++
      if t.Expired rtTimeout (s.nowTimeMs + ms) then t.outstanding.take 1 else [] := by
  split
  · rename_i hexp
    obtain ⟨time, seg, rest, hcache, htick⟩ := h.tick_expired hexp
    rw [htick, ← h.map_snd_cache, hcache]
    unfold backOff
    split <;> rfl
  · rename_i hexp
    rw [h.tick_not_expired hexp, List.append_nil]

/-- The timer is started again exactly when it has expired. -/
theorem Timed.ticked_eq (h : Timed rtTimeout t s) (ms : UInt64) :
    t.ticked s ms =
      if t.Expired rtTimeout (s.nowTimeMs + ms) then
        { t with
          start := s.nowTimeMs + ms
          count := if s.windowSize = 0 then t.count else t.count + 1 }
      else t := by
  have hout := h.tick_segmentsOut ms
  unfold Timer.ticked
  by_cases hexp : t.Expired rtTimeout (s.nowTimeMs + ms)
  · obtain ⟨oldest, rest, heq⟩ := List.exists_cons_of_ne_nil hexp.1
    have hnow : (s.tick ms).nowTimeMs = s.nowTimeMs + ms := by
      obtain ⟨time, seg, rest, -, htick⟩ := h.tick_expired hexp
      rw [htick]
      unfold backOff
      split <;> rfl
    rw [if_pos hexp] at hout ⊢
    rw [if_neg (by rw [hout, heq]; simp), hnow]
  · rw [if_neg hexp, List.append_nil] at hout
    rw [if_neg hexp, if_pos hout]

/-- While the count is within the limit, the timeout can be doubled in 32 bits. -/
theorem timeout_mul_two_lt (rtTimeout : UInt16) {count : Nat}
    (hcount : count ≤ TCPConfig.maxRetxAttempts) :
    rtTimeout.toNat * 2 ^ count * 2 < 2 ^ 32 := by
  have hrt : rtTimeout.toNat < 2 ^ 16 := rtTimeout.toNat_lt
  have hpow : 2 ^ count ≤ 2 ^ 8 := Nat.pow_le_pow_right (by decide) hcount
  have hmul : rtTimeout.toNat * 2 ^ count ≤ 2 ^ 16 * 2 ^ 8 := Nat.mul_le_mul hrt.le hpow
  omega

/-- The clock drives the timer, as long as the count leaves room for one more doubling. -/
theorem Timed.tick (h : Timed rtTimeout t s) (hcount : t.count ≤ TCPConfig.maxRetxAttempts)
    (ms : UInt64) : Timed rtTimeout (t.ticked s ms) (s.tick ms) := by
  have hcached := (h.toCached.tick ms).1
  rw [h.ticked_eq]
  by_cases hexp : t.Expired rtTimeout (s.nowTimeMs + ms)
  · obtain ⟨time, seg, rest, -, htick⟩ := h.tick_expired hexp
    rw [if_pos hexp]
    rw [htick, backOff] at hcached ⊢
    by_cases hwindow : s.windowSize = 0
    · rw [if_neg (not_not_intro hwindow)] at hcached ⊢
      rw [if_pos hwindow]
      exact ⟨hcached, by simp, h.initial_eq, h.timeout_eq, h.count_eq⟩
    · rw [if_pos hwindow] at hcached ⊢
      rw [if_neg hwindow]
      refine ⟨hcached, by simp, h.initial_eq, ?_, congrArg (· + 1) h.count_eq⟩
      have hfits := timeout_mul_two_lt rtTimeout hcount
      have htimeout := h.timeout_eq
      rw [Timer.timeout] at htimeout
      calc (s.retransmissionTimeout * 2).toNat
          = rtTimeout.toNat * 2 ^ t.count * 2 % 2 ^ 32 := by
            rw [UInt32.toNat_mul, htimeout]
            rfl
        _ = rtTimeout.toNat * 2 ^ t.count * 2 := Nat.mod_eq_of_lt hfits
        _ = rtTimeout.toNat * 2 ^ (t.count + 1) := by rw [Nat.mul_assoc, ← Nat.pow_succ]
  · rw [if_neg hexp]
    rw [h.tick_not_expired hexp] at hcached ⊢
    exact ⟨hcached, h.start_eq, h.initial_eq, h.timeout_eq, h.count_eq⟩

end TCPSender
end Sponge
