import Sponge.TCPSender.Runs

/-!
# The advertised window

The sender does not compare positions when it fills the window.  It keeps the size of
the part in use, `_window_used_size`, and corrects it with every acknowledgement.  As
long as that size is the distance from the accepted ackno to `_next_seqno`, what it
sends stays inside the window.

Two things break this.  A SYN sent into a window of one takes a byte of payload along,
since the payload size is at least one.  And an acknowledgement whose window ends before
`_next_seqno` makes the sender forget what it has in flight beyond that window, because
the used size is cut down to it; the next `fill_window` then sends beyond the window, as
it already does when a window of zero is acknowledged twice.

In the other direction nothing breaks.  The used size is never more than what is in flight,
since an acknowledgement only cuts it down.  So a sender that stops with something left to
send has a window's worth in flight.

Main results:

- Theorem {lit}`Windowed.step`: the used size is the number of bytes in flight, as long
  as no acknowledgement takes window back.
- Theorem {lit}`window_respected`: what `fill_window` sends then ends inside the window.
- Theorem {lit}`window_respected_fails`: without the conditions it does not.
- Theorem {lit}`fillWindow_uses_window`: `fill_window` leaves no usable window unused.
-/

namespace Sponge

open Library

namespace TCPSender

/-- An accepted acknowledgement leaves all that was sent inside its window, and a SYN
sent into a free window of one has no payload. -/
def Call.KeepsWindow (t : Trace) : Call → Prop
  | .ackReceived ackno windowSize => t.sender.accepts ackno = true →
      t.sender.nextSeqno ≤
        unwrap ackno t.sender.isn t.sender.nextSeqno + windowSize.toNat
  | .fillWindow => t.sender.syned = false → t.sender.windowUnusedSize = 1 →
      t.sender.stream.bufferEmpty = true
  | _ => True

instance (t : Trace) : ∀ c, Decidable (Call.KeepsWindow t c)
  | .ackReceived _ _ => inferInstanceAs (Decidable (_ → _))
  | .fillWindow => inferInstanceAs (Decidable (_ → _ → _))
  | .write _ => inferInstanceAs (Decidable True)
  | .endInput => inferInstanceAs (Decidable True)
  | .tick _ => inferInstanceAs (Decidable True)

/-- The used part of the window runs from the accepted ackno to `_next_seqno`. -/
structure Windowed (t : Trace) : Prop where
  cached : Cached t.created t.ack t.sender
  used_eq : t.ack + t.sender.windowUsedSize = t.sender.nextSeqno
  windowSize_eq : t.sender.windowSize = t.window

theorem windowed_new (capacity : Nat) (retxTimeout : UInt16) (fixedIsn : Option WrappingInt32)
    (random : UInt32) : Windowed (Trace.new capacity retxTimeout fixedIsn random) where
  cached := cached_new capacity retxTimeout fixedIsn random
  used_eq := rfl
  windowSize_eq := rfl

variable {t : Trace} {s : TCPSender}

/-! ## Acknowledgements -/

/-- If the part used ends at or before `_next_seqno`, its end is found again by `unwrap`. -/
theorem Cached.used_updateWindow {sent : List TCPSegment} {ack : Nat} (h : Cached sent ack s)
    (hused : ack + s.windowUsedSize ≤ s.nextSeqno) (ackno : WrappingInt32)
    (windowSize : UInt16) :
    (s.updateWindow ackno windowSize).windowUsedSize =
      min (ack + s.windowUsedSize - unwrap ackno s.isn s.nextSeqno) windowSize.toNat := by
  have hlt := h.nextSeqno_lt
  have hflight := h.inFlight_lt
  have hend : unwrap (s.latestAckno.add (UInt32.ofNat s.windowUsedSize)) s.isn s.nextSeqno =
      ack + s.windowUsedSize := by
    rw [h.latestAckno_eq, add_wrap,
      unwrap_wrap s.isn (by omega) hlt (by omega) (by omega)]
  rw [windowUsedSize_updateWindow, hend]

/-- The used size is corrected to the bytes still in flight, if they lie in the window. -/
theorem Windowed.used_updateWindow (h : Windowed t) {ackno : WrappingInt32}
    {windowSize : UInt16} (haccept : t.sender.accepts ackno = true)
    (hkeep : t.sender.nextSeqno ≤
      unwrap ackno t.sender.isn t.sender.nextSeqno + windowSize.toNat) :
    unwrap ackno t.sender.isn t.sender.nextSeqno +
      (t.sender.updateWindow ackno windowSize).windowUsedSize = t.sender.nextSeqno := by
  obtain ⟨-, hhigh⟩ := (h.cached.accepts_iff ackno).mp haccept
  rw [h.cached.used_updateWindow h.used_eq.le, h.used_eq]
  omega

/-- The used size accounts for what is in flight, up to the relation `R` between the end of the
part used and `_next_seqno`. -/
structure Accounted (R : Nat → Nat → Prop) (t : Trace) : Prop where
  cached : Cached t.created t.ack t.sender
  used : R (t.ack + t.sender.windowUsedSize) t.sender.nextSeqno
  windowSize_eq : t.sender.windowSize = t.window

/-- If accepted acknowledgements keep the account, every call does: what is sent is used. -/
theorem Accounted.step {R : Nat → Nat → Prop} (hadd : ∀ a b n, R a b → R (a + n) (b + n))
    (h : Accounted R t) {c : Call} (hafter : (t.step c).Unambiguous)
    (hack : ∀ ackno windowSize, c = .ackReceived ackno windowSize →
      t.sender.accepts ackno = true →
        R (unwrap ackno t.sender.isn t.sender.nextSeqno +
          (t.sender.updateWindow ackno windowSize).windowUsedSize) t.sender.nextSeqno) :
    Accounted R (t.step c) := by
  have hcached := h.cached.step hafter
  cases c with
  | write data =>
      rw [Trace.step] at hcached ⊢
      exact ⟨hcached, h.used, h.windowSize_eq⟩
  | endInput =>
      rw [Trace.step] at hcached ⊢
      exact ⟨hcached, h.used, h.windowSize_eq⟩
  | fillWindow =>
      have hemit := t.sender.fillWindow_emitted
      rw [Trace.step] at hcached ⊢
      refine ⟨hcached, ?_, ?_⟩
      · change R (t.ack + t.sender.fillWindow.windowUsedSize) t.sender.fillWindow.nextSeqno
        rw [hemit.used_eq, hemit.nextSeqno_eq, ← Nat.add_assoc]
        exact hadd _ _ _ h.used
      · change t.sender.fillWindow.windowSize = t.window
        rw [hemit.windowSize_eq, h.windowSize_eq]
  | ackReceived ackno windowSize =>
      have hquiet := quiet_ackReceived t.sender ackno windowSize
      rw [Trace.step] at hcached ⊢
      by_cases haccept : t.sender.accepts ackno = true
      · have hused := hack ackno windowSize rfl haccept
        have hlow := ((h.cached.accepts_iff ackno).mp haccept).1
        simp only [haccept, if_true] at hcached ⊢
        refine ⟨hcached, ?_, windowSize_ackReceived ackno windowSize haccept⟩
        simp only
        rw [max_eq_right hlow, windowUsedSize_ackReceived ackno windowSize haccept,
          hquiet.nextSeqno_eq]
        exact hused
      · simp only [haccept, ackReceived_refused windowSize haccept] at hcached ⊢
        exact ⟨hcached, h.used, h.windowSize_eq⟩
  | tick ms =>
      obtain ⟨segs, hticked⟩ := t.sender.tick_ticked ms
      rw [Trace.step] at hcached ⊢
      refine ⟨hcached, ?_, ?_⟩
      · change R (t.ack + (t.sender.tick ms).windowUsedSize) (t.sender.tick ms).nextSeqno
        rw [hticked.windowUsedSize_eq, hticked.nextSeqno_eq]
        exact h.used
      · change (t.sender.tick ms).windowSize = t.window
        rw [hticked.windowSize_eq, h.windowSize_eq]

/-- Calls that take no window back keep the used size right. -/
theorem Windowed.step (h : Windowed t) {c : Call} (hafter : (t.step c).Unambiguous)
    (hkeep : c.KeepsWindow t) : Windowed (t.step c) := by
  have haccount : Accounted (· = ·) t := ⟨h.cached, h.used_eq, h.windowSize_eq⟩
  have hstep := haccount.step (fun _ _ n hab => congrArg (· + n) hab) hafter (by
    rintro ackno windowSize rfl haccept
    exact h.used_updateWindow haccept (hkeep haccept))
  exact ⟨hstep.cached, hstep.used, hstep.windowSize_eq⟩

/-! ## New segments -/

/-- What holds after part of the emissions of a `fill_window` that started at `start`:
the segments sent so far end inside the window. -/
structure Inside (ack window start : Nat) (done : List TCPSegment) (s : TCPSender) : Prop where
  used_eq : ack + s.windowUsedSize = s.nextSeqno
  windowSize_eq : s.windowSize = window
  nextSeqno_eq : start + extent TCPSegment.lengthInSequenceSpace done = s.nextSeqno
  bare_syn : s.syned = false → s.windowSize = s.windowUsedSize + 1 → s.stream.contents = []
  stop_le : ∀ p ∈ place TCPSegment.lengthInSequenceSpace start done,
    p.2.header.seqno = wrap p.1 s.isn ∧
      p.1 + p.2.lengthInSequenceSpace ≤ ack + max 1 window

/-- An emission ends inside the window. -/
theorem Inside.stop_le_of_sendable {ack window start : Nat} {done : List TCPSegment}
    {seg : TCPSegment} (h : Inside ack window start done s) (hsend : Sendable s seg) :
    s.nextSeqno + seg.lengthInSequenceSpace ≤ ack + max 1 window := by
  have hused := h.used_eq
  have hwindow := h.windowSize_eq
  rcases hsend.fits with ⟨hzero, hnone, hone⟩ | ⟨-, hfits | ⟨hsyn, -, hpayload, hroom⟩⟩
  · omega
  · omega
  · -- This would be the SYN with a byte of payload, but there is no byte.
    have hnil := h.bare_syn (hsend.syn_iff.mp hsyn).1 hroom
    have hnothing := hsend.payload_eq
    rw [hnil, List.take_nil] at hnothing
    rw [hnothing] at hpayload
    simp at hpayload

theorem Inside.emit {ack window start : Nat} {done : List TCPSegment} {seg : TCPSegment}
    (h : Inside ack window start done s) (hsend : Sendable s seg) :
    Inside ack window start (done ++ [seg]) (s.emit seg) := by
  have hstop := h.stop_le_of_sendable hsend
  have hpos := hsend.length_pos
  refine ⟨?_, h.windowSize_eq, ?_, ?_, ?_⟩
  · change ack + (s.windowUsedSize + seg.lengthInSequenceSpace) =
      s.nextSeqno + seg.lengthInSequenceSpace
    rw [← Nat.add_assoc, h.used_eq]
  · rw [extent_append, extent_cons, extent_nil, Nat.add_zero, ← Nat.add_assoc, h.nextSeqno_eq]
    rfl
  · -- The SYN is still unsent only behind a probe, which has used up the window.
    intro hsyned hroom
    change (s.syned || seg.header.syn) = false at hsyned
    change s.windowSize = s.windowUsedSize + seg.lengthInSequenceSpace + 1 at hroom
    rw [Bool.or_eq_false_iff] at hsyned
    exfalso
    by_cases hclosed : s.windowSize = 0 ∧ s.windowUsedSize = 0
    · omega
    · rw [hsend.syn_iff.mpr ⟨hsyned.1, hclosed⟩] at hsyned
      cases hsyned.2
  · intro p hp
    rw [place_append, List.mem_append, h.nextSeqno_eq, place_cons, place_nil,
      List.mem_singleton] at hp
    rcases hp with hold | rfl
    · exact h.stop_le p hold
    · refine ⟨?_, hstop⟩
      rw [hsend.header_eq]
      rfl

/-- In every run in which the bytes in flight stay below `2 ^ 31`, no accepted
acknowledgement takes back window that is in use, and no SYN with payload goes into a
free window of one, every segment that `fill_window` creates ends inside the window:
at most the window of the last accepted acknowledgement, or one if that is zero, behind
the highest ackno accepted. -/
theorem window_respected (capacity : Nat) (retxTimeout : UInt16)
    (fixedIsn : Option WrappingInt32) (random : UInt32) (calls : List Call)
    (hrun : Admissible Trace.step (fun t c => (t.step c).Unambiguous ∧ c.KeepsWindow t)
      (Trace.new capacity retxTimeout fixedIsn random) calls) :
    let t := run Trace.step (Trace.new capacity retxTimeout fixedIsn random) calls
    Call.fillWindow.KeepsWindow t →
      ∀ p ∈ place TCPSegment.lengthInSequenceSpace t.sender.nextSeqno t.sender.newSegments,
        p.2.header.seqno = wrap p.1 t.sender.isn ∧
          p.1 + p.2.lengthInSequenceSpace ≤ t.ack + max 1 t.window := by
  intro t hkeep
  have h : Windowed t := hrun.invariant (fun t c ht hc => ht.step hc.1 hc.2)
    (windowed_new capacity retxTimeout fixedIsn random)
  have hunused := t.sender.windowUnusedSize_eq
  have hstart : Inside t.ack t.window t.sender.nextSeqno [] t.sender := by
    refine ⟨h.used_eq, h.windowSize_eq, by simp, ?_, by simp⟩
    intro hsyned hroom
    exact (ByteStream.bufferEmpty_iff _).mp (hkeep hsyned (by omega))
  have hdone := t.sender.admissible_newSegments.history
    (fun _ _ _ hdone hsend => hdone.emit hsend) hstart
  rw [List.nil_append, ← fillWindow_eq_run] at hdone
  intro p hp
  obtain ⟨hseqno, hstop⟩ := hdone.stop_le p hp
  rw [t.sender.fillWindow_emitted.isn_eq] at hseqno
  exact ⟨hseqno, hstop⟩

/-- A window that is moved on, filled, closed and probed. -/
theorem window_respected_probe :
    let isn : WrappingInt32 := ⟨4294967295⟩
    let calls : List Call := [.fillWindow, .write [97, 98, 99], .ackReceived ⟨0⟩ 2, .fillWindow,
      .ackReceived ⟨2⟩ 0]
    let t := run Trace.step (Trace.new 8 1000 (some isn) 0) calls
    Admissible Trace.step (fun t c => (t.step c).Unambiguous ∧ c.KeepsWindow t)
        (Trace.new 8 1000 (some isn) 0) calls ∧
      t.sender.newSegments ≠ [] ∧
      ∀ p ∈ place TCPSegment.lengthInSequenceSpace t.sender.nextSeqno t.sender.newSegments,
        p.2.header.seqno = wrap p.1 t.sender.isn ∧
          p.1 + p.2.lengthInSequenceSpace ≤ t.ack + max 1 t.window := by
  intro isn calls t
  have hrun : Admissible Trace.step (fun t c => (t.step c).Unambiguous ∧ c.KeepsWindow t)
      (Trace.new 8 1000 (some isn) 0) calls := by decide +kernel
  have hkeep : Call.fillWindow.KeepsWindow t := by decide +kernel
  exact ⟨hrun, by decide +kernel, window_respected 8 1000 (some isn) 0 calls hrun hkeep⟩

/-- A byte written before the SYN goes out with it into the initial window of one. -/
theorem window_respected_fails :
    ¬ ∀ (capacity : Nat) (retxTimeout : UInt16) (fixedIsn : Option WrappingInt32)
      (random : UInt32) (calls : List Call),
      Admissible Trace.step (fun t c => (t.step c).Unambiguous)
        (Trace.new capacity retxTimeout fixedIsn random) calls →
      ∀ p ∈ place TCPSegment.lengthInSequenceSpace
          (run Trace.step (Trace.new capacity retxTimeout fixedIsn random) calls).sender.nextSeqno
          (run Trace.step (Trace.new capacity retxTimeout fixedIsn random)
            calls).sender.newSegments,
        p.1 + p.2.lengthInSequenceSpace ≤
          (run Trace.step (Trace.new capacity retxTimeout fixedIsn random) calls).ack +
            max 1
              (run Trace.step (Trace.new capacity retxTimeout fixedIsn random) calls).window := by
  intro h
  have hbad := h 8 1000 (some ⟨0⟩) 0 [.write [120]] (by decide +kernel)
  exact absurd hbad (by decide +kernel)

-- A window of zero acknowledged twice, with a probe in between, lets a second byte out.
example :
    let t := run Trace.step (Trace.new 8 1000 (some ⟨0⟩) 0)
      [.fillWindow, .write [97, 98], .ackReceived ⟨1⟩ 0, .fillWindow, .ackReceived ⟨1⟩ 0]
    ¬ ∀ p ∈ place TCPSegment.lengthInSequenceSpace t.sender.nextSeqno t.sender.newSegments,
      p.1 + p.2.lengthInSequenceSpace ≤ t.ack + max 1 t.window := by
  decide +kernel

/-! ## Usable window -/

/-- The used size is at most what is in flight. -/
abbrev Covered (t : Trace) : Prop :=
  Accounted (· ≤ ·) t

theorem covered_new (capacity : Nat) (retxTimeout : UInt16) (fixedIsn : Option WrappingInt32)
    (random : UInt32) : Covered (Trace.new capacity retxTimeout fixedIsn random) where
  cached := cached_new capacity retxTimeout fixedIsn random
  used := le_rfl
  windowSize_eq := rfl

/-- An acknowledgement leaves no more used than what is in flight behind it. -/
theorem Covered.used_updateWindow (h : Covered t) {ackno : WrappingInt32} (windowSize : UInt16)
    (haccept : t.sender.accepts ackno = true) :
    unwrap ackno t.sender.isn t.sender.nextSeqno +
      (t.sender.updateWindow ackno windowSize).windowUsedSize ≤ t.sender.nextSeqno := by
  obtain ⟨-, hhigh⟩ := (h.cached.accepts_iff ackno).mp haccept
  have hused := h.used
  rw [h.cached.used_updateWindow hused]
  omega

/-- Every call keeps the used size below what is in flight. -/
theorem Covered.step (h : Covered t) {c : Call} (hafter : (t.step c).Unambiguous) :
    Covered (t.step c) := by
  refine Accounted.step (fun _ _ n hab => Nat.add_le_add_right hab n) h hafter ?_
  rintro ackno windowSize rfl haccept
  exact h.used_updateWindow windowSize haccept

/-- `bytes_in_flight()` does not count less than what is in flight. -/
theorem le_bytesInFlight {ack : Nat} (hlatest : s.latestAckno = wrap ack s.isn)
    (hnear : s.nextSeqno < ack + 2 ^ 32) (hnext : s.nextSeqno < 2 ^ 64) :
    s.nextSeqno ≤ ack + s.bytesInFlight := by
  have hlt : s.absoluteAckno < 2 ^ 64 := unwrap_lt s.latestAckno s.isn hnext
  have hwrap : wrap s.absoluteAckno s.isn = s.latestAckno :=
    wrap_unwrap s.latestAckno s.isn hnext
  rw [hlatest, wrap_eq_wrap_iff] at hwrap
  rcases Nat.lt_or_ge s.nextSeqno s.absoluteAckno with hgt | hle
  · -- The difference underflows and is larger than any position.
    rw [bytesInFlight, wordSub, Nat.mod_eq_of_lt hlt, Nat.mod_eq_of_lt (by omega)]
    omega
  · rw [bytesInFlight, wordSub_eq_sub hle hnext]
    omega

/-- No call changes the capacity of the stream. -/
theorem Trace.capacity_step (t : Trace) (c : Call) :
    (t.step c).sender.stream.capacity = t.sender.stream.capacity := by
  cases c with
  | write data => rfl
  | endInput => rfl
  | fillWindow =>
      exact t.sender.fillWindow_keeps
        (P := fun stream => stream.capacity = t.sender.stream.capacity) (fun _ _ h => h) rfl
  | ackReceived ackno windowSize =>
      exact congrArg ByteStream.capacity (quiet_ackReceived t.sender ackno windowSize).stream_eq
  | tick ms =>
      obtain ⟨segs, hticked⟩ := t.sender.tick_ticked ms
      exact congrArg ByteStream.capacity hticked.stream_eq

/-- In every run of a sender whose stream can hold a byte, in which the bytes in flight stay below
`2 ^ 31`: reading the stream does not divide by zero; the loop of `fill_window`, if it is entered,
is left within `windowSize + 1` rounds; and if bytes of the stream are then unsent, or the input
has ended and the FIN is not sent, at least the window of the last accepted acknowledgement is in
flight, and at least one byte. -/
theorem fillWindow_uses_window (capacity : Nat) (retxTimeout : UInt16)
    (fixedIsn : Option WrappingInt32) (random : UInt32) (calls : List Call)
    (hcapacity : 1 ≤ capacity)
    (hrun : Admissible Trace.step (fun t c => (t.step c).Unambiguous)
      (Trace.new capacity retxTimeout fixedIsn random) calls) :
    let t := run Trace.step (Trace.new capacity retxTimeout fixedIsn random) calls
    let s := t.sender.fillWindow
    1 ≤ t.sender.stream.capacity ∧
      (¬ (t.sender.windowSize = 0 ∧ t.sender.windowUsedSize = 0) →
        ∀ fuel, t.sender.windowSize + 1 ≤ fuel → fillLoop fuel t.sender = some s) ∧
      (s.nextSeqno < 2 ^ 64 →
        s.stream.bufferEmpty = false ∨ s.stream.inputEnded = true ∧ s.fin = false →
          max 1 t.window ≤ s.bytesInFlight) := by
  intro t s
  have h : Covered t := hrun.invariant (fun t c ht hc => ht.step hc)
    (covered_new capacity retxTimeout fixedIsn random)
  have hstream : 1 ≤ t.sender.stream.capacity :=
    hrun.invariant (I := fun t => 1 ≤ t.sender.stream.capacity)
      (fun t c ht _ => by rwa [t.capacity_step c]) hcapacity
  refine ⟨hstream, fun hopen fuel hfuel => ?_, ?_⟩
  · have hwindow := t.sender.windowUnusedSize_eq
    exact fillLoop_eq_fillWindow hopen (by omega)
  intro hnext hpending
  have hemit := t.sender.fillWindow_emitted
  have hused := h.used
  have hwindow := h.cached.windowSize_lt
  have hflight := h.cached.inFlight_lt
  have hjump := hemit.nextSeqno_le
  have hlatest : s.latestAckno = wrap t.ack s.isn := by
    rw [hemit.latestAckno_eq, hemit.isn_eq, h.cached.latestAckno_eq]
  have hcount := le_bytesInFlight hlatest (by change t.sender.fillWindow.nextSeqno < _; omega) hnext
  have hcovered : t.ack + s.windowUsedSize ≤ s.nextSeqno := by
    change _ + t.sender.fillWindow.windowUsedSize ≤ t.sender.fillWindow.nextSeqno
    rw [hemit.used_eq, hemit.nextSeqno_eq]
    omega
  have hsize : s.windowSize = t.window := by
    rw [← h.windowSize_eq]
    exact hemit.windowSize_eq
  have hbusy : ¬ s.Drained := by
    rintro ⟨hbuf, hfin⟩
    rcases hpending with hbytes | ⟨hended, hunsent⟩
    · rw [hbuf] at hbytes
      cases hbytes
    · rw [hfin hended] at hunsent
      cases hunsent
  have hidle : s.Idle := t.sender.idle_fillWindow
  unfold Idle at hidle
  split at hidle
  · exact absurd hidle hbusy
  · rcases hidle with hfull | ⟨-, hdrained⟩
    · omega
    · exact absurd hdrained hbusy

/-- A window that is cut down while more is in flight, and then opened a little. -/
theorem fillWindow_uses_window_shrunk :
    let calls : List Call := [.fillWindow, .write [97, 98, 99, 100, 101], .ackReceived ⟨1⟩ 3,
      .fillWindow, .ackReceived ⟨1⟩ 1, .endInput, .ackReceived ⟨1⟩ 2]
    let t := run Trace.step (Trace.new 8 1000 (some ⟨0⟩) 0) calls
    let s := t.sender.fillWindow
    Admissible Trace.step (fun t c => (t.step c).Unambiguous) (Trace.new 8 1000 (some ⟨0⟩) 0)
        calls ∧
      fillLoop (t.sender.windowSize + 1) t.sender = some s ∧
      s.stream.bufferEmpty = false ∧ s.bytesInFlight = 4 ∧ max 1 t.window ≤ s.bytesInFlight := by
  intro calls t s
  have hrun : Admissible Trace.step (fun t c => (t.step c).Unambiguous)
      (Trace.new 8 1000 (some ⟨0⟩) 0) calls := by decide +kernel
  have hunsent : s.stream.bufferEmpty = false := by decide +kernel
  obtain ⟨-, hleft, huses⟩ :=
    fillWindow_uses_window 8 1000 (some ⟨0⟩) 0 calls (by decide) hrun
  exact ⟨hrun, hleft (by decide +kernel) _ le_rfl, hunsent, by decide +kernel,
    huses (by decide +kernel) (Or.inl hunsent)⟩

end TCPSender
end Sponge
