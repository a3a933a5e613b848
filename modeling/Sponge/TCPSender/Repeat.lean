import Sponge.TCPSender.Window

/-!
# Repeated acknowledgements

An acknowledgement followed by `fill_window` leaves the sender idle.  The same
acknowledgement again computes the used size anew from the 32-bit numbers and cuts it down
to the window.  On an open window this gives the size that was used, or the whole window, so
the sender stays idle.

On a closed window it forgets the probe: the used size is cut down to zero, and the next
`fill_window` probes again, with the next byte or the FIN.  A receiver answers every probe
with such an acknowledgement.  And an ackno beyond `_next_seqno` is refused at first but
accepted once `fill_window` has sent what it acknowledges, and may then open the window.
What `fill_window` sends is known from the state before it, so both cases are conditions on
the sender before the first round.

Main results:

- Theorem {lit}`windowUsedSize_repeated`: the used size behind a repeated acknowledgement.
- Theorem {lit}`newSegments_round_eq_nil_iff`: when the second of two equal rounds sends
  nothing.
- Theorem {lit}`repeated_ack_quiet_iff`: the same over every run.
-/

namespace Sponge

open Library

namespace TCPSender

/-- `ack_received` followed by `fill_window`. -/
def round (s : TCPSender) (ackno : WrappingInt32) (windowSize : UInt16) : TCPSender :=
  (s.ackReceived ackno windowSize).fillWindow

/-- The condition for an ackno that is accepted at first: the window is open, or there is at most
one byte to send and no FIN behind it, or one byte more in flight puts the ackno out of sight. -/
def QuietAccepted (s : TCPSender) (ackno : WrappingInt32) (windowSize : UInt16) : Prop :=
  windowSize ≠ 0 ∨ s.stream.bufferSize = 0 ∨
    (s.stream.bufferSize = 1 ∧ (s.stream.inputEnded = true → s.fin = true)) ∨
    s.nextSeqno + 1 < unwrap ackno s.isn (s.nextSeqno + 1)

/-- The condition for an ackno that is refused at first, with `next` for where `_next_seqno` will
be once the window is filled: the ackno lies before the latest one or beyond `next`; or everything
there is to send goes out in the first round, with the SYN if the window is then open; or the
window it opens is already in use. -/
def QuietRefused (s : TCPSender) (ackno : WrappingInt32) (windowSize : UInt16) : Prop :=
  let next := s.nextSeqno + s.fillSize
  let position := unwrap ackno s.isn next
  let used := unwrap (s.latestAckno.add (UInt32.ofNat (s.windowUsedSize + s.fillSize))) s.isn next -
    position
  position < unwrap s.latestAckno s.isn next ∨ next < position ∨
    (s.fillSize = s.unsent + s.sendsSyn.toNat ∧
      (windowSize = 0 ∨ s.syned = true ∨ s.sendsSyn = true)) ∨
    (windowSize ≠ 0 ∧ windowSize.toNat ≤ used)

/-- When the second of two equal rounds sends nothing, by the sender before the first. -/
def QuietRepeat (s : TCPSender) (ackno : WrappingInt32) (windowSize : UInt16) : Prop :=
  if s.accepts ackno = true then s.QuietAccepted ackno windowSize
  else s.QuietRefused ackno windowSize

instance (s : TCPSender) (ackno : WrappingInt32) (windowSize : UInt16) :
    Decidable (s.QuietAccepted ackno windowSize) :=
  inferInstanceAs (Decidable (_ ∨ _ ∨ (_ ∧ (_ → _)) ∨ _))

instance (s : TCPSender) (ackno : WrappingInt32) (windowSize : UInt16) :
    Decidable (s.QuietRefused ackno windowSize) :=
  inferInstanceAs (Decidable (_ ∨ _ ∨ (_ ∧ (_ ∨ _ ∨ _)) ∨ (_ ∧ _)))

instance (s : TCPSender) (ackno : WrappingInt32) (windowSize : UInt16) :
    Decidable (s.QuietRepeat ackno windowSize) :=
  inferInstanceAs (Decidable (if s.accepts ackno = true then s.QuietAccepted ackno windowSize
    else s.QuietRefused ackno windowSize))

variable {s : TCPSender} {ackno : WrappingInt32}

/-! ## The second acknowledgement -/

/-- The latest ackno is the one accepted. -/
theorem latestAckno_ackReceived (windowSize : UInt16) (haccept : s.accepts ackno = true) :
    (s.ackReceived ackno windowSize).latestAckno = ackno := by
  rw [ackReceived, if_pos haccept]
  simp only
  split
  · rename_i hsame
    exact hsame.symm
  · rfl

/-- An ackno that was accepted last only updates the window. -/
theorem ackReceived_latest (windowSize : UInt16) (haccept : s.accepts ackno = true)
    (hlatest : s.latestAckno = ackno) :
    s.ackReceived ackno windowSize = s.updateWindow ackno windowSize := by
  rw [ackReceived, if_pos haccept]
  exact if_pos hlatest.symm

theorem unwrap_le_of_accepts (haccept : s.accepts ackno = true) :
    unwrap ackno s.isn s.nextSeqno ≤ s.nextSeqno := by
  simp only [accepts, Bool.not_eq_true', Bool.or_eq_false_iff, decide_eq_false_iff_not] at haccept
  omega

/-- The used size behind an acknowledgement that repeats the latest one. -/
theorem windowUsedSize_repeated (windowSize : UInt16) (haccept : s.accepts ackno = true)
    (hlatest : s.latestAckno = ackno) (hnext : s.nextSeqno < 2 ^ 63 + 2 ^ 17)
    (hused : s.windowUsedSize ≤ 2 ^ 16) :
    (s.updateWindow ackno windowSize).windowUsedSize = min s.windowUsedSize windowSize.toNat := by
  have hle := unwrap_le_of_accepts haccept
  have hwrap := wrap_unwrap ackno s.isn (show s.nextSeqno < 2 ^ 64 by omega)
  rw [windowUsedSize_updateWindow, hlatest]
  generalize hposition : unwrap ackno s.isn s.nextSeqno = position at hle hwrap ⊢
  -- The ackno is the closest of its positions, so it is at most half the space away.
  have hclose := distance_unwrap_le (show s.nextSeqno < 2 ^ 64 by omega)
    (show position + 2 ^ 32 < 2 ^ 64 by omega)
    (show wrap (position + 2 ^ 32) s.isn = ackno by rw [← hwrap, wrap_eq_wrap_iff]; omega)
  rw [hposition, distance_eq, distance_eq] at hclose
  have hend : unwrap (ackno.add (UInt32.ofNat s.windowUsedSize)) s.isn s.nextSeqno =
      position + s.windowUsedSize := by
    rcases Nat.eq_zero_or_pos s.windowUsedSize with hzero | hpos
    · have hsame : ackno.add (UInt32.ofNat 0) = ackno := by
        rw [← hwrap, add_wrap, Nat.add_zero]
      rw [hzero, hsame, hposition, Nat.add_zero]
    · rw [← hwrap, add_wrap, unwrap_wrap s.isn (by omega) (by omega) (by omega) (by omega)]
  rw [hend, Nat.add_sub_cancel_left]

/-! ## Two rounds -/

/-- What a round with an accepted ackno leaves. -/
structure Rounded (s : TCPSender) (ackno : WrappingInt32) (windowSize : UInt16)
    (s' : TCPSender) : Prop where
  latestAckno_eq : s'.latestAckno = ackno
  windowSize_eq : s'.windowSize = windowSize.toNat
  used_le : s'.windowUsedSize ≤ 2 ^ 16
  nextSeqno_le : s'.nextSeqno ≤ s.nextSeqno + 2 ^ 16
  idle : s'.Idle

theorem rounded_round (windowSize : UInt16) (haccept : s.accepts ackno = true) :
    Rounded s ackno windowSize (s.round ackno windowSize) := by
  have hemit := (s.ackReceived ackno windowSize).fillWindow_emitted
  have hquiet := quiet_ackReceived s ackno windowSize
  have hsize := windowSize_ackReceived ackno windowSize haccept
  have hused := windowUsedSize_ackReceived ackno windowSize haccept
  have hlt := windowSize.toNat_lt
  have hjump := hemit.nextSeqno_le
  rw [windowUsedSize_updateWindow] at hused
  refine ⟨?_, ?_, ?_, ?_, idle_fillWindow _⟩
  · exact hemit.latestAckno_eq.trans (latestAckno_ackReceived windowSize haccept)
  · exact hemit.windowSize_eq.trans hsize
  · rw [round]
    by_cases hnone : (s.ackReceived ackno windowSize).newSegments = []
    · have hsame := hemit.used_eq
      rw [hnone, extent_nil] at hsame
      omega
    · have hle := hemit.used_le hnone
      omega
  · rw [round]
    rw [hquiet.nextSeqno_eq] at hjump
    omega

/-- What a probe leaves to be sent: nothing if there was at most one byte, and no FIN behind
it. -/
theorem drained_probeWindow_iff (s : TCPSender) :
    s.probeWindow.Drained ↔ s.stream.bufferSize = 0 ∨
      (s.stream.bufferSize = 1 ∧ (s.stream.inputEnded = true → s.fin = true)) := by
  by_cases hbuf : s.stream.bufferEmpty = true
  · have hsize : s.stream.bufferSize = 0 := by
      rwa [ByteStream.bufferEmpty, beq_iff_eq] at hbuf
    simp only [hsize, true_or, iff_true]
    by_cases hdrained : s.Drained
    · rw [s.probeWindow_cases.1 hdrained]
      exact hdrained
    · -- The FIN is what is left, and the probe takes it.
      have hfin : s.stream.eof = true ∧ s.fin = false := by
        rw [ByteStream.eof, hbuf, Bool.and_true]
        rw [Drained, not_and, Classical.not_imp, Bool.not_eq_true] at hdrained
        exact hdrained hbuf
      refine ⟨?_, fun _ => ?_⟩
      · simp [probeWindow, probeSegment, hbuf, hfin, TCPSegment.lengthInSequenceSpace, sendSegment]
      · simp [probeWindow, probeSegment, hbuf, hfin, TCPSegment.lengthInSequenceSpace, sendSegment]
  · have hpending : ¬ s.Drained := fun h => hbuf h.1
    have hlength := mt s.probeSegment_length_eq_zero_iff.mp hpending
    rw [Bool.not_eq_true] at hbuf
    have hsize : s.stream.curSize ≠ 0 := by
      rwa [ByteStream.bufferEmpty, beq_eq_false_iff_ne] at hbuf
    have hprobe : s.probeSegment.2 = { s with stream := s.stream.popOutput 1 } := by
      rw [probeSegment, if_pos hbuf]
      rfl
    rw [probeWindow]
    simp only
    have hone : s.stream.curSize - min s.stream.curSize 1 = 0 ↔ s.stream.curSize = 1 := by omega
    rw [if_neg hlength, hprobe]
    simp only [Drained, sendSegment, ByteStream.bufferEmpty, ByteStream.popOutput, beq_iff_eq,
      ByteStream.bufferSize, hone]
    rw [or_iff_right hsize]

/-- An idle sender that gets the acknowledgement of its window again stays idle if the window
is open; on a closed window it has to be drained. -/
theorem idle_updateWindow_iff {windowSize : UInt16} (hidle : s.Idle)
    (hsize : s.windowSize = windowSize.toNat)
    (hused : (s.updateWindow ackno windowSize).windowUsedSize =
      min s.windowUsedSize windowSize.toNat) :
    (s.updateWindow ackno windowSize).Idle ↔ windowSize ≠ 0 ∨ s.Drained := by
  have hzero : windowSize = 0 ↔ windowSize.toNat = 0 := by
    rw [← UInt16.toNat_inj]
    rfl
  have hwindow : (s.updateWindow ackno windowSize).windowSize = windowSize.toNat := rfl
  have hdrained : (s.updateWindow ackno windowSize).Drained ↔ s.Drained := Iff.rfl
  have hsyned : (s.updateWindow ackno windowSize).syned = s.syned := rfl
  rw [Idle, hused, hwindow, hdrained, hsyned, ne_eq, hzero]
  rw [Idle, hsize] at hidle
  generalize windowSize.toNat = size at hidle ⊢
  generalize s.windowUsedSize = used at hidle ⊢
  by_cases hclosed : size = 0
  · rw [if_pos ⟨hclosed, by omega⟩, or_iff_right (not_not.mpr hclosed)]
  · rw [if_neg (fun h => hclosed h.1)] at hidle ⊢
    refine iff_of_true ?_ (Or.inl hclosed)
    exact hidle.imp_left fun hfull => le_min hfull le_rfl

/-- What a round with a closed window leaves to be sent. -/
theorem drained_round_iff {windowSize : UInt16} (haccept : s.accepts ackno = true)
    (hclosed : windowSize = 0) :
    (s.round ackno windowSize).Drained ↔ s.stream.bufferSize = 0 ∨
      (s.stream.bufferSize = 1 ∧ (s.stream.inputEnded = true → s.fin = true)) := by
  have hquiet := quiet_ackReceived s ackno windowSize
  have hsize := windowSize_ackReceived ackno windowSize haccept
  have hused := windowUsedSize_ackReceived ackno windowSize haccept
  rw [windowUsedSize_updateWindow, hclosed] at hused
  have hzero : (0 : UInt16).toNat = 0 := rfl
  rw [hzero, Nat.min_zero] at hused
  rw [round, fillWindow, if_pos ⟨by rw [hsize, hclosed]; rfl, by rw [hclosed]; exact hused⟩,
    drained_probeWindow_iff, hquiet.stream_eq, hquiet.fin_eq]

/-- An ackno accepted last is accepted again unless it lies beyond `_next_seqno`. -/
theorem accepts_latest_iff (hlatest : s.latestAckno = ackno) :
    s.accepts ackno = true ↔ unwrap ackno s.isn s.nextSeqno ≤ s.nextSeqno := by
  rw [accepts, compare, hlatest]
  simp

/-- With bytes to send, a round with a closed window sends one of them. -/
theorem nextSeqno_round {windowSize : UInt16} (haccept : s.accepts ackno = true)
    (hclosed : windowSize = 0) (hbytes : s.stream.bufferSize ≠ 0) :
    (s.round ackno windowSize).nextSeqno = s.nextSeqno + 1 := by
  have hquiet := quiet_ackReceived s ackno windowSize
  have hsize := windowSize_ackReceived ackno windowSize haccept
  have hused := windowUsedSize_ackReceived ackno windowSize haccept
  have hzero : windowSize.toNat = 0 := by
    rw [hclosed]
    rfl
  rw [windowUsedSize_updateWindow, hzero, Nat.min_zero] at hused
  have hfill : (s.ackReceived ackno windowSize).fillSize = 1 := by
    rw [fillSize, if_pos ⟨hsize.trans hzero, hused⟩, unsent, hquiet.stream_eq]
    omega
  rw [round, (fillWindow_filled _).nextSeqno_eq, hfill, hquiet.nextSeqno_eq]

/-- Behind a round with an accepted ackno the same acknowledgement leaves the sender idle if the
window is open, if nothing is left to send, or if the ackno now lies beyond `_next_seqno`. -/
theorem idle_ackReceived_round_iff (windowSize : UInt16) (haccept : s.accepts ackno = true)
    (hnext : s.nextSeqno < 2 ^ 63) :
    ((s.round ackno windowSize).ackReceived ackno windowSize).Idle ↔
      windowSize ≠ 0 ∨ (s.round ackno windowSize).Drained ∨
        (s.round ackno windowSize).nextSeqno <
          unwrap ackno s.isn (s.round ackno windowSize).nextSeqno := by
  have hround := rounded_round windowSize haccept
  have hisn : (s.round ackno windowSize).isn = s.isn :=
    (fillWindow_emitted _).isn_eq.trans (quiet_ackReceived s ackno windowSize).isn_eq
  have hagain := accepts_latest_iff hround.latestAckno_eq
  rw [hisn] at hagain
  by_cases haccepts : (s.round ackno windowSize).accepts ackno = true
  · have hused := windowUsedSize_repeated windowSize haccepts hround.latestAckno_eq
      (hround.nextSeqno_le.trans_lt (by omega)) hround.used_le
    rw [ackReceived_latest windowSize haccepts hround.latestAckno_eq,
      idle_updateWindow_iff hround.idle hround.windowSize_eq hused,
      or_iff_left (Nat.not_lt.mpr (hagain.mp haccepts))]
  · rw [ackReceived_refused windowSize haccepts]
    exact iff_of_true hround.idle
      (Or.inr (Or.inr (Nat.lt_of_not_le (mt hagain.mpr haccepts))))

/-- The second round behind an ackno that was accepted. -/
theorem idle_repeated_accepted_iff (windowSize : UInt16) (haccept : s.accepts ackno = true)
    (hnext : s.nextSeqno < 2 ^ 63) :
    ((s.round ackno windowSize).ackReceived ackno windowSize).Idle ↔
      s.QuietAccepted ackno windowSize := by
  rw [idle_ackReceived_round_iff windowSize haccept hnext, QuietAccepted]
  by_cases hclosed : windowSize = 0
  · rw [drained_round_iff haccept hclosed]
    by_cases hnone : s.stream.bufferSize = 0
    · simp [hnone]
    · rw [nextSeqno_round haccept hclosed hnone, or_assoc]
  · simp [hclosed]

/-- Which acknos are accepted once the window is filled. -/
theorem accepts_fillWindow_iff (s : TCPSender) (ackno : WrappingInt32) :
    s.fillWindow.accepts ackno = true ↔
      unwrap s.latestAckno s.isn (s.nextSeqno + s.fillSize) ≤
          unwrap ackno s.isn (s.nextSeqno + s.fillSize) ∧
        unwrap ackno s.isn (s.nextSeqno + s.fillSize) ≤ s.nextSeqno + s.fillSize := by
  have hemit := s.fillWindow_emitted
  rw [accepts, compare, hemit.latestAckno_eq, hemit.isn_eq, s.fillWindow_filled.nextSeqno_eq]
  simp

/-- What an acknowledgement accepted behind `fill_window` leaves to do. -/
theorem idle_ackReceived_fillWindow_iff (windowSize : UInt16)
    (haccepts : s.fillWindow.accepts ackno = true) :
    (s.fillWindow.ackReceived ackno windowSize).Idle ↔
      (s.fillSize = s.unsent + s.sendsSyn.toNat ∧
          (windowSize = 0 ∨ s.syned = true ∨ s.sendsSyn = true)) ∨
        (windowSize ≠ 0 ∧ windowSize.toNat ≤
          unwrap (s.latestAckno.add (UInt32.ofNat (s.windowUsedSize + s.fillSize))) s.isn
              (s.nextSeqno + s.fillSize) - unwrap ackno s.isn (s.nextSeqno + s.fillSize)) := by
  have hemit := s.fillWindow_emitted
  have hfilled := s.fillWindow_filled
  have hquiet := quiet_ackReceived s.fillWindow ackno windowSize
  have hsize := windowSize_ackReceived ackno windowSize haccepts
  have hused := windowUsedSize_ackReceived ackno windowSize haccepts
  rw [windowUsedSize_updateWindow, hemit.latestAckno_eq, hemit.isn_eq, hfilled.nextSeqno_eq,
    hfilled.used_eq] at hused
  have hdone : (s.fillWindow.ackReceived ackno windowSize).Drained ↔
      s.fillSize = s.unsent + s.sendsSyn.toNat := by
    have hsent := hfilled.unsent_eq
    rw [drained_iff_unsent, unsent, hquiet.stream_eq, hquiet.fin_eq, ← unsent]
    omega
  have hsyned : (s.fillWindow.ackReceived ackno windowSize).syned = true ↔
      s.syned = true ∨ s.sendsSyn = true := by
    rw [hquiet.syned_eq, hfilled.syned_eq, Bool.or_eq_true]
  have hzero : windowSize = 0 ↔ windowSize.toNat = 0 := by
    rw [← UInt16.toNat_inj]
    rfl
  rw [Idle, hsize, hused, hdone, hsyned]
  by_cases hclosed : windowSize = 0
  · simp [hclosed]
  · have hpos : ¬ windowSize.toNat = 0 := mt hzero.mpr hclosed
    simp only [hpos, hclosed, false_and, if_false, false_or, ne_eq, not_false_eq_true, true_and,
      le_min_iff, le_refl, and_true]
    rw [or_comm, and_comm]

/-- The second round behind an ackno that was refused. -/
theorem idle_repeated_refused_iff (windowSize : UInt16) :
    (s.fillWindow.ackReceived ackno windowSize).Idle ↔ s.QuietRefused ackno windowSize := by
  have haccepts := s.accepts_fillWindow_iff ackno
  simp only [QuietRefused]
  by_cases hagain : s.fillWindow.accepts ackno = true
  · obtain ⟨hlow, hhigh⟩ := haccepts.mp hagain
    rw [idle_ackReceived_fillWindow_iff windowSize hagain, or_iff_right (Nat.not_lt.mpr hlow),
      or_iff_right (Nat.not_lt.mpr hhigh)]
  · rw [ackReceived_refused windowSize hagain, ← or_assoc]
    rw [haccepts, not_and_or, Nat.not_le, Nat.not_le] at hagain
    exact iff_of_true s.idle_fillWindow (Or.inl hagain)

/-- The second of two equal rounds sends nothing exactly under the condition above. -/
theorem newSegments_round_eq_nil_iff (s : TCPSender) (ackno : WrappingInt32) (windowSize : UInt16)
    (hnext : s.nextSeqno < 2 ^ 63) :
    ((s.round ackno windowSize).ackReceived ackno windowSize).newSegments = [] ↔
      s.QuietRepeat ackno windowSize := by
  rw [newSegments_eq_nil_iff, QuietRepeat]
  split
  · rename_i haccept
    exact idle_repeated_accepted_iff windowSize haccept hnext
  · rename_i hrefuse
    rw [round, ackReceived_refused windowSize hrefuse]
    exact idle_repeated_refused_iff windowSize

/-- A round as a run. -/
theorem round_run (t : Trace) (ackno : WrappingInt32) (windowSize : UInt16) :
    (run Trace.step t [.ackReceived ackno windowSize, .fillWindow]).sender =
        t.sender.round ackno windowSize ∧
      (run Trace.step t [.ackReceived ackno windowSize, .fillWindow]).created =
        t.created ++ (t.sender.ackReceived ackno windowSize).newSegments := by
  rw [run, run, run, Trace.step, Trace.step]
  exact ⟨rfl, rfl⟩

/-- In every run with `_next_seqno` below `2 ^ 63`, and for every ackno and window, an
acknowledgement and `fill_window` twice in a row create no segment in the second round if and only
if the sender before the first round meets the condition {lit}`QuietRepeat`. -/
theorem repeated_ack_quiet_iff (capacity : Nat) (retxTimeout : UInt16)
    (fixedIsn : Option WrappingInt32) (random : UInt32) (calls : List Call)
    (ackno : WrappingInt32) (windowSize : UInt16) :
    let t := run Trace.step (Trace.new capacity retxTimeout fixedIsn random) calls
    let once := run Trace.step t [.ackReceived ackno windowSize, .fillWindow]
    let twice := run Trace.step once [.ackReceived ackno windowSize, .fillWindow]
    t.sender.nextSeqno < 2 ^ 63 →
      (twice.created = once.created ↔ t.sender.QuietRepeat ackno windowSize) := by
  intro t once twice hnext
  obtain ⟨honce, -⟩ := round_run t ackno windowSize
  obtain ⟨-, htwice⟩ := round_run once ackno windowSize
  rw [htwice, honce, List.append_right_eq_self]
  exact newSegments_round_eq_nil_iff t.sender ackno windowSize hnext

/-- The acknowledgement of a byte in flight, repeated. -/
theorem repeated_ack_quiet_open :
    let t := run Trace.step (Trace.new 8 1000 (some ⟨0⟩) 0)
      [.fillWindow, .write [97, 98, 99], .ackReceived ⟨1⟩ 2, .fillWindow]
    let once := run Trace.step t [.ackReceived ⟨2⟩ 1, .fillWindow]
    let twice := run Trace.step once [.ackReceived ⟨2⟩ 1, .fillWindow]
    t.sender.QuietRepeat ⟨2⟩ 1 ∧ twice.created = once.created := by
  intro t once twice
  have hquiet : t.sender.QuietRepeat ⟨2⟩ 1 := by decide +kernel
  exact ⟨hquiet, (repeated_ack_quiet_iff 8 1000 (some ⟨0⟩) 0
    [.fillWindow, .write [97, 98, 99], .ackReceived ⟨1⟩ 2, .fillWindow] ⟨2⟩ 1
    (by decide +kernel)).mpr hquiet⟩

/-- A closed window acknowledged twice with two bytes to send lets the second one out. -/
theorem repeated_ack_quiet_fails :
    ¬ ∀ (capacity : Nat) (retxTimeout : UInt16) (fixedIsn : Option WrappingInt32)
      (random : UInt32) (calls : List Call) (ackno : WrappingInt32) (windowSize : UInt16),
      (run Trace.step (Trace.new capacity retxTimeout fixedIsn random)
          (calls ++ [.ackReceived ackno windowSize, .fillWindow, .ackReceived ackno windowSize,
            .fillWindow])).created =
        (run Trace.step (Trace.new capacity retxTimeout fixedIsn random)
          (calls ++ [.ackReceived ackno windowSize, .fillWindow])).created := by
  intro h
  have hbad := h 8 1000 (some ⟨0⟩) 0 [.fillWindow, .write [97, 98]] ⟨1⟩ 0
  exact absurd hbad (by decide +kernel)

-- An ackno beyond `_next_seqno`, refused at first and accepted after the SYN and a byte.
example : ¬ (run Trace.step (Trace.new 8 1000 (some ⟨0⟩) 0)
    [.write [97, 98]]).sender.QuietRepeat ⟨1⟩ 9 := by
  decide +kernel

end TCPSender
end Sponge
