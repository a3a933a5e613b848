import Sponge.TCPSender.Emission

/-!
# When `fill_window` has nothing to do

`fill_window` stops when the window is used up or when there is nothing left to send: the
SYN and the FIN, if the input has ended, are out, and the stream is empty.  The loop ends in
an idle state by whichever of its exits it is left, and so does the probe of a closed window;
an idle sender is not changed by `fill_window`.  So what a call sends can be read off the
state before it: what there is to send, as far as it fits into the window.

Main results:

- Theorem {lit}`idle_fillWindow`: `fill_window` ends in an idle state.
- Theorem {lit}`newSegments_eq_nil_iff`: it sends nothing exactly in idle states.
- Theorem {lit}`fillWindow_filled`: how much it sends, from the state before it.
-/

namespace Sponge

open Library

namespace TCPSender

variable {s : TCPSender}

/-! ## The closed window -/

/-- A probe is built unless the sender is drained. -/
theorem probeSegment_length_eq_zero_iff (s : TCPSender) :
    s.probeSegment.1.lengthInSequenceSpace = 0 ↔ s.Drained := by
  unfold probeSegment Drained
  by_cases hbuf : s.stream.bufferEmpty = false
  · have hsize : s.stream.curSize ≠ 0 := by
      simpa [ByteStream.bufferEmpty] using hbuf
    have hpeek : (s.stream.peekOutput 1).length ≠ 0 := by
      rw [ByteStream.peekOutput_eq, List.length_take, ByteStream.length_contents,
        ByteStream.bufferSize]
      omega
    simp [hbuf, ByteStream.read, TCPSegment.lengthInSequenceSpace] at hpeek ⊢
    exact hpeek
  · rw [Bool.not_eq_false] at hbuf
    cases hended : s.stream.inputEnded <;> cases hfin : s.fin <;>
      simp [hbuf, hended, ByteStream.eof, TCPSegment.lengthInSequenceSpace]

/-- A drained sender does not probe, and any other one uses up one. -/
theorem probeWindow_cases (s : TCPSender) :
    (s.Drained → s.probeWindow = s) ∧
      (¬ s.Drained → s.probeWindow.windowUsedSize = s.windowUsedSize + 1 ∧
        s.probeWindow.windowSize = s.windowSize) := by
  have hlength := s.probeSegment_length_eq_zero_iff
  constructor
  · intro hdrained
    have hsame : s.probeSegment.2 = s := by
      have hbuf : ¬ s.stream.bufferEmpty = false := by simp [hdrained.1]
      have hfin : ¬ (s.stream.eof = true ∧ s.fin = false) := by
        rintro ⟨heof, hfin⟩
        rw [ByteStream.eof, Bool.and_eq_true] at heof
        rw [hdrained.2 heof.1] at hfin
        cases hfin
      rw [probeSegment, if_neg hbuf, if_neg hfin]
    rw [probeWindow]
    simp only
    rw [if_pos (hlength.mpr hdrained), hsame]
  · intro hpending
    have hused : s.probeSegment.2.windowUsedSize = s.windowUsedSize ∧
        s.probeSegment.2.windowSize = s.windowSize := by
      unfold probeSegment
      split
      · exact ⟨rfl, rfl⟩
      · split <;> exact ⟨rfl, rfl⟩
    rw [probeWindow]
    simp only
    rw [if_neg (fun hzero => hpending (hlength.mp hzero))]
    exact ⟨congrArg (· + 1) hused.1, hused.2⟩

/-! ## The whole call -/

/-- `fill_window` ends in an idle state. -/
theorem idle_fillWindow (s : TCPSender) : s.fillWindow.Idle := by
  by_cases hclosed : s.windowSize = 0 ∧ s.windowUsedSize = 0
  · obtain ⟨hidle, hprobe⟩ := s.probeWindow_cases
    rw [fillWindow, if_pos hclosed]
    by_cases hdrained : s.Drained
    · rw [hidle hdrained, Idle, if_pos hclosed]
      exact hdrained
    · obtain ⟨hused, hsize⟩ := hprobe hdrained
      rw [Idle, if_neg (by omega)]
      exact Or.inl (by omega)
  · have hwindow := s.windowUnusedSize_eq
    have hleft := fillLoop_eq_fillWindow hclosed
      (show s.windowUnusedSize < s.windowSize + 1 by omega)
    obtain ⟨-, -, -, hidle⟩ := fillLoop_emits hclosed hleft
    exact hidle

/-- An idle sender is not changed by `fill_window`. -/
theorem fillWindow_of_idle (h : s.Idle) : s.fillWindow = s := by
  rw [fillWindow]
  split
  · rename_i hclosed
    rw [Idle, if_pos hclosed] at h
    exact s.probeWindow_cases.1 h
  · rename_i hopen
    rw [fillLoop_succ s.windowSize hopen, if_pos h]
    rfl

/-- `fill_window` sends nothing exactly in idle states. -/
theorem newSegments_eq_nil_iff (s : TCPSender) : s.newSegments = [] ↔ s.Idle := by
  constructor
  · intro hnone
    have hsame := s.fillWindow_eq_run
    rw [hnone] at hsame
    have hidle := s.idle_fillWindow
    rwa [hsame] at hidle
  · intro hidle
    rw [newSegments, fillWindow_of_idle hidle, List.drop_length]

/-- With the SYN unsent and some of the window unused, something is sent. -/
theorem newSegments_ne_nil (hsyned : s.syned = false) (hunused : s.windowUnusedSize ≠ 0) :
    s.newSegments ≠ [] := by
  have hwindow := s.windowUnusedSize_eq
  rw [ne_eq, newSegments_eq_nil_iff, Idle, if_neg (by omega), hsyned]
  rintro (hfull | ⟨hsyn, -⟩)
  · omega
  · cases hsyn

/-! ## How much is sent -/

/-- What is left to send behind the SYN: the buffered bytes, and the FIN if the input has
ended. -/
def unsent (s : TCPSender) : Nat :=
  s.stream.bufferSize + (s.stream.inputEnded && !s.fin).toNat

/-- The SYN goes out as soon as some of the window is unused. -/
def sendsSyn (s : TCPSender) : Bool :=
  !s.syned && decide (s.windowUsedSize < s.windowSize)

/-- How many sequence numbers `fill_window` sends.  A closed window is probed with one, and a SYN
into a free window of one takes a byte along; otherwise it is what there is, as far as it fits
into the window. -/
def fillSize (s : TCPSender) : Nat :=
  if s.windowSize = 0 ∧ s.windowUsedSize = 0 then min 1 s.unsent
  else if s.syned = false ∧ s.windowSize = s.windowUsedSize + 1 then 1 + min 1 s.stream.bufferSize
  else min (s.windowSize - s.windowUsedSize) (s.unsent + (!s.syned).toNat)

theorem drained_iff_unsent (s : TCPSender) : s.Drained ↔ s.unsent = 0 := by
  rw [Drained, unsent, ByteStream.bufferEmpty, beq_iff_eq, ByteStream.bufferSize,
    Nat.add_eq_zero_iff]
  cases s.stream.inputEnded <;> cases s.fin <;> simp

/-- An emission takes from what is unsent, except for the SYN. -/
theorem Sendable.unsent_emit {seg : TCPSegment} (h : Sendable s seg) :
    (s.emit seg).unsent + seg.lengthInSequenceSpace + s.syned.toNat =
      s.unsent + (s.emit seg).syned.toNat := by
  have hsize : seg.payload.length ≤ s.stream.bufferSize := by
    rw [h.payload_eq, List.length_take, ByteStream.length_contents]
    exact Nat.min_le_right _ _
  have hbuffer : (s.emit seg).stream.bufferSize = s.stream.bufferSize - seg.payload.length := by
    change s.stream.curSize - min s.stream.curSize seg.payload.length = _
    rw [ByteStream.bufferSize]
    omega
  have hended : (s.emit seg).stream.inputEnded = s.stream.inputEnded := rfl
  have hfin : (s.emit seg).fin = (s.fin || seg.header.fin) := rfl
  have hsyned : (s.emit seg).syned = (s.syned || seg.header.syn) := rfl
  have hsyn := h.syn_iff
  have hlast := h.fin_imp
  rw [unsent, unsent, hbuffer, hended, hfin, hsyned, TCPSegment.lengthInSequenceSpace]
  cases hs : seg.header.syn <;> cases hf : seg.header.fin <;> simp_all <;> omega

/-- What `fill_window` sends, from the state before it. -/
structure Filled (s s' : TCPSender) : Prop where
  nextSeqno_eq : s'.nextSeqno = s.nextSeqno + s.fillSize
  used_eq : s'.windowUsedSize = s.windowUsedSize + s.fillSize
  unsent_eq : s'.unsent + s.fillSize = s.unsent + s.sendsSyn.toNat
  syned_eq : s'.syned = (s.syned || s.sendsSyn)

/-- One emission of the right size. -/
theorem filled_emit {seg : TCPSegment} (hsend : Sendable s seg)
    (hsize : seg.lengthInSequenceSpace = s.fillSize)
    (hsyn : seg.header.syn = s.sendsSyn) : Filled s (s.emit seg) := by
  have hunsent := hsend.unsent_emit
  have hsyned : (s.emit seg).syned = (s.syned || s.sendsSyn) := by
    rw [← hsyn]
    rfl
  refine ⟨?_, ?_, ?_, hsyned⟩
  · rw [← hsize]
    rfl
  · rw [← hsize]
    rfl
  · rw [hsyned, hsize] at hunsent
    have hless : s.sendsSyn = true → s.syned = false := by
      intro h
      rw [sendsSyn, Bool.and_eq_true, Bool.not_eq_true'] at h
      exact h.1
    cases hs : s.syned <;> cases hg : s.sendsSyn <;> simp_all

/-- A closed window is probed with at most one sequence number. -/
theorem filled_probeWindow (hclosed : s.windowSize = 0 ∧ s.windowUsedSize = 0) :
    Filled s s.fillWindow := by
  have hsyn : s.sendsSyn = false := by
    rw [sendsSyn, hclosed.1, hclosed.2, Bool.and_eq_false_iff]
    exact Or.inr (by decide)
  have hsize : s.fillSize = min 1 s.unsent := if_pos hclosed
  by_cases hidle : s.Idle
  · have hzero : s.unsent = 0 := by
      rw [Idle, if_pos hclosed] at hidle
      exact s.drained_iff_unsent.mp hidle
    rw [fillWindow_of_idle hidle]
    refine ⟨?_, ?_, ?_, ?_⟩ <;> simp [hsize, hzero, hsyn]
  · have hne : s.fillWindow ≠ s := by
      intro hsame
      have := s.idle_fillWindow
      rw [hsame] at this
      exact hidle this
    rw [fillWindow, if_pos hclosed] at hne ⊢
    obtain ⟨seg, hsend, hone⟩ := (probeWindow_emits hclosed).resolve_left hne
    have hlength : seg.lengthInSequenceSpace = 1 := by
      rcases hsend.fits with ⟨-, -, hlength⟩ | ⟨hroom, -⟩
      · exact hlength
      · omega
    have hnosyn : seg.header.syn = s.sendsSyn := by
      rw [hsyn, ← Bool.not_eq_true, hsend.syn_iff]
      exact fun h => h.2 hclosed
    have hunsent : s.unsent ≠ 0 := by
      rw [Idle, if_pos hclosed, drained_iff_unsent] at hidle
      exact hidle
    rw [hone]
    exact filled_emit hsend (by omega) hnosyn

/-- A SYN into a free window of one goes out with a byte, if there is one, and nothing else. -/
theorem filled_syn_into_one (hsyned : s.syned = false)
    (hroom : s.windowSize = s.windowUsedSize + 1) : Filled s s.fillWindow := by
  have hopen : ¬ (s.windowSize = 0 ∧ s.windowUsedSize = 0) := by omega
  have hunused : s.windowUnusedSize = 1 := by
    rw [windowUnusedSize_eq]
    omega
  have hbusy : ¬ s.Idle := by
    rw [Idle, if_neg hopen, hsyned]
    rintro (hfull | ⟨hsyn, -⟩)
    · omega
    · cases hsyn
  have hsend := sendable_of_not_idle hopen hbusy
  have hpayload : s.nextSegment.1.payload.length = min 1 s.stream.bufferSize := by
    rw [payload_nextSegment, hunused, hsyned, List.length_take, ByteStream.length_contents]
    rfl
  have hsyn : s.nextSegment.1.header.syn = true := by
    change (!s.syned) = true
    rw [hsyned]
    rfl
  have hfin : s.nextSegment.1.header.fin = false := by
    rw [← Bool.not_eq_true]
    intro hfin
    have := (s.fin_nextSegment hfin).2.2.2
    rw [hunused, hsyned] at this
    simp at this
  have hsize : s.nextSegment.1.lengthInSequenceSpace = s.fillSize := by
    have hfill : s.fillSize = 1 + min 1 s.stream.bufferSize := by
      rw [fillSize, if_neg hopen, if_pos ⟨hsyned, hroom⟩]
    rw [hfill, TCPSegment.lengthInSequenceSpace, hpayload, hsyn, hfin]
    simp
    omega
  have hidle : (s.emit s.nextSegment.1).Idle := by
    rw [Idle, if_neg hsend.open_emit]
    refine Or.inl ?_
    change s.windowSize ≤ s.windowUsedSize + s.nextSegment.1.lengthInSequenceSpace
    have := hsend.length_pos
    omega
  -- The first round uses up the window and the second one leaves the loop.
  have hone : some s.fillWindow = some (s.emit s.nextSegment.1) := by
    rw [← fillLoop_eq_fillWindow hopen (show s.windowUnusedSize < 2 by omega),
      fillLoop_succ 1 hopen, if_neg hbusy, fillLoop_succ 0 hsend.open_emit, if_pos hidle]
  rw [Option.some_inj.mp hone]
  refine filled_emit hsend hsize ?_
  rw [hsyn, sendsSyn, hsyned]
  simp
  omega

/-- What holds while an open window is filled: no emission goes beyond the window, and what is
sent is taken from what was unsent, except for the SYN. -/
structure Filling (s s' : TCPSender) : Prop where
  windowSize_eq : s'.windowSize = s.windowSize
  used_le : s'.windowUsedSize ≤ s'.windowSize
  syned_or : s'.syned = true ∨ s'.windowUsedSize + 1 < s'.windowSize
  unsent_eq : s'.unsent + s'.windowUsedSize + s.syned.toNat =
    s.unsent + s.windowUsedSize + s'.syned.toNat

theorem Filling.emit {s' : TCPSender} {seg : TCPSegment} (h : Filling s s')
    (hopen : s.windowSize ≠ 0) (hsend : Sendable s' seg) : Filling s (s'.emit seg) := by
  have hunsent := hsend.unsent_emit
  have hold := h.unsent_eq
  have hwindow := h.windowSize_eq
  have hused : (s'.emit seg).windowUsedSize = s'.windowUsedSize + seg.lengthInSequenceSpace := rfl
  have hsize : (s'.emit seg).windowSize = s'.windowSize := rfl
  refine ⟨h.windowSize_eq, ?_, Or.inl ?_, by omega⟩
  · rw [hused, hsize]
    rcases hsend.fits with ⟨hclosed, -⟩ | ⟨-, hfits | ⟨hsyn, -, -, hone⟩⟩
    · omega
    · exact hfits
    · rcases h.syned_or with hsyned | hroom
      · rw [(hsend.syn_iff.mp hsyn).1] at hsyned
        cases hsyned
      · omega
  · change (s'.syned || seg.header.syn) = true
    cases hsyned : s'.syned with
    | true => rfl
    | false => exact hsend.syn_iff.mpr ⟨hsyned, by omega⟩

/-- Otherwise the window is filled as far as there is something to send. -/
theorem filled_open (hunused : s.windowUsedSize < s.windowSize)
    (hroom : s.syned = true ∨ s.windowUsedSize + 1 < s.windowSize) : Filled s s.fillWindow := by
  have hemit := s.fillWindow_emitted
  have hfilling : Filling s s.fillWindow := by
    rw [fillWindow_eq_run]
    exact Admissible.invariant (fun _ _ h hsend => h.emit (by omega) hsend)
      (⟨rfl, hunused.le, hroom, rfl⟩ : Filling s s) s.admissible_newSegments
  have hidle := s.idle_fillWindow
  have hwindow := hfilling.windowSize_eq
  have hle := hfilling.used_le
  rw [Idle, if_neg (by omega), drained_iff_unsent] at hidle
  have hsyned : s.fillWindow.syned = true := by
    rcases hidle with hfull | ⟨hsyned, -⟩
    · exact hfilling.syned_or.resolve_right (by omega)
    · exact hsyned
  have hfill : s.fillSize =
      min (s.windowSize - s.windowUsedSize) (s.unsent + (!s.syned).toNat) := by
    rw [fillSize, if_neg (by omega), if_neg]
    rintro ⟨hnot, hone⟩
    rcases hroom with hyes | hmore
    · rw [hnot] at hyes
      cases hyes
    · omega
  have hconserved := hfilling.unsent_eq
  have hsyn : s.sendsSyn = !s.syned := by
    rw [sendsSyn, decide_eq_true hunused, Bool.and_true]
  have hnot : (!s.syned).toNat + s.syned.toNat = 1 := by
    cases s.syned <;> rfl
  rw [hsyned, Bool.toNat_true] at hconserved
  have hused : s.fillWindow.windowUsedSize = s.windowUsedSize + s.fillSize := by
    rw [hfill]
    rcases hidle with hfull | ⟨-, hzero⟩ <;> omega
  refine ⟨?_, hused, ?_, ?_⟩
  · have hnext := hemit.nextSeqno_eq
    have hextent := hemit.used_eq
    omega
  · rw [hsyn]
    omega
  · rw [hsyned, hsyn, Bool.or_not_self]

/-- `fill_window` sends what the state before it says. -/
theorem fillWindow_filled (s : TCPSender) : Filled s s.fillWindow := by
  by_cases hclosed : s.windowSize = 0 ∧ s.windowUsedSize = 0
  · exact filled_probeWindow hclosed
  · by_cases hunused : s.windowUsedSize < s.windowSize
    · by_cases hone : s.syned = false ∧ s.windowSize = s.windowUsedSize + 1
      · exact filled_syn_into_one hone.1 hone.2
      · refine filled_open hunused ?_
        cases hsyned : s.syned with
        | true => exact Or.inl rfl
        | false =>
            have hmore : s.windowSize ≠ s.windowUsedSize + 1 := fun h => hone ⟨hsyned, h⟩
            exact Or.inr (by omega)
    · -- The window is used up, and nothing is sent.
      have hidle : s.Idle := by
        rw [Idle, if_neg hclosed]
        exact Or.inl (by omega)
      have hfill : s.fillSize = 0 := by
        rw [fillSize, if_neg hclosed, if_neg (by omega)]
        omega
      have hsyn : s.sendsSyn = false := by
        rw [sendsSyn, decide_eq_false hunused, Bool.and_false]
      rw [fillWindow_of_idle hidle]
      refine ⟨?_, ?_, ?_, ?_⟩ <;> simp [hfill, hsyn]

/-- There is room for one more sequence number in a window of a size with a used part, or it goes
out as a probe. -/
def HasRoom (window : Nat × Nat) : Prop :=
  window.2 < window.1 ∨ (window.1 = 0 ∧ window.2 = 0)

instance (window : Nat × Nat) : Decidable (HasRoom window) :=
  inferInstanceAs (Decidable (_ ∨ (_ ∧ _)))

/-- If at most the FIN is left to send and there is room for it, it goes out. -/
theorem fin_fillWindow (hsyned : s.syned = true) (heof : s.stream.eof = true)
    (hroom : HasRoom (s.windowSize, s.windowUsedSize)) : s.fillWindow.fin = true := by
  rw [ByteStream.eof, Bool.and_eq_true, ByteStream.bufferEmpty, beq_iff_eq] at heof
  have hsent := s.fillWindow_filled.unsent_eq
  have hsyn : s.sendsSyn = false := by
    rw [sendsSyn, hsyned]
    rfl
  have hone : s.unsent ≤ 1 := by
    rw [unsent, ByteStream.bufferSize, heof.2, Nat.zero_add]
    exact Bool.toNat_le _
  have hfill : s.fillSize = s.unsent := by
    rw [fillSize, hsyned]
    simp only [Bool.true_eq_false, false_and, if_false, Bool.not_true, Bool.toNat_false,
      Nat.add_zero]
    rcases hroom with hunused | hclosed
    · change s.windowUsedSize < s.windowSize at hunused
      rw [if_neg (by omega)]
      omega
    · rw [if_pos hclosed]
      omega
  rw [hsyn, hfill, Bool.toNat_false] at hsent
  have hdrained := s.fillWindow.drained_iff_unsent.mpr (by omega)
  exact hdrained.2 (s.fillWindow_keeps (P := fun stream => stream.inputEnded = true)
    (fun _ _ h => h) heof.1)

end TCPSender
end Sponge
