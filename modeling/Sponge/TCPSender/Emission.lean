import Sponge.Library.Execution
import Sponge.Library.Tiling
import Sponge.TCPSender.Model

/-!
# What `fill_window` sends

`fill_window` is a sequence of single emissions: each takes the next bytes of the
stream, perhaps with the SYN in front or the FIN behind, and records the segment.
`Sendable` says which segments an emission may send, for both branches of the source,
and every later fact about `fill_window` follows from it by induction over the
emissions.  `Idle` says when `fill_window` stops, so that its loop is: emit until idle.

Main results:

- Theorem {lit}`fillWindow_eq_run`: `fill_window` is a run of emissions.
- Theorem {lit}`fillWindow_emitted`: what these emissions add.
- Theorem {lit}`fillLoop_eq_fillWindow`: the loop is left by one of its own exits.
-/

namespace Sponge

open Library

namespace TCPSender

/-- The sender behind the emission of `seg`. -/
def emit (s : TCPSender) (seg : TCPSegment) : TCPSender :=
  { s with
    stream := s.stream.popOutput seg.payload.length
    syned := s.syned || seg.header.syn
    fin := s.fin || seg.header.fin }.sendSegment seg seg.lengthInSequenceSpace

/-- The room that an emission takes in the window.  On a closed window it is one, and
otherwise it fits into what is unused, except that a SYN sent into a window of one takes
a first byte along. -/
def Fits (s : TCPSender) (seg : TCPSegment) : Prop :=
  (s.windowSize = 0 ∧ s.windowUsedSize = 0 ∧ seg.lengthInSequenceSpace = 1) ∨
    (s.windowUsedSize < s.windowSize ∧
      (s.windowUsedSize + seg.lengthInSequenceSpace ≤ s.windowSize ∨
        (seg.header.syn = true ∧ seg.header.fin = false ∧ seg.payload.length = 1 ∧
          s.windowSize = s.windowUsedSize + 1)))

/-- The segments that `fill_window` may send next. -/
structure Sendable (s : TCPSender) (seg : TCPSegment) : Prop where
  header_eq : seg.header =
    { seqno := wrap s.nextSeqno s.isn, syn := seg.header.syn, fin := seg.header.fin }
  payload_eq : seg.payload = s.stream.contents.take seg.payload.length
  payload_le : seg.payload.length ≤ TCPConfig.maxPayloadSize
  length_pos : 0 < seg.lengthInSequenceSpace
  syn_iff : seg.header.syn = true ↔
    s.syned = false ∧ ¬ (s.windowSize = 0 ∧ s.windowUsedSize = 0)
  fin_imp : seg.header.fin = true →
    s.fin = false ∧ s.stream.inputEnded = true ∧ seg.payload = s.stream.contents
  fits : Fits s seg

variable {s : TCPSender} {segs : List TCPSegment}

/-! ## The closed window -/

/-- On a closed window at most one segment is sent. -/
theorem probeWindow_emits (hzero : s.windowSize = 0 ∧ s.windowUsedSize = 0) :
    s.probeWindow = s ∨ ∃ seg, Sendable s seg ∧ s.probeWindow = s.emit seg := by
  unfold probeWindow probeSegment
  by_cases hbuf : s.stream.bufferEmpty = false
  · right
    have hne : s.stream.contents ≠ [] := by
      intro hnil
      rw [← s.stream.bufferEmpty_iff, hbuf] at hnil
      cases hnil
    obtain ⟨b, rest, hcontents⟩ := List.exists_cons_of_ne_nil hne
    have hpeek : s.stream.peekOutput 1 = [b] := by
      rw [ByteStream.peekOutput_eq, hcontents]
      rfl
    refine ⟨{ header := { seqno := wrap s.nextSeqno s.isn }, payload := [b] }, ?_, ?_⟩
    · exact
        { header_eq := rfl
          payload_eq := by simp [hcontents]
          payload_le := by simp [TCPConfig.maxPayloadSize]
          length_pos := by simp [TCPSegment.lengthInSequenceSpace]
          syn_iff := by simp [hzero]
          fin_imp := by simp
          fits := Or.inl ⟨hzero.1, hzero.2, by simp [TCPSegment.lengthInSequenceSpace]⟩ }
    · simp [hbuf, ByteStream.read, hpeek, TCPSegment.lengthInSequenceSpace, emit, sendSegment]
  · rw [Bool.not_eq_false] at hbuf
    by_cases hfin : s.stream.eof = true ∧ s.fin = false
    · right
      have hnil := s.stream.bufferEmpty_iff.mp hbuf
      refine ⟨{ header := { seqno := wrap s.nextSeqno s.isn, fin := true } }, ?_, ?_⟩
      · exact
          { header_eq := rfl
            payload_eq := by simp
            payload_le := by simp
            length_pos := by simp [TCPSegment.lengthInSequenceSpace]
            syn_iff := by simp [hzero]
            fin_imp := by
              intro _
              have heof := hfin.1
              rw [ByteStream.eof, Bool.and_eq_true] at heof
              exact ⟨hfin.2, heof.1, hnil.symm⟩
            fits := Or.inl ⟨hzero.1, hzero.2, by simp [TCPSegment.lengthInSequenceSpace]⟩ }
      · simp [hbuf, hfin, TCPSegment.lengthInSequenceSpace, emit, sendSegment,
          ByteStream.popOutput_zero]
    · left
      simp [hbuf, hfin, TCPSegment.lengthInSequenceSpace]

/-! ## The open window -/

theorem windowUnusedSize_eq (s : TCPSender) :
    s.windowUnusedSize = s.windowSize - s.windowUsedSize := by
  unfold windowUnusedSize
  split <;> omega

/-- The bytes that the next round takes. -/
theorem payload_nextSegment (s : TCPSender) :
    s.nextSegment.1.payload =
      s.stream.contents.take (payloadSize s.windowUnusedSize !s.syned) :=
  s.stream.peekOutput_eq _

theorem stream_nextSegment (s : TCPSender) :
    s.nextSegment.2.stream = s.stream.popOutput s.nextSegment.1.payload.length :=
  (s.stream.popOutput_length_peekOutput _).symm

/-- The FIN goes out when the stream is at its end and there is room for it. -/
theorem fin_nextSegment (s : TCPSender) (h : s.nextSegment.1.header.fin = true) :
    s.fin = false ∧ s.stream.inputEnded = true ∧ s.nextSegment.1.payload = s.stream.contents ∧
      s.nextSegment.1.payload.length + (!s.syned).toNat < s.windowUnusedSize := by
  simp only [nextSegment, ByteStream.read, Bool.and_eq_true, Bool.not_eq_true'] at h
  obtain ⟨⟨heof, hfin⟩, hroom⟩ := h
  rw [ByteStream.eof, Bool.and_eq_true] at heof
  refine ⟨hfin, heof.1, ?_, of_decide_eq_true hroom⟩
  -- Nothing is left behind the bytes taken, so they were all there was.
  have hleft := (ByteStream.bufferEmpty_iff _).mp heof.2
  rw [ByteStream.contents_popOutput] at hleft
  rw [payload_nextSegment]
  conv_rhs => rw [← List.take_append_drop (payloadSize s.windowUnusedSize !s.syned)
    s.stream.contents, hleft, List.append_nil]

/-- A round into an open window fits, or is a SYN with one byte into a window of one. -/
theorem fits_nextSegment (hunused : s.windowUnusedSize ≠ 0) : Fits s s.nextSegment.1 := by
  have hwindow := s.windowUnusedSize_eq
  have hpayload : s.nextSegment.1.payload.length ≤
      payloadSize s.windowUnusedSize !s.syned := by
    rw [payload_nextSegment]
    exact List.length_take_le _ _
  have hsyn : s.nextSegment.1.header.syn = !s.syned := rfl
  refine Or.inr ⟨by omega, ?_⟩
  unfold payloadSize TCPConfig.maxPayloadSize at hpayload
  rw [TCPSegment.lengthInSequenceSpace, hsyn]
  cases hfin : s.nextSegment.1.header.fin with
  | true =>
      left
      have hroom := (s.fin_nextSegment hfin).2.2.2
      cases hsyned : s.syned <;> simp [hsyned] at hroom ⊢ <;> omega
  | false =>
      cases hsyned : s.syned with
      | true =>
          left
          simp [hsyned] at hpayload ⊢
          omega
      | false =>
          simp [hsyned] at hpayload ⊢
          omega

/-- A round of the loop that sends something is an emission. -/
theorem nextSegment_sendable (hopen : ¬ (s.windowSize = 0 ∧ s.windowUsedSize = 0))
    (hunused : s.windowUnusedSize ≠ 0) (hpos : s.nextSegment.1.lengthInSequenceSpace ≠ 0) :
    Sendable s s.nextSegment.1 where
  header_eq := rfl
  payload_eq := by
    rw [payload_nextSegment, List.length_take, ← List.take_take, List.take_length]
  payload_le := by
    have hpayload : s.nextSegment.1.payload.length ≤
        payloadSize s.windowUnusedSize !s.syned := by
      rw [payload_nextSegment]
      exact List.length_take_le _ _
    unfold payloadSize TCPConfig.maxPayloadSize at hpayload
    unfold TCPConfig.maxPayloadSize
    omega
  length_pos := Nat.pos_of_ne_zero hpos
  syn_iff := by
    have hsyn : s.nextSegment.1.header.syn = !s.syned := rfl
    rw [hsyn, Bool.not_eq_true']
    exact ⟨fun h => ⟨h, hopen⟩, fun h => h.1⟩
  fin_imp := by
    intro hfin
    obtain ⟨hnot, hended, hall, -⟩ := s.fin_nextSegment hfin
    exact ⟨hnot, hended, hall⟩
  fits := fits_nextSegment hunused

/-- The sender behind a round is the one behind the emission. -/
theorem sendSegment_nextSegment (s : TCPSender) :
    s.nextSegment.2.sendSegment s.nextSegment.1 s.nextSegment.1.lengthInSequenceSpace =
      s.emit s.nextSegment.1 := by
  have hsyned : s.nextSegment.2.syned = (s.syned || s.nextSegment.1.header.syn) := by
    change true = (s.syned || !s.syned)
    rw [Bool.or_not_self]
  simp only [emit, ← stream_nextSegment, ← hsyned]
  rfl

/-- A round that sends nothing changes nothing. -/
theorem nextSegment_snd_eq_self (hzero : s.nextSegment.1.lengthInSequenceSpace = 0) :
    s.nextSegment.2 = s := by
  rw [TCPSegment.lengthInSequenceSpace] at hzero
  have hpayload : s.nextSegment.1.payload.length = 0 := by omega
  have hsyn : s.nextSegment.1.header.syn = false := by
    by_contra h
    rw [Bool.not_eq_false] at h
    simp [h] at hzero
  have hfin : s.nextSegment.1.header.fin = false := by
    by_contra h
    rw [Bool.not_eq_false] at h
    simp [h] at hzero
  have hstream := s.stream_nextSegment
  rw [hpayload, ByteStream.popOutput_zero] at hstream
  have hsyned : s.syned = true := by
    simpa using (show (!s.syned) = false from hsyn)
  have hsame : s.nextSegment.2 = { s with
      stream := s.nextSegment.2.stream
      syned := true
      fin := s.fin || s.nextSegment.1.header.fin } := rfl
  rw [hsame, hstream, hfin, Bool.or_false, ← hsyned]

/-! ## The loop -/

/-- Nothing is left in the stream, and the FIN is out if the input has ended. -/
def Drained (s : TCPSender) : Prop :=
  s.stream.bufferEmpty = true ∧ (s.stream.inputEnded = true → s.fin = true)

instance (s : TCPSender) : Decidable s.Drained :=
  inferInstanceAs (Decidable (_ ∧ (_ → _)))

/-- On a closed window with nothing used, a sender that is drained is idle.  Otherwise it is
idle if the window is used up, or if it is drained and the SYN is out. -/
def Idle (s : TCPSender) : Prop :=
  if s.windowSize = 0 ∧ s.windowUsedSize = 0 then s.Drained
  else s.windowSize ≤ s.windowUsedSize ∨ s.syned = true ∧ s.Drained

instance (s : TCPSender) : Decidable s.Idle :=
  inferInstanceAs (Decidable (if s.windowSize = 0 ∧ s.windowUsedSize = 0 then s.Drained
    else s.windowSize ≤ s.windowUsedSize ∨ s.syned = true ∧ s.Drained))

/-- A round into an open window sends nothing exactly if nothing is left to send. -/
theorem nextSegment_length_eq_zero_iff (hunused : s.windowUnusedSize ≠ 0) :
    s.nextSegment.1.lengthInSequenceSpace = 0 ↔ s.syned = true ∧ s.Drained := by
  have hpayload := s.payload_nextSegment
  have hlength : s.nextSegment.1.payload.length =
      min (payloadSize s.windowUnusedSize !s.syned) s.stream.bufferSize := by
    rw [hpayload, List.length_take, ByteStream.length_contents]
  have hpositive : 1 ≤ payloadSize s.windowUnusedSize !s.syned := Nat.le_max_left _ _
  have hempty : s.stream.bufferEmpty = true ↔ s.stream.bufferSize = 0 := by
    rw [ByteStream.bufferEmpty, beq_iff_eq, ByteStream.bufferSize]
  constructor
  · intro hzero
    have hself := nextSegment_snd_eq_self hzero
    rw [TCPSegment.lengthInSequenceSpace] at hzero
    have hsyned : s.syned = true := congrArg TCPSender.syned hself.symm
    have hbuf : s.stream.bufferEmpty = true := by
      rw [hempty]
      omega
    refine ⟨hsyned, hbuf, fun hended => ?_⟩
    -- The stream is at its end and there is room, so an unsent FIN would have gone out.
    have hfin : s.fin = (s.fin || (s.nextSegment.2.stream.eof && !s.fin &&
        decide (s.nextSegment.1.payload.length + (!s.syned).toNat < s.windowUnusedSize))) :=
      congrArg TCPSender.fin hself.symm
    have hroom : s.nextSegment.1.payload.length + (!s.syned).toNat < s.windowUnusedSize := by
      rw [hsyned]
      simp only [Bool.not_true, Bool.toNat_false]
      omega
    rw [hself, ByteStream.eof, hended, hbuf] at hfin
    by_contra hnot
    rw [Bool.not_eq_true] at hnot
    simp [hnot, hroom] at hfin
  · rintro ⟨hsyned, hbuf, hfin⟩
    have hnone : s.nextSegment.1.payload.length = 0 := by
      rw [hlength, hempty.mp hbuf, Nat.min_zero]
    have hsyn : s.nextSegment.1.header.syn = false := by
      change (!s.syned) = false
      rw [hsyned]
      rfl
    have hnofin : s.nextSegment.1.header.fin = false := by
      by_contra hsends
      rw [Bool.not_eq_false] at hsends
      obtain ⟨hunsent, hended, -⟩ := s.fin_nextSegment hsends
      rw [hfin hended] at hunsent
      cases hunsent
    rw [TCPSegment.lengthInSequenceSpace, hnone, hsyn, hnofin]
    rfl

/-- A round of the loop: an idle sender leaves it, and any other one emits a segment. -/
theorem fillLoop_succ (fuel : Nat) (hopen : ¬ (s.windowSize = 0 ∧ s.windowUsedSize = 0)) :
    fillLoop (fuel + 1) s =
      if s.Idle then some s else fillLoop fuel (s.emit s.nextSegment.1) := by
  have hwindow := s.windowUnusedSize_eq
  simp only [fillLoop, Idle, if_neg hopen]
  by_cases hunused : s.windowUnusedSize = 0
  · rw [if_pos hunused, ite_self, if_pos (Or.inl (by omega))]
  · have hfull : ¬ s.windowSize ≤ s.windowUsedSize := by omega
    have hzero := nextSegment_length_eq_zero_iff hunused
    rw [if_neg hunused]
    by_cases hdone : s.syned = true ∧ s.Drained
    · rw [if_pos (hzero.mpr hdone), nextSegment_snd_eq_self (hzero.mpr hdone), ite_self,
        if_pos (Or.inr hdone)]
    · have hbusy : s.stream.bufferEmpty = false ∨ s.syned = false ∨ s.fin = false := by
        by_contra hexit
        rw [not_or, not_or, Bool.not_eq_false, Bool.not_eq_false, Bool.not_eq_false] at hexit
        exact hdone ⟨hexit.2.1, hexit.1, fun _ => hexit.2.2⟩
      rw [if_pos hbusy, if_neg (mt hzero.mp hdone), sendSegment_nextSegment,
        if_neg (not_or.mpr ⟨hfull, hdone⟩)]

/-- The round of a sender that is not idle is an emission. -/
theorem sendable_of_not_idle (hopen : ¬ (s.windowSize = 0 ∧ s.windowUsedSize = 0))
    (hbusy : ¬ s.Idle) : Sendable s s.nextSegment.1 := by
  have hwindow := s.windowUnusedSize_eq
  rw [Idle, if_neg hopen, not_or] at hbusy
  have hunused : s.windowUnusedSize ≠ 0 := by omega
  exact nextSegment_sendable hopen hunused
    (mt (nextSegment_length_eq_zero_iff hunused).mp hbusy.2)

/-- Behind an emission some of the window is used. -/
theorem Sendable.open_emit {seg : TCPSegment} (h : Sendable s seg) :
    ¬ ((s.emit seg).windowSize = 0 ∧ (s.emit seg).windowUsedSize = 0) := by
  rintro ⟨-, hused⟩
  change s.windowUsedSize + seg.lengthInSequenceSpace = 0 at hused
  have hpos := h.length_pos
  omega

/-- The loop is a run of emissions, and it is left in an idle state. -/
theorem fillLoop_emits {fuel : Nat} {s s' : TCPSender}
    (hopen : ¬ (s.windowSize = 0 ∧ s.windowUsedSize = 0)) (h : fillLoop fuel s = some s') :
    ∃ segs, Admissible emit Sendable s segs ∧ s' = run emit s segs ∧ s'.Idle := by
  induction fuel generalizing s with
  | zero => cases h
  | succ fuel ih =>
      rw [fillLoop_succ fuel hopen] at h
      split at h
      · rename_i hidle
        cases h
        exact ⟨[], trivial, rfl, hidle⟩
      · rename_i hbusy
        have hsend := sendable_of_not_idle hopen hbusy
        obtain ⟨segs, hadm, hrun, hidle⟩ := ih hsend.open_emit h
        exact ⟨s.nextSegment.1 :: segs, ⟨hsend, hadm⟩, hrun, hidle⟩

/-- The loop is left with any fuel beyond the unused part of the window, and always with the
same result: every emission uses up a part of the window. -/
theorem exists_fillLoop (s : TCPSender) (hopen : ¬ (s.windowSize = 0 ∧ s.windowUsedSize = 0)) :
    ∃ s', ∀ fuel, s.windowUnusedSize < fuel → fillLoop fuel s = some s' := by
  induction hunused : s.windowUnusedSize using Nat.strong_induction_on generalizing s with
  | _ unused ih =>
      subst hunused
      by_cases hidle : s.Idle
      · refine ⟨s, fun fuel hfuel => ?_⟩
        obtain ⟨fuel, rfl⟩ := Nat.exists_eq_add_one_of_ne_zero (Nat.ne_zero_of_lt hfuel)
        rw [fillLoop_succ fuel hopen, if_pos hidle]
      · have hsend := sendable_of_not_idle hopen hidle
        have hless : (s.emit s.nextSegment.1).windowUnusedSize < s.windowUnusedSize := by
          have hpos := hsend.length_pos
          rw [Idle, if_neg hopen, not_or] at hidle
          rw [windowUnusedSize_eq, windowUnusedSize_eq]
          change s.windowSize - (s.windowUsedSize + _) < _
          omega
        obtain ⟨s', hleft⟩ := ih _ hless _ hsend.open_emit rfl
        refine ⟨s', fun fuel hfuel => ?_⟩
        obtain ⟨fuel, rfl⟩ := Nat.exists_eq_add_one_of_ne_zero (Nat.ne_zero_of_lt hfuel)
        rw [fillLoop_succ fuel hopen, if_neg hidle]
        exact hleft fuel (by omega)

/-- With enough fuel the loop returns, and what it returns is the result of `fill_window`. -/
theorem fillLoop_eq_fillWindow {fuel : Nat}
    (hopen : ¬ (s.windowSize = 0 ∧ s.windowUsedSize = 0)) (hfuel : s.windowUnusedSize < fuel) :
    fillLoop fuel s = some s.fillWindow := by
  have hwindow := s.windowUnusedSize_eq
  obtain ⟨s', hleft⟩ := s.exists_fillLoop hopen
  rw [fillWindow, if_neg hopen, hleft fuel hfuel, hleft (s.windowSize + 1) (by omega)]
  rfl

/-! ## The whole call -/

/-- `fill_window` is a run of emissions. -/
theorem fillWindow_emits (s : TCPSender) :
    ∃ segs, Admissible emit Sendable s segs ∧ s.fillWindow = run emit s segs := by
  by_cases hopen : s.windowSize = 0 ∧ s.windowUsedSize = 0
  · rw [fillWindow, if_pos hopen]
    rcases probeWindow_emits hopen with hnone | ⟨seg, hsend, hone⟩
    · exact ⟨[], trivial, hnone⟩
    · exact ⟨[seg], ⟨hsend, trivial⟩, hone⟩
  · have hwindow := s.windowUnusedSize_eq
    have hleft := fillLoop_eq_fillWindow hopen (show s.windowUnusedSize < s.windowSize + 1 by omega)
    obtain ⟨segs, hadm, hrun, -⟩ := fillLoop_emits hopen hleft
    exact ⟨segs, hadm, hrun⟩

/-! ## What emissions add -/

/-- What a run of emissions adds. -/
structure Emitted (s : TCPSender) (segs : List TCPSegment) (s' : TCPSender) : Prop where
  segmentsOut_eq : s'.segmentsOut = s.segmentsOut ++ segs
  cache_eq : s'.tcpSegCache.map Prod.snd = s.tcpSegCache.map Prod.snd ++ segs
  nextSeqno_eq : s'.nextSeqno = s.nextSeqno + extent TCPSegment.lengthInSequenceSpace segs
  used_eq : s'.windowUsedSize =
    s.windowUsedSize + extent TCPSegment.lengthInSequenceSpace segs
  used_le : segs ≠ [] → s'.windowUsedSize ≤ s.windowSize + 1
  isn_eq : s'.isn = s.isn
  windowSize_eq : s'.windowSize = s.windowSize
  latestAckno_eq : s'.latestAckno = s.latestAckno

theorem emitted_of_admissible (s : TCPSender) (segs : List TCPSegment)
    (h : Admissible emit Sendable s segs) : Emitted s segs (run emit s segs) := by
  have hstep : ∀ done s' seg, Emitted s done s' → Sendable s' seg →
      Emitted s (done ++ [seg]) (s'.emit seg) := by
    intro done s' seg hdone hsend
    have hextent : extent TCPSegment.lengthInSequenceSpace (done ++ [seg]) =
        extent TCPSegment.lengthInSequenceSpace done + seg.lengthInSequenceSpace := by
      rw [extent_append, extent_cons, extent_nil, Nat.add_zero]
    refine ⟨?_, ?_, ?_, ?_, ?_, hdone.isn_eq, hdone.windowSize_eq, hdone.latestAckno_eq⟩
    · rw [← List.append_assoc, ← hdone.segmentsOut_eq]
      rfl
    · rw [← List.append_assoc, ← hdone.cache_eq]
      simp [emit, sendSegment]
    · rw [hextent, ← Nat.add_assoc, ← hdone.nextSeqno_eq]
      rfl
    · rw [hextent, ← Nat.add_assoc, ← hdone.used_eq]
      rfl
    · intro _
      change s'.windowUsedSize + seg.lengthInSequenceSpace ≤ s.windowSize + 1
      have hwindow := hdone.windowSize_eq
      rcases hsend.fits with hclosed | ⟨hopen, hfits | ⟨hsyn, hfin, hone, hroom⟩⟩
      · omega
      · omega
      · rw [TCPSegment.lengthInSequenceSpace, hsyn, hfin, hone]
        simp
        omega
  have hstart : Emitted s [] s := by
    refine ⟨by simp, by simp, by simp, by simp, ?_, rfl, rfl, rfl⟩
    intro hne
    exact absurd rfl hne
  have hrun := h.history hstep hstart
  rwa [List.nil_append] at hrun

/-- `fill_window` moves `_next_seqno` by at most the window and one. -/
theorem Emitted.nextSeqno_le {s' : TCPSender} (h : Emitted s segs s') :
    s'.nextSeqno ≤ s.nextSeqno + s.windowSize + 1 := by
  have hnext := h.nextSeqno_eq
  have hused := h.used_eq
  by_cases hnil : segs = []
  · rw [hnil, extent_nil] at hnext
    omega
  · have := h.used_le hnil
    omega

/-! ## The new segments -/

/-- The segments that a call of `fill_window` adds to the queue. -/
def newSegments (s : TCPSender) : List TCPSegment :=
  s.fillWindow.segmentsOut.drop s.segmentsOut.length

theorem newSegments_eq (hadm : Admissible emit Sendable s segs)
    (hrun : s.fillWindow = run emit s segs) : s.newSegments = segs := by
  rw [newSegments, hrun, (emitted_of_admissible s segs hadm).segmentsOut_eq, List.drop_left]

/-- The new segments are a run of emissions. -/
theorem admissible_newSegments (s : TCPSender) : Admissible emit Sendable s s.newSegments := by
  obtain ⟨segs, hadm, hrun⟩ := s.fillWindow_emits
  rw [newSegments_eq hadm hrun]
  exact hadm

/-- `fill_window` emits the new segments, and nothing else. -/
theorem fillWindow_eq_run (s : TCPSender) : s.fillWindow = run emit s s.newSegments := by
  obtain ⟨segs, hadm, hrun⟩ := s.fillWindow_emits
  rw [newSegments_eq hadm hrun, hrun]

/-- Every segment that `fill_window` creates takes sequence numbers. -/
theorem length_pos_of_mem_newSegments {seg : TCPSegment} (hseg : seg ∈ s.newSegments) :
    0 < seg.lengthInSequenceSpace := by
  have hnone : ∀ x ∈ ([] : List TCPSegment), 0 < x.lengthInSequenceSpace := by simp
  refine s.admissible_newSegments.history
    (I := fun done _ => ∀ x ∈ done, 0 < x.lengthInSequenceSpace) ?_ hnone seg hseg
  intro done s' x hdone hsend seg hseg
  rcases List.mem_append.mp hseg with hold | hnew
  · exact hdone seg hold
  · rw [List.mem_singleton.mp hnew]
    exact hsend.length_pos

/-- `fill_window` only reads from the stream. -/
theorem fillWindow_keeps {P : ByteStream → Prop}
    (hpop : ∀ stream len, P stream → P (stream.popOutput len)) (h : P s.stream) :
    P s.fillWindow.stream := by
  rw [fillWindow_eq_run]
  exact Admissible.invariant (I := fun s : TCPSender => P s.stream) (fun _ _ hs _ => hpop _ _ hs) h
    s.admissible_newSegments

theorem fillWindow_emitted (s : TCPSender) : Emitted s s.newSegments s.fillWindow := by
  rw [fillWindow_eq_run]
  exact emitted_of_admissible s _ s.admissible_newSegments

end TCPSender
end Sponge
