import Sponge.TCPSender.Segmentation

/-!
# Runs of the sender

A sender is driven by the application, which writes to its stream and ends it, by its
owner, who calls `fill_window` and `tick`, and by acknowledgements, which may carry any
number and any window.  A trace records next to the sender what has passed through it:
the bytes written and popped, the segments created, and the position and window of the
acknowledgements accepted.

Main results:

- Theorem {lit}`segmentation_law`: the segments created spell out the stream.
- Theorem {lit}`cache_holds_unacknowledged`: the cache holds exactly the segments that
  are not acknowledged.
-/

namespace Sponge

open Library

namespace TCPSender

/-- A call on the sender or on its `stream_in()`. -/
inductive Call where
  | write (data : List Byte)
  | endInput
  | fillWindow
  | ackReceived (ackno : WrappingInt32) (windowSize : UInt16)
  | tick (msSinceLastTick : UInt64)
deriving DecidableEq, Repr

/-- A sender with its history: the bytes accepted from the application, those popped
from the stream, the segments created by `fill_window`, and the highest position and the
last window accepted from an acknowledgement. -/
structure Trace where
  sender : TCPSender
  wrote : List Byte
  popped : List Byte
  created : List TCPSegment
  ack : Nat
  window : Nat

namespace Trace

/-- A sender that has done nothing: position 0 and a window of one. -/
def new (capacity : Nat) (retxTimeout : UInt16) (fixedIsn : Option WrappingInt32)
    (random : UInt32) : Trace where
  sender := TCPSender.new capacity retxTimeout fixedIsn random
  wrote := []
  popped := []
  created := []
  ack := 0
  window := 1

/-- One call. -/
def step (t : Trace) : Call → Trace
  | .write data =>
      let written := t.sender.stream.write data
      { t with
        sender := { t.sender with stream := written.1 }
        wrote := t.wrote ++ data.take written.2 }
  | .endInput =>
      { t with sender := { t.sender with stream := t.sender.stream.endInput } }
  | .fillWindow =>
      { t with
        sender := t.sender.fillWindow
        created := t.created ++ t.sender.newSegments
        popped := t.popped ++ t.sender.stream.peekOutput
          (t.sender.fillWindow.stream.bytesRead - t.sender.stream.bytesRead) }
  | .ackReceived ackno windowSize =>
      { t with
        sender := t.sender.ackReceived ackno windowSize
        ack := if t.sender.accepts ackno then
            max t.ack (unwrap ackno t.sender.isn t.sender.nextSeqno) else t.ack
        window := if t.sender.accepts ackno then windowSize.toNat else t.window }
  | .tick ms => { t with sender := t.sender.tick ms }

/-- The 64-bit positions do not overflow, and the 32-bit ones in flight are unambiguous. -/
def Unambiguous (t : Trace) : Prop :=
  t.sender.bytesInFlight < 2 ^ 31 ∧ t.sender.nextSeqno < 2 ^ 64

instance (t : Trace) : Decidable t.Unambiguous :=
  inferInstanceAs (Decidable (_ ∧ _))

end Trace

/-- A call that is not an acknowledgement. -/
def Call.NotAck : Call → Prop
  | .ackReceived _ _ => False
  | _ => True

instance : ∀ c, Decidable (Call.NotAck c)
  | .ackReceived _ _ => inferInstanceAs (Decidable False)
  | .write _ => inferInstanceAs (Decidable True)
  | .endInput => inferInstanceAs (Decidable True)
  | .fillWindow => inferInstanceAs (Decidable True)
  | .tick _ => inferInstanceAs (Decidable True)

variable {t : Trace}

/-! ## The segmentation law -/

/-- The segmentation law along a trace. -/
structure Lawful (t : Trace) : Prop where
  segmented : Segmented t.wrote t.created t.sender
  popped_eq : t.popped = payloads t.created

theorem lawful_new (capacity : Nat) (retxTimeout : UInt16) (fixedIsn : Option WrappingInt32)
    (random : UInt32) : Lawful (Trace.new capacity retxTimeout fixedIsn random) where
  segmented := segmented_new capacity retxTimeout fixedIsn random
  popped_eq := rfl

/-- `fill_window` pops the bytes that it sends. -/
theorem Segmented.peekOutput_popped {wrote : List Byte} {sent : List TCPSegment}
    {s : TCPSender} (h : Segmented wrote sent s) :
    s.stream.peekOutput (s.fillWindow.stream.bytesRead - s.stream.bytesRead) =
      payloads s.newSegments := by
  have hfill := h.fillWindow
  have hcontents : s.stream.contents = payloads s.newSegments ++ s.fillWindow.stream.contents := by
    have hwrote := hfill.wrote_eq
    rw [h.wrote_eq, payloads_append, List.append_assoc, List.append_cancel_left_eq] at hwrote
    exact hwrote
  have hread : s.fillWindow.stream.bytesRead - s.stream.bytesRead =
      (payloads s.newSegments).length := by
    rw [hfill.bytesRead_eq, h.bytesRead_eq, payloads_append, List.length_append]
    omega
  rw [hread, ByteStream.peekOutput_eq, hcontents, List.take_left]

/-- Calls keep the law, except that an acknowledgement must not come before the SYN. -/
theorem Lawful.step (h : Lawful t) {c : Call} (hc : c.NotAck ∨ t.created ≠ []) :
    Lawful (t.step c) := by
  cases c with
  | write data =>
      rw [Trace.step]
      exact ⟨h.segmented.write data, h.popped_eq⟩
  | endInput =>
      rw [Trace.step]
      exact ⟨h.segmented.mark t.sender.stream.endInput rfl rfl fun _ => rfl, h.popped_eq⟩
  | fillWindow =>
      rw [Trace.step]
      refine ⟨h.segmented.fillWindow, ?_⟩
      rw [h.segmented.peekOutput_popped, h.popped_eq, payloads_append]
  | ackReceived ackno windowSize =>
      have hne : t.created ≠ [] := hc.resolve_left id
      rw [Trace.step]
      exact ⟨h.segmented.quiet (quiet_ackReceived _ _ _) fun hnil => absurd hnil hne, h.popped_eq⟩
  | tick ms =>
      obtain ⟨segs, hticked⟩ := t.sender.tick_ticked ms
      rw [Trace.step]
      refine ⟨h.segmented.quiet hticked.toQuiet ?_, h.popped_eq⟩
      rw [hticked.windowSize_eq, hticked.windowUsedSize_eq]
      exact h.segmented.fresh

theorem created_step_ne_nil (h : t.created ≠ []) (c : Call) : (t.step c).created ≠ [] := by
  cases c with
  | fillWindow =>
      rw [Trace.step]
      exact List.append_ne_nil_of_left_ne_nil h _
  | write data => rwa [Trace.step]
  | endInput => rwa [Trace.step]
  | ackReceived ackno windowSize => rwa [Trace.step]
  | tick ms => rwa [Trace.step]

/-- Once something has been sent, every call keeps the law. -/
theorem Lawful.run (h : Lawful t) (hne : t.created ≠ []) (calls : List Call) :
    Lawful (Library.run Trace.step t calls) ∧ (Library.run Trace.step t calls).created ≠ [] := by
  induction calls generalizing t with
  | nil => exact ⟨h, hne⟩
  | cons c calls ih => exact ih (h.step (Or.inr hne)) (created_step_ne_nil hne c)

/-- The law along runs in which `fill_window` comes before the first acknowledgement. -/
theorem Lawful.run_fillWindow (h : Lawful t) (early late : List Call)
    (hearly : ∀ c ∈ early, c.NotAck) :
    Lawful (Library.run Trace.step t (early ++ .fillWindow :: late)) ∧
      (Library.run Trace.step t (early ++ .fillWindow :: late)).created ≠ [] := by
  induction early generalizing t with
  | nil =>
      have hne := h.segmented.sent_ne_nil
      have hlaw := h.step (c := .fillWindow) (Or.inl trivial)
      rw [List.nil_append, Library.run]
      apply hlaw.run
      rwa [Trace.step]
  | cons c early ih =>
      have hc := hearly c List.mem_cons_self
      exact ih (h.step (Or.inl hc)) fun d hd => hearly d (List.mem_cons_of_mem _ hd)

/-- In every run in which `fill_window` is called before the first acknowledgement, the
segments it creates tile the sequence space from 0 to `_next_seqno`; the first and only
the first carries the SYN; their payloads are the bytes popped from the stream, at most
`MAX_PAYLOAD_SIZE` in each; and a FIN is the last of them, sent after the stream was
ended and all its bytes were sent. -/
theorem segmentation_law (capacity : Nat) (retxTimeout : UInt16)
    (fixedIsn : Option WrappingInt32) (random : UInt32) (early late : List Call)
    (hearly : ∀ c ∈ early, c.NotAck) :
    let t := run Trace.step (Trace.new capacity retxTimeout fixedIsn random)
      (early ++ .fillWindow :: late)
    (∀ p ∈ place TCPSegment.lengthInSequenceSpace 0 t.created,
        p.2.header.seqno = wrap p.1 t.sender.isn) ∧
      extent TCPSegment.lengthInSequenceSpace t.created = t.sender.nextSeqnoAbsolute ∧
      t.created ≠ [] ∧
      (∀ before seg after, t.created = before ++ seg :: after →
        (seg.header.syn = true ↔ before = [])) ∧
      payloads t.created = t.popped ∧
      (∀ seg ∈ t.created, seg.payload.length ≤ TCPConfig.maxPayloadSize) ∧
      (∀ before seg after, t.created = before ++ seg :: after → seg.header.fin = true →
        after = [] ∧ t.sender.stream.inputEnded = true ∧ payloads t.created = t.wrote) ∧
      t.sender.nextSeqnoAbsolute = 1 + t.sender.stream.bytesRead +
        (if ∃ seg ∈ t.created, seg.header.fin = true then 1 else 0) := by
  intro t
  obtain ⟨h, hne⟩ := (lawful_new capacity retxTimeout fixedIsn random).run_fillWindow early late
    hearly
  change Lawful t at h
  change t.created ≠ [] at hne
  have hlaw := h.segmented
  refine ⟨hlaw.seqno_eq, hlaw.extent_eq, hne, hlaw.syn_iff, h.popped_eq.symm, hlaw.payload_le,
    ?_, ?_⟩
  · intro before seg after hsplit hfin
    have hmem : seg ∈ t.created := by rw [hsplit]; simp
    obtain ⟨hended, hnil⟩ := hlaw.fin_ended (hlaw.fin_iff.mpr ⟨seg, hmem, hfin⟩)
    refine ⟨hlaw.fin_last before seg after hsplit hfin, hended, ?_⟩
    rw [hlaw.wrote_eq, hnil, List.append_nil]
  · have hnext := hlaw.nextSeqno_eq
    rw [hlaw.syned_iff.mpr hne] at hnext
    rw [nextSeqnoAbsolute, hnext]
    simp only [← hlaw.fin_iff]
    cases t.sender.fin <;> simp

/-- A write before the SYN, a probe of a closed window, and the FIN. -/
theorem segmentation_law_probe :
    let isn : WrappingInt32 := ⟨4294967295⟩
    let early : List Call := [.write [104, 105], .tick 3]
    let late : List Call := [.ackReceived ⟨1⟩ 0, .fillWindow, .endInput, .ackReceived ⟨2⟩ 5,
      .fillWindow]
    let t := run Trace.step (Trace.new 4 1000 (some isn) 0) (early ++ .fillWindow :: late)
    payloads t.created = [104, 105] ∧ t.sender.nextSeqnoAbsolute = 4 := by
  intro isn early late t
  obtain ⟨-, -, -, -, hpopped, -, -, hnext⟩ :=
    segmentation_law 4 1000 (some isn) 0 early late (by decide)
  refine ⟨hpopped.trans ?_, hnext.trans ?_⟩
  · decide +kernel
  · decide +kernel

/-! ## The cache -/

/-- The position that a trace records is the one that the cache refers to. -/
theorem Cached.max_ackAfter {sent : List TCPSegment} {ack : Nat} {s : TCPSender}
    (h : Cached sent ack s) (ackno : WrappingInt32) :
    (if s.accepts ackno then max ack (unwrap ackno s.isn s.nextSeqno) else ack) =
      s.ackAfter ackno ack := by
  unfold ackAfter
  by_cases haccept : s.accepts ackno = true
  · rw [if_pos haccept, if_pos haccept, max_eq_right ((h.accepts_iff ackno).mp haccept).1]
  · rw [if_neg haccept, if_neg haccept]

/-- Calls keep the cache, as long as the bytes in flight stay unambiguous. -/
theorem Cached.step (h : Cached t.created t.ack t.sender) {c : Call}
    (hafter : (t.step c).Unambiguous) :
    Cached (t.step c).created (t.step c).ack (t.step c).sender := by
  cases c with
  | write data =>
      rw [Trace.step]
      exact h.withStream _ _
  | endInput =>
      rw [Trace.step]
      exact h.withStream _ _
  | fillWindow =>
      rw [Trace.step] at hafter ⊢
      exact h.fillWindow hafter.1 hafter.2
  | ackReceived ackno windowSize =>
      rw [Trace.step]
      simp only [h.max_ackAfter ackno]
      exact h.ackReceived ackno windowSize
  | tick ms =>
      rw [Trace.step]
      exact (h.tick ms).1

theorem Trace.ack_le_step {c : Call} : t.ack ≤ (t.step c).ack := by
  cases c with
  | ackReceived ackno windowSize =>
      simp only [Trace.step]
      split
      · exact Nat.le_max_left _ _
      · exact le_rfl
  | write data => exact le_rfl
  | endInput => exact le_rfl
  | fillWindow => exact le_rfl
  | tick ms => exact le_rfl

/-- In every run in which the bytes in flight stay below `2 ^ 31`, the accepted ackno
never decreases and never passes `_next_seqno`; the cache holds exactly the created
segments that end beyond it, in order and up to `_next_seqno`, so that they cover
everything in between; `bytes_in_flight()` counts what they cover; and what the clock
sends again is a created segment that contains the accepted ackno. -/
theorem cache_holds_unacknowledged (capacity : Nat) (retxTimeout : UInt16)
    (fixedIsn : Option WrappingInt32) (random : UInt32) (calls : List Call)
    (hrun : Admissible Trace.step (fun t c => (t.step c).Unambiguous)
      (Trace.new capacity retxTimeout fixedIsn random) calls) :
    let t := run Trace.step (Trace.new capacity retxTimeout fixedIsn random) calls
    let s := t.sender
    let unacked := unfinished TCPSegment.lengthInSequenceSpace 0 s.absoluteAckno t.created
    s.absoluteAckno = t.ack ∧
      (∀ c, (t.step c).Unambiguous → s.absoluteAckno ≤ (t.step c).sender.absoluteAckno) ∧
      s.absoluteAckno ≤ s.nextSeqno ∧
      s.tcpSegCache.map Prod.snd = unacked.map Prod.snd ∧
      s.tcpSegCache.map Prod.snd <:+ t.created ∧
      extent TCPSegment.lengthInSequenceSpace t.created = s.nextSeqno ∧
      (∀ j, s.absoluteAckno ≤ j → j < s.nextSeqno →
        ∃ p ∈ unacked, p.1 ≤ j ∧ j < p.1 + p.2.lengthInSequenceSpace) ∧
      s.bytesInFlight = s.nextSeqno - s.absoluteAckno ∧
      ∀ ms, ∃ again, (s.tick ms).segmentsOut = s.segmentsOut ++ again ∧
        ∀ seg ∈ again, ∃ n, (n, seg) ∈ place TCPSegment.lengthInSequenceSpace 0 t.created ∧
          n ≤ s.absoluteAckno ∧ s.absoluteAckno < n + seg.lengthInSequenceSpace := by
  intro t s unacked
  have h : Cached t.created t.ack t.sender :=
    Admissible.invariant (I := fun t : Trace => Cached t.created t.ack t.sender)
      (fun t c ht hc => ht.step hc) (cached_new capacity retxTimeout fixedIsn random) hrun
  have hack : s.absoluteAckno = t.ack := h.absoluteAckno_eq
  refine ⟨hack, ?_, ?_, ?_, ?_, h.extent_eq, ?_, ?_, ?_⟩
  · intro c hafter
    rw [hack, (h.step hafter).absoluteAckno_eq]
    exact t.ack_le_step
  · rw [hack]
    exact h.ack_le
  · change _ = (unfinished _ 0 s.absoluteAckno t.created).map Prod.snd
    rw [hack]
    exact h.cache_eq
  · rw [h.cache_eq]
    exact unfinished_suffix 0 t.ack t.created
  · intro j hlow hhigh
    have hextent : j < 0 + extent TCPSegment.lengthInSequenceSpace t.created := by
      rw [h.extent_eq, Nat.zero_add]
      exact hhigh
    obtain ⟨p, hp, hstart, hend⟩ := exists_mem_place (Nat.zero_le j) hextent
    exact ⟨p, mem_unfinished.mpr ⟨hp, by omega⟩, hstart, hend⟩
  · rw [hack]
    exact h.bytesInFlight_eq
  · intro ms
    obtain ⟨-, again, hticked, hholds⟩ := h.tick ms
    refine ⟨again, hticked.segmentsOut_eq, ?_⟩
    intro seg hseg
    obtain ⟨n, hn, hle⟩ := hholds seg hseg
    obtain ⟨hplace, hend⟩ := mem_unfinished.mp hn
    rw [hack]
    exact ⟨n, hplace, hle, hend⟩

/-- An acknowledgement in the middle of a segment, a stale one and a retransmission,
with numbers that wrap around. -/
theorem cache_holds_unacknowledged_partial :
    let isn : WrappingInt32 := ⟨4294967294⟩
    let calls : List Call := [.fillWindow, .write [97, 98, 99, 100], .ackReceived ⟨4294967295⟩ 9,
      .fillWindow, .tick 400, .ackReceived ⟨1⟩ 9, .ackReceived ⟨4294967295⟩ 2, .tick 2000]
    let t := run Trace.step (Trace.new 8 1000 (some isn) 0) calls
    Admissible Trace.step (fun t c => (t.step c).Unambiguous) (Trace.new 8 1000 (some isn) 0)
        calls ∧
      t.sender.absoluteAckno = 3 ∧ t.sender.bytesInFlight = 2 := by
  intro isn calls t
  have hrun : Admissible Trace.step (fun t c => (t.step c).Unambiguous)
      (Trace.new 8 1000 (some isn) 0) calls := by decide +kernel
  obtain ⟨hack, -, -, -, -, -, -, hflight, -⟩ :=
    cache_holds_unacknowledged 8 1000 (some isn) 0 calls hrun
  have hthree : t.sender.absoluteAckno = 3 := hack.trans (by decide +kernel)
  refine ⟨hrun, hthree, ?_⟩
  rw [hflight, hthree]
  decide +kernel

end TCPSender
end Sponge
