import Sponge.Library.Execution
import Sponge.TCPConnection.State
import Sponge.TCPSender.Idle

/-!
# Connections that have been reset

A reset makes a connection inactive and sets the error of both streams.  It stays inactive,
since no operation sets `_active` and the error keeps it from finishing a second time.  But no
operation tests `_active` either: the sender goes on retransmitting what is outstanding, filling
the window and answering segments, and once the limit of retransmissions is passed every further
tick sends another RST.

Main results:

- Theorem {lit}`Down.perform`: when an operation on a connection that was reset sends nothing.
- Theorem {lit}`reset_silent_iff`: in every run, a connection that was reset stays inactive, and
  it stays silent exactly if each later operation meets that condition.
-/

namespace Sponge

open Library

namespace TCPSender

/-- The oldest outstanding segment has waited for the timeout. -/
def due (s : TCPSender) : Bool :=
  match s.tcpSegCache with
  | [] => false
  | (sent, _) :: _ => decide (s.nowTimeMs - sent ≥ s.retransmissionTimeout.toUInt64)

/-- The sender at the end of a tick, before it looks at the timer. -/
def elapse (s : TCPSender) (msSinceLastTick : UInt64) : TCPSender :=
  { s with nowTimeMs := s.nowTimeMs + msSinceLastTick }.removeAckedSeg

theorem retransmit_of_not_due {s : TCPSender} (h : s.due = false) : s.retransmit = s := by
  unfold due at h
  unfold retransmit
  split
  · rfl
  · rename_i sent seg rest hcache
    rw [hcache] at h
    exact if_neg (of_decide_eq_false h)

theorem segmentsOut_retransmit_of_due {s : TCPSender} (h : s.due = true) :
    s.retransmit.segmentsOut ≠ [] := by
  unfold due at h
  unfold retransmit
  split
  · rename_i hnil
    rw [hnil] at h
    cases h
  · rename_i sent seg rest hcache
    rw [hcache] at h
    rw [if_pos (of_decide_eq_true h), backOff]
    split <;> simp

/-- The clock sends nothing exactly if no timer has expired. -/
theorem segmentsOut_tick_eq_nil_iff {s : TCPSender} (hqueue : s.segmentsOut = []) (ms : UInt64) :
    (s.tick ms).segmentsOut = [] ↔ (s.elapse ms).due = false := by
  constructor
  · intro hnone
    by_contra hdue
    rw [Bool.not_eq_false] at hdue
    exact segmentsOut_retransmit_of_due hdue hnone
  · intro hdue
    change (s.elapse ms).retransmit.segmentsOut = []
    rw [retransmit_of_not_due hdue]
    exact hqueue

/-- The count of retransmissions stands as long as no timer expires. -/
theorem consecutiveRetransmissions_tick {s : TCPSender} {ms : UInt64}
    (hdue : (s.elapse ms).due = false) :
    (s.tick ms).consecutiveRetransmissions = s.consecutiveRetransmissions := by
  change (s.elapse ms).retransmit.consecutiveRetransmissions = _
  rw [retransmit_of_not_due hdue]
  rfl

/-- The count of retransmissions behind a tick, from the sender before it: one more if a timer
expires and the window is open. -/
def retransmissionsBehind (s : TCPSender) (ms : UInt64) : Nat :=
  word 32 (s.retransmissionCount + ((s.elapse ms).due && decide (s.windowSize ≠ 0)).toNat)

theorem retransmissionsBehind_eq (s : TCPSender) (ms : UInt64) :
    s.retransmissionsBehind ms = (s.tick ms).consecutiveRetransmissions := by
  cases hdue : (s.elapse ms).due with
  | false =>
      rw [consecutiveRetransmissions_tick hdue, retransmissionsBehind, hdue]
      rfl
  | true =>
      change _ = (s.elapse ms).retransmit.consecutiveRetransmissions
      rw [retransmissionsBehind, hdue, Bool.true_and]
      unfold due at hdue
      unfold retransmit
      split
      · rename_i hnil
        rw [hnil] at hdue
        cases hdue
      · rename_i sent seg rest hcache
        rw [hcache] at hdue
        rw [if_pos (of_decide_eq_true hdue), backOff]
        by_cases hwindow : s.windowSize = 0 <;>
          simp [hwindow, consecutiveRetransmissions, elapse, removeAckedSeg]

/-- An empty queue holds behind `fill_window` what is new. -/
theorem segmentsOut_fillWindow_eq_nil_iff {s : TCPSender} (hqueue : s.segmentsOut = []) :
    s.fillWindow.segmentsOut = [] ↔ s.Idle := by
  rw [← newSegments_eq_nil_iff, newSegments, hqueue, List.length_nil, List.drop_zero]

end TCPSender

namespace TCPConnection

/-- The operation resets the connection: a RST arrives, or the limit of retransmissions is
passed and a RST sent. -/
def Operation.Resets (c : TCPConnection) : Operation → Prop
  | .segmentReceived seg => seg.header.rst = true
  | .tick ms => TCPConfig.maxRetxAttempts < (c.sender.tick ms).consecutiveRetransmissions
  | _ => False

/-- When an operation on a connection that was reset sends nothing: `fill_window` has nothing to
do, a segment needs no answer, and the clock finds no timer expired and the retransmissions
within their limit.  All is read off the connection before the operation, except that the source
decides with the ackno behind the segment whether it is a keep-alive. -/
def Operation.Quiet (c : TCPConnection) : Operation → Prop
  | .connect => c.sender.Idle
  | .write data => { c.sender with stream := (c.sender.stream.write data).1 }.Idle
  | .endInputStream => { c.sender with stream := c.sender.stream.endInput }.Idle
  | .segmentReceived seg =>
      seg.header.rst = true ∨ (c.receiver.setIsn = false ∧ seg.header.syn = false) ∨
        ({ c.sender with
            windowSize := (windowBehind c.sender seg).1
            windowUsedSize := (windowBehind c.sender seg).2 }.Idle ∧
          seg.lengthInSequenceSpace = 0 ∧
          isKeepAlive (c.receiver.segmentReceived seg) seg = false)
  | .tick ms =>
      c.sender.consecutiveRetransmissions ≤ TCPConfig.maxRetxAttempts ∧
        (c.sender.elapse ms).due = false
  | .read _ => True

instance (c : TCPConnection) : ∀ op, Decidable (Operation.Resets c op)
  | .segmentReceived _ => inferInstanceAs (Decidable (_ = _))
  | .tick _ => inferInstanceAs (Decidable (_ < _))
  | .connect => inferInstanceAs (Decidable False)
  | .write _ => inferInstanceAs (Decidable False)
  | .endInputStream => inferInstanceAs (Decidable False)
  | .read _ => inferInstanceAs (Decidable False)

instance (c : TCPConnection) : ∀ op, Decidable (Operation.Quiet c op)
  | .connect => inferInstanceAs (Decidable (TCPSender.Idle _))
  | .write _ => inferInstanceAs (Decidable (TCPSender.Idle _))
  | .endInputStream => inferInstanceAs (Decidable (TCPSender.Idle _))
  | .segmentReceived _ => inferInstanceAs (Decidable (_ ∨ _ ∨ _))
  | .tick _ => inferInstanceAs (Decidable (_ ∧ _))
  | .read _ => inferInstanceAs (Decidable True)

/-- A connection that was reset, between operations. -/
structure Down (c : TCPConnection) : Prop where
  active_eq : c.active = false
  error_eq : c.receiver.streamOut.error = true
  queue_eq : c.sender.segmentsOut = []

variable {c : TCPConnection}

/-! ## Operations on a connection that was reset -/

/-- After an error on the inbound stream a connection does not finish. -/
theorem finished_of_error {r : TCPReceiver} (herror : r.streamOut.error = true) (s : TCPSender) :
    finished r s = false := by
  have hsummary : r.stateSummary = .error := by
    rw [TCPReceiver.stateSummary, if_pos herror]
  simp [finished, hsummary]

/-- The application's calls send what `fill_window` finds. -/
theorem Down.feed (h : c.Down) (stream : ByteStream) :
    ({ c with sender := { c.sender with stream := stream }.fillWindow }.sendWithAcknoAndWin).Down ∧
      ∃ sent, ({ c with sender := { c.sender with stream := stream }.fillWindow
        }.sendWithAcknoAndWin).segmentsOut = c.segmentsOut ++ sent ∧
        (sent = [] ↔ { c.sender with stream := stream }.Idle) := by
  refine ⟨⟨h.active_eq, h.error_eq, rfl⟩, _, rfl, ?_⟩
  rw [List.map_eq_nil_iff]
  exact TCPSender.segmentsOut_fillWindow_eq_nil_iff h.queue_eq

/-- The answer to a segment is empty exactly if there is nothing to send and nothing to
acknowledge. -/
theorem segmentsOut_reply_eq_nil_iff (r : TCPReceiver) {s : TCPSender} (hqueue : s.segmentsOut = [])
    (seg : TCPSegment) :
    (reply r s seg).segmentsOut = [] ↔
      r.ackno = none ∨
        (s.Idle ∧ seg.lengthInSequenceSpace = 0 ∧ isKeepAlive r seg = false) := by
  rw [reply, ← TCPSender.segmentsOut_fillWindow_eq_nil_iff hqueue]
  cases hackno : r.ackno with
  | none => simp [hqueue]
  | some ackno =>
      simp only [Option.isSome_some, if_true, reduceCtorEq, false_or]
      by_cases hsent : s.fillWindow.segmentsOut = []
      · by_cases hasks : seg.lengthInSequenceSpace ≠ 0 ∨ isKeepAlive r seg = true
        · rw [if_pos ⟨hsent, hasks⟩]
          simp only [TCPSender.sendEmptySegment, List.append_eq_nil_iff, List.cons_ne_self,
            and_false, false_iff]
          rintro ⟨-, hlength, halive⟩
          rcases hasks with hasks | hasks
          · exact hasks hlength
          · rw [halive] at hasks
            cases hasks
        · rw [if_neg (fun hboth => hasks hboth.2)]
          rw [not_or, not_not, Bool.not_eq_true] at hasks
          exact ⟨fun hnone => ⟨hnone, hasks⟩, And.left⟩
      · rw [if_neg (fun hboth => hsent hboth.1)]
        exact ⟨fun hnone => absurd hnone hsent, And.left⟩

/-- The sender is idle behind an acknowledgement if it is with the window behind it. -/
theorem idle_acked_iff (s : TCPSender) (seg : TCPSegment) :
    (acked s seg).Idle ↔
      { s with
        windowSize := (windowBehind s seg).1
        windowUsedSize := (windowBehind s seg).2 }.Idle := by
  have hquiet := quiet_acked s seg
  rw [windowBehind_eq, TCPSender.Idle, TCPSender.Drained, hquiet.stream_eq, hquiet.fin_eq,
    hquiet.syned_eq]
  rfl

/-- There is no ackno behind a segment if neither it nor an earlier one had a SYN. -/
theorem ackno_segmentReceived_eq_none_iff (r : TCPReceiver) (seg : TCPSegment) :
    (r.segmentReceived seg).ackno = none ↔ r.setIsn = false ∧ seg.header.syn = false := by
  rw [TCPReceiver.ackno, r.setIsn_segmentReceived seg]
  cases r.setIsn <;> cases seg.header.syn <;> simp

/-- A segment is passed on and answered as on any other connection. -/
theorem Down.segmentReceived (h : c.Down) (seg : TCPSegment) :
    (c.segmentReceived seg).Down ∧
      ∃ sent, (c.segmentReceived seg).segmentsOut = c.segmentsOut ++ sent ∧
        (sent = [] ↔ (Operation.segmentReceived seg).Quiet c) := by
  rw [Operation.Quiet, TCPConnection.segmentReceived]
  by_cases hrst : seg.header.rst = true
  · rw [if_pos hrst]
    exact ⟨⟨rfl, rfl, h.queue_eq⟩, [], (List.append_nil _).symm, by simp [hrst]⟩
  · have herror : (c.receiver.segmentReceived seg).streamOut.error = true := by
      rw [TCPReceiver.error_segmentReceived]
      exact h.error_eq
    have hqueue : (acked c.sender seg).segmentsOut = [] := by
      rw [segmentsOut_acked]
      exact h.queue_eq
    have hrunning : ¬ (finished ({ c with segReceivedTimeMs := c.nowTimeMs }.passOn seg).receiver
        ({ c with segReceivedTimeMs := c.nowTimeMs }.passOn seg).sender &&
          !({ c with segReceivedTimeMs := c.nowTimeMs }.passOn seg).lingerAfterStreamsFinish) =
            true := by
      change ¬ (finished (c.receiver.segmentReceived seg) _ && _) = true
      rw [finished_of_error herror]
      simp
    simp only [if_neg hrst, if_neg hrunning]
    refine ⟨⟨h.active_eq, herror, rfl⟩, _, rfl, ?_⟩
    rw [List.map_eq_nil_iff]
    rw [or_iff_right hrst, ← idle_acked_iff, ← ackno_segmentReceived_eq_none_iff]
    exact segmentsOut_reply_eq_nil_iff (c.receiver.segmentReceived seg) hqueue seg

/-- The clock makes no connection active. -/
theorem active_tick (hactive : c.active = false) (ms : UInt64) : (c.tick ms).active = false := by
  simp only [TCPConnection.tick]
  split
  · rfl
  · change (giveUp _).active = false
    unfold giveUp
    split
    · rfl
    · exact hactive

/-- The clock retransmits, and sends a RST once the limit is passed. -/
theorem Down.tick (h : c.Down) (ms : UInt64) :
    (c.tick ms).Down ∧ ∃ sent, (c.tick ms).segmentsOut = c.segmentsOut ++ sent ∧
      (sent = [] ↔ (Operation.tick ms).Quiet c) := by
  rw [Operation.Quiet]
  rcases Nat.lt_or_ge TCPConfig.maxRetxAttempts (c.sender.tick ms).consecutiveRetransmissions with
    hbeyond | hwithin
  · rw [tick_beyond hbeyond]
    refine ⟨⟨rfl, rfl, rfl⟩, _, rfl, ?_⟩
    simp only [setRstState, List.map_cons, List.map_nil, reduceCtorEq, false_iff]
    rintro ⟨hcount, hdue⟩
    rw [TCPSender.consecutiveRetransmissions_tick hdue] at hbeyond
    omega
  · obtain ⟨active, -, htick⟩ := tick_within hwithin
    have hdown : active = false := by
      have hdown := active_tick h.active_eq ms
      rwa [htick] at hdown
    rw [htick]
    refine ⟨⟨hdown, h.error_eq, rfl⟩, _, rfl, ?_⟩
    rw [List.map_eq_nil_iff]
    refine (TCPSender.segmentsOut_tick_eq_nil_iff h.queue_eq ms).trans
      ⟨fun hdue => ⟨?_, hdue⟩, And.right⟩
    rw [← TCPSender.consecutiveRetransmissions_tick hdue]
    exact hwithin

/-- What an operation does on a connection that was reset. -/
theorem Down.perform (h : c.Down) (op : Operation) :
    (c.perform op).Down ∧ ∃ sent, (c.perform op).segmentsOut = c.segmentsOut ++ sent ∧
      (sent = [] ↔ op.Quiet c) := by
  cases op with
  | connect => exact h.feed c.sender.stream
  | segmentReceived seg => exact h.segmentReceived seg
  | write data => exact h.feed (c.sender.stream.write data).1
  | endInputStream => exact h.feed c.sender.stream.endInput
  | tick ms => exact h.tick ms
  | read len =>
      exact ⟨⟨h.active_eq, h.error_eq, h.queue_eq⟩, [], (List.append_nil _).symm,
        by simp [Operation.Quiet]⟩

/-! ## Runs -/

/-- Every operation leaves the queue of the sender empty. -/
theorem queue_perform (hqueue : c.sender.segmentsOut = []) (op : Operation) :
    (c.perform op).sender.segmentsOut = [] := by
  cases op with
  | segmentReceived seg =>
      change (c.segmentReceived seg).sender.segmentsOut = []
      simp only [TCPConnection.segmentReceived]
      split
      · exact hqueue
      · split
        · exact (segmentsOut_acked c.sender seg).trans hqueue
        · rfl
  | tick ms =>
      change (c.tick ms).sender.segmentsOut = []
      simp only [TCPConnection.tick]
      split <;> rfl
  | connect => rfl
  | write data => rfl
  | endInputStream => rfl
  | read len => exact hqueue

theorem queue_run (cfg : TCPConfig) (random : UInt32) (ops : List Operation) :
    (run perform (TCPConnection.new cfg random) ops).sender.segmentsOut = [] :=
  (admissible_true _ ops).invariant (I := fun c : TCPConnection => c.sender.segmentsOut = [])
    (fun _ op h _ => queue_perform h op) rfl

/-- A reset takes the connection down. -/
theorem down_of_resets (hqueue : c.sender.segmentsOut = []) {op : Operation}
    (hresets : op.Resets c) : (c.perform op).Down := by
  have hempty := queue_perform hqueue op
  cases op with
  | segmentReceived seg =>
      rw [Operation.Resets] at hresets
      have hreset : c.perform (.segmentReceived seg) =
          { c with segReceivedTimeMs := c.nowTimeMs }.setRstState := if_pos hresets
      rw [hreset] at hempty ⊢
      exact ⟨rfl, rfl, hempty⟩
  | tick ms =>
      rw [Operation.Resets] at hresets
      have hreset : c.perform (.tick ms) = _ := tick_beyond hresets
      rw [hreset]
      exact ⟨rfl, rfl, rfl⟩
  | connect => exact hresets.elim
  | write data => exact hresets.elim
  | endInputStream => exact hresets.elim
  | read len => exact hresets.elim

/-- In every run, a connection that was reset stays inactive, and it places no further segment on
`segments_out()` if and only if every later operation finds nothing to send. -/
theorem reset_silent_iff (cfg : TCPConfig) (random : UInt32) (ops : List Operation)
    (op : Operation) (later : List Operation) :
    let c := run perform (TCPConnection.new cfg random) ops
    op.Resets c →
      (run perform (c.perform op) later).active = false ∧
      ((run perform (c.perform op) later).segmentsOut = (c.perform op).segmentsOut ↔
        Admissible perform (fun c op => op.Quiet c) (c.perform op) later) := by
  intro c hresets
  have hdown : (c.perform op).Down := down_of_resets (queue_run cfg random ops) hresets
  obtain ⟨hend, sent, hsent, hquiet⟩ := run_log (I := Down) segmentsOut
    (fun c op h => Down.perform h op) hdown later
  refine ⟨hend.active_eq, ?_⟩
  rw [hsent, List.append_right_eq_self]
  exact hquiet

/-- A listener that is reset stays silent through segments and ticks. -/
theorem reset_silent_listener :
    let op : Operation := .segmentReceived ⟨{ rst := true }, []⟩
    let later : List Operation := [.tick 5000, .segmentReceived ⟨{ seqno := ⟨7⟩ }, [97]⟩]
    let c := TCPConnection.new {} 0
    op.Resets c ∧
      (run perform (c.perform op) later).segmentsOut = (c.perform op).segmentsOut := by
  intro op later c
  exact ⟨rfl, ((reset_silent_iff {} 0 [] op later) rfl).2.mpr (by decide +kernel)⟩

/-- The SYN of a connection attempt that was refused by a RST is sent again after the timeout. -/
theorem reset_silent_fails :
    ¬ ∀ (cfg : TCPConfig) (random : UInt32) (ops : List Operation) (op : Operation)
      (later : List Operation),
      op.Resets (run perform (TCPConnection.new cfg random) ops) →
        (run perform (TCPConnection.new cfg random) (ops ++ [op] ++ later)).segmentsOut =
          (run perform (TCPConnection.new cfg random) (ops ++ [op])).segmentsOut := by
  intro h
  have hbad := h {} 0 [.connect] (.segmentReceived ⟨{ rst := true }, []⟩) [.tick 1000] rfl
  exact absurd hbad (by decide +kernel)

-- Past the limit of retransmissions every tick sends another RST.
example : ((run perform (TCPConnection.new {} 0) (.connect :: List.replicate 11 (.tick 1000000)))
    |>.segmentsOut.drop 9).map (·.header.rst) = [true, true, true] := by
  decide +kernel

end TCPConnection
end Sponge
