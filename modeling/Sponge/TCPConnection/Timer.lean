import Sponge.TCPConnection.State
import Sponge.TCPSender.Timer

/-!
# Retransmissions of a connection

The timer of a connection's sender over whole runs: the operations of the connection reach
the sender by `fill_window`, `ack_received` and `tick`, and a connection whose sender has
sent its oldest segment again too often sends a RST instead.

Main results:

- Theorem {lit}`one_retransmission_timer`: what the clock sends in every run, in terms of one
  timer.
-/

namespace Sponge

open Library

namespace TCPConnection

open TCPSender (Timer Timed)

/-- A connection and the timer of its sender. -/
structure Clocked where
  conn : TCPConnection
  timer : Timer

namespace Clocked

/-- A connection that has done nothing. -/
def new (cfg : TCPConfig) (random : UInt32) : Clocked where
  conn := TCPConnection.new cfg random
  timer := Timer.new

/-- The timer behind the acknowledgement that a segment carries. -/
def acked (t : Clocked) (seg : TCPSegment) : Timer :=
  if seg.header.ack then t.timer.acked t.conn.sender seg.header.ackno else t.timer

/-- The timer behind `segment_received`: a RST does not reach the sender, and the window is
filled if the connection stays open and its receiver has seen a SYN. -/
def received (t : Clocked) (seg : TCPSegment) : Timer :=
  if seg.header.rst then t.timer
  else if (t.conn.segmentReceived seg).active ∧
      (t.conn.segmentReceived seg).receiver.ackno.isSome then
    (t.acked seg).filled (TCPConnection.acked t.conn.sender seg)
  else t.acked seg

/-- One operation. -/
def step (t : Clocked) (op : Operation) : Clocked where
  conn := t.conn.perform op
  timer :=
    match op with
    | .connect => t.timer.filled t.conn.sender
    | .write data =>
        t.timer.filled { t.conn.sender with stream := (t.conn.sender.stream.write data).1 }
    | .endInputStream =>
        t.timer.filled { t.conn.sender with stream := t.conn.sender.stream.endInput }
    | .segmentReceived seg => t.received seg
    | .tick ms => t.timer.ticked t.conn.sender ms
    | .read _ => t.timer

/-- The operation is performed on an active connection, and afterwards the 64-bit positions
have not overflowed and the 32-bit ones in flight are unambiguous. -/
def Allowed (t : Clocked) (op : Operation) : Prop :=
  t.conn.active = true ∧ (t.step op).conn.bytesInFlight < 2 ^ 31 ∧
    (t.step op).conn.sender.nextSeqno < 2 ^ 64

instance (t : Clocked) (op : Operation) : Decidable (t.Allowed op) :=
  inferInstanceAs (Decidable (_ ∧ _))

end Clocked

/-- The sender follows the timer between operations, its queue is empty, and an active
connection has not reached the limit of retransmissions. -/
structure OnTime (rtTimeout : UInt16) (t : Clocked) : Prop where
  timed : Timed rtTimeout t.timer t.conn.sender
  queue_eq : t.conn.sender.segmentsOut = []
  count_le : t.conn.active = true → t.timer.count ≤ TCPConfig.maxRetxAttempts

variable {rtTimeout : UInt16} {t : Clocked}

theorem onTime_new (cfg : TCPConfig) (random : UInt32) :
    OnTime cfg.rtTimeout (Clocked.new cfg random) where
  timed := TCPSender.timed_new cfg.sendCapacity cfg.rtTimeout cfg.fixedIsn random
  queue_eq := rfl
  count_le := fun _ => Nat.zero_le _

/-- The application's calls fill the window and send the queue. -/
theorem OnTime.feed (h : OnTime rtTimeout t) (hactive : t.conn.active = true)
    (stream : ByteStream)
    (hflight : { t.conn.sender with stream := stream }.fillWindow.bytesInFlight < 2 ^ 31)
    (hnext : { t.conn.sender with stream := stream }.fillWindow.nextSeqno < 2 ^ 64) :
    OnTime rtTimeout
      ⟨{ t.conn with
          sender := { t.conn.sender with stream := stream }.fillWindow }.sendWithAcknoAndWin,
        t.timer.filled { t.conn.sender with stream := stream }⟩ where
  timed := ((h.timed.withStream stream _).fillWindow hflight hnext).withStream _ []
  queue_eq := rfl
  count_le := fun _ => h.count_le hactive

/-- The acknowledgement that a segment carries drives the timer. -/
theorem OnTime.timed_acked (h : OnTime rtTimeout t) (seg : TCPSegment) :
    Timed rtTimeout (t.acked seg) (acked t.conn.sender seg) := by
  unfold Clocked.acked acked
  split
  · exact h.timed.ackReceived _ _
  · exact h.timed

theorem count_acked_le (t : Clocked) (seg : TCPSegment) :
    (t.acked seg).count ≤ t.timer.count := by
  unfold Clocked.acked Timer.acked
  split
  · split
    · exact Nat.zero_le _
    · exact le_rfl
  · exact le_rfl

/-- A segment received drives the timer. -/
theorem OnTime.segmentReceived (h : OnTime rtTimeout t) (hactive : t.conn.active = true)
    (seg : TCPSegment) (hflight : (t.conn.segmentReceived seg).bytesInFlight < 2 ^ 31)
    (hnext : (t.conn.segmentReceived seg).sender.nextSeqno < 2 ^ 64) :
    OnTime rtTimeout ⟨t.conn.segmentReceived seg, t.received seg⟩ := by
  have hacked := h.timed_acked seg
  have hcount := (count_acked_le t seg).trans (h.count_le hactive)
  have hqueue : (acked t.conn.sender seg).segmentsOut = [] := by
    rw [segmentsOut_acked]
    exact h.queue_eq
  unfold Clocked.received
  unfold TCPConnection.segmentReceived at hflight hnext ⊢
  by_cases hrst : seg.header.rst = true
  · simp only [if_pos hrst]
    exact ⟨h.timed.withStream _ _, h.queue_eq, fun hfalse => by cases hfalse⟩
  · simp only [if_neg hrst] at hflight hnext ⊢
    split at hflight
    · rename_i hclose
      simp only [if_pos hclose]
      exact ⟨hacked, hqueue, fun hfalse => by cases hfalse⟩
    · rename_i hopen
      simp only [if_neg hopen] at hnext ⊢
      change (reply (t.conn.receiver.segmentReceived seg) (acked t.conn.sender seg)
        seg).bytesInFlight < 2 ^ 31 at hflight
      change (reply (t.conn.receiver.segmentReceived seg) (acked t.conn.sender seg)
        seg).nextSeqno < 2 ^ 64 at hnext
      change OnTime rtTimeout ⟨_, if t.conn.active = true ∧
        (t.conn.receiver.segmentReceived seg).ackno.isSome = true then _ else _⟩
      by_cases hsyn : (t.conn.receiver.segmentReceived seg).ackno.isSome = true
      · obtain ⟨queue, hreply⟩ := reply_fills hsyn (acked t.conn.sender seg) seg
        rw [hreply] at hflight hnext
        rw [if_pos ⟨hactive, hsyn⟩]
        refine ⟨?_, rfl, fun _ => hcount⟩
        change Timed _ _ { reply (t.conn.receiver.segmentReceived seg) (acked t.conn.sender seg)
          seg with segmentsOut := [] }
        rw [hreply]
        exact (hacked.fillWindow hflight hnext).withStream _ []
      · have hreply : reply (t.conn.receiver.segmentReceived seg) (acked t.conn.sender seg) seg =
            acked t.conn.sender seg := if_neg hsyn
        rw [if_neg fun hboth => hsyn hboth.2]
        refine ⟨?_, rfl, fun _ => hcount⟩
        change Timed _ _ { reply (t.conn.receiver.segmentReceived seg) (acked t.conn.sender seg)
          seg with segmentsOut := [] }
        rw [hreply]
        exact hacked.withStream _ []

/-- The count of the source is that of the timer, also behind a tick. -/
theorem OnTime.consecutiveRetransmissions_tick (h : OnTime rtTimeout t)
    (hactive : t.conn.active = true) (ms : UInt64) :
    (t.conn.sender.tick ms).consecutiveRetransmissions =
      (t.timer.ticked t.conn.sender ms).count := by
  have hcount := h.count_le hactive
  have hle : (t.timer.ticked t.conn.sender ms).count ≤ t.timer.count + 1 := by
    unfold Timer.ticked
    split
    · omega
    · simp only
      split <;> omega
  rw [TCPSender.consecutiveRetransmissions, (h.timed.tick hcount ms).count_eq]
  unfold TCPConfig.maxRetxAttempts at hcount
  exact word_eq_self (by omega)

/-- The clock drives the timer, and a connection that passes the limit is closed. -/
theorem OnTime.tick (h : OnTime rtTimeout t) (hactive : t.conn.active = true) (ms : UInt64) :
    OnTime rtTimeout (t.step (.tick ms)) := by
  have htimed := h.timed.tick (h.count_le hactive) ms
  have hcount := h.consecutiveRetransmissions_tick hactive ms
  change OnTime rtTimeout ⟨t.conn.tick ms, t.timer.ticked t.conn.sender ms⟩
  by_cases hwithin :
      (t.conn.sender.tick ms).consecutiveRetransmissions ≤ TCPConfig.maxRetxAttempts
  · obtain ⟨active, -, htick⟩ := tick_within hwithin
    rw [htick]
    refine ⟨htimed.withStream _ [], rfl, fun _ => ?_⟩
    rw [← hcount]
    exact hwithin
  · rw [tick_beyond (Nat.lt_of_not_le hwithin)]
    exact ⟨htimed.withStream _ [], rfl, fun hfalse => by cases hfalse⟩

/-- What the clock sends, as the connection runs it: a sender that has passed the limit is
replaced by a RST. -/
theorem OnTime.tick_segmentsOut (h : OnTime rtTimeout t) (hactive : t.conn.active = true)
    (ms : UInt64) :
    (t.conn.tick ms).segmentsOut = t.conn.segmentsOut ++
      if (t.step (.tick ms)).timer.count ≤ TCPConfig.maxRetxAttempts then
        (t.conn.sender.tick ms).segmentsOut.map (stamp t.conn.receiver)
      else [stamp t.conn.receiver.setError (rstSegment (t.conn.sender.tick ms))] := by
  have hcount := h.consecutiveRetransmissions_tick hactive ms
  change _ = _ ++ if (t.timer.ticked t.conn.sender ms).count ≤ _ then _ else _
  rw [← hcount]
  split
  · rename_i hwithin
    obtain ⟨active, -, htick⟩ := tick_within hwithin
    rw [htick]
    rfl
  · rename_i hbeyond
    rw [tick_beyond (Nat.lt_of_not_le hbeyond)]
    rfl

/-- Every operation drives the timer. -/
theorem OnTime.step (h : OnTime rtTimeout t) {op : Operation} (hok : t.Allowed op) :
    OnTime rtTimeout (t.step op) := by
  obtain ⟨hactive, hflight, hnext⟩ := hok
  cases op with
  | connect => exact h.feed hactive _ hflight hnext
  | write data => exact h.feed hactive _ hflight hnext
  | endInputStream => exact h.feed hactive _ hflight hnext
  | segmentReceived seg => exact h.segmentReceived hactive seg hflight hnext
  | tick ms => exact h.tick hactive ms
  | read len => exact ⟨h.timed, h.queue_eq, h.count_le⟩

/-- In every run of an active connection the send times kept with the segments amount to one
retransmission timer.  The timer counts what `consecutive_retransmissions()` returns, the
32-bit timeout is the initial one doubled that often, without overflow, and an active
connection has not passed the limit.  A tick sends the oldest outstanding segment again exactly
when something is outstanding and the timer has expired, and nothing else; the connection sends
a RST in its place when this passes the limit. -/
theorem one_retransmission_timer (cfg : TCPConfig) (random : UInt32) (ops : List Operation)
    (hrun : Admissible Clocked.step Clocked.Allowed (Clocked.new cfg random) ops) :
    let t := run Clocked.step (Clocked.new cfg random) ops
    let s := t.conn.sender
    s.retransmissionTimeout.toNat = cfg.rtTimeout.toNat * 2 ^ t.timer.count ∧
      s.retransmissionCount = t.timer.count ∧
      (t.conn.active = true →
        s.consecutiveRetransmissions = t.timer.count ∧
        t.timer.count ≤ TCPConfig.maxRetxAttempts ∧
        ∀ ms,
          let expired := t.timer.outstanding ≠ [] ∧
            cfg.rtTimeout.toNat * 2 ^ t.timer.count ≤ (s.nowTimeMs + ms - t.timer.start).toNat
          (s.tick ms).segmentsOut = (if expired then t.timer.outstanding.take 1 else []) ∧
          (t.conn.tick ms).segmentsOut = t.conn.segmentsOut ++
            if (t.step (.tick ms)).timer.count ≤ TCPConfig.maxRetxAttempts then
              (s.tick ms).segmentsOut.map (stamp t.conn.receiver)
            else [stamp t.conn.receiver.setError (rstSegment (s.tick ms))]) := by
  intro t s
  have h : OnTime cfg.rtTimeout t :=
    Admissible.invariant (fun _ _ ht hok => ht.step hok) (onTime_new cfg random) hrun
  refine ⟨h.timed.timeout_eq, h.timed.count_eq, fun hactive => ?_⟩
  have hcount := h.count_le hactive
  refine ⟨?_, hcount, fun ms => ⟨?_, h.tick_segmentsOut hactive ms⟩⟩
  · rw [TCPSender.consecutiveRetransmissions, h.timed.count_eq]
    unfold TCPConfig.maxRetxAttempts at hcount
    exact word_eq_self (by omega)
  · have hout := h.timed.tick_segmentsOut ms
    rw [h.queue_eq, List.nil_append] at hout
    exact hout

/-- Two segments wait for an acknowledgement; the first of them is acknowledged after 600 ms,
and the other one is sent again 1000 ms later and not before. -/
theorem one_retransmission_timer_restarted :
    let cfg : TCPConfig := { sendCapacity := 8, recvCapacity := 8, fixedIsn := some ⟨4294967295⟩ }
    let ops : List Operation :=
      [.connect,
        .segmentReceived
          { header := { seqno := ⟨7⟩, ackno := ⟨0⟩, syn := true, ack := true, win := 9 } },
        .write [97, 98], .tick 600, .write [99],
        .segmentReceived { header := { seqno := ⟨8⟩, ackno := ⟨2⟩, ack := true, win := 9 } }]
    let t := run Clocked.step (Clocked.new cfg 0) ops
    Admissible Clocked.step Clocked.Allowed (Clocked.new cfg 0) ops ∧
      (t.conn.sender.tick 999).segmentsOut = [] ∧
      (t.conn.sender.tick 1000).segmentsOut.map TCPSegment.payload = [[99]] := by
  intro cfg ops t
  have hrun : Admissible Clocked.step Clocked.Allowed (Clocked.new cfg 0) ops := by
    decide +kernel
  obtain ⟨-, -, hactive⟩ := one_retransmission_timer cfg 0 ops hrun
  obtain ⟨-, -, htick⟩ := hactive (by decide +kernel)
  refine ⟨hrun, (htick 999).1.trans ?_, ?_⟩
  · decide +kernel
  · rw [(htick 1000).1]
    decide +kernel

end TCPConnection
end Sponge
