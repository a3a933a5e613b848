import Sponge.TCPConnection.Reset

/-!
# What a connection says and when it answers

Every segment goes out through `send_with_ackno_and_win`, which stamps it with the ackno and
the window of the receiver as they are at the end of the operation.  Whether the ack flag is
set is decided on the summary of the receiver, and the summary of a receiver with an error is
`ERROR` even if it has no ackno: after a reset before the first SYN, the flag is set and the
ackno is zero.

A segment that takes sequence numbers is answered, and one that takes none is answered only
with segments that take some, unless it is a keep-alive.

Main results:

- Theorem {lit}`stamped_perform`: what an operation enqueues is stamped by the receiver it leaves.
- Theorem {lit}`stamped_truthfully_iff`: in every run, the stamp of a segment is true exactly if
  the receiver has no error or has an ackno, stated on the connection before the operation.
- Theorem {lit}`segmentReceived_answers`: in every run, which segments of an active connection's
  peer are answered, and with what.
-/

namespace Sponge
namespace TCPConnection

open Library

variable {c : TCPConnection}

/-! ## Stamps -/

/-- The header tells the truth about the receiver: the ack flag is set if there is an ackno,
which then is the ackno of the header, and the window is the receiver's, as far as the field
reaches. -/
def Truthful (r : TCPReceiver) (seg : TCPSegment) : Prop :=
  (seg.header.ack = true ↔ r.ackno.isSome = true) ∧
    (∀ ackno, r.ackno = some ackno → seg.header.ackno = ackno) ∧
    seg.header.win.toNat = min 65535 r.windowSize

/-- The summary is `LISTEN` if there is neither an error nor an ackno. -/
theorem stateSummary_eq_listen_iff (r : TCPReceiver) :
    r.stateSummary = .listen ↔ r.streamOut.error = false ∧ r.ackno = none := by
  unfold TCPReceiver.stateSummary
  split
  · rename_i herror
    simp [herror]
  · rename_i herror
    rw [Bool.not_eq_true] at herror
    split
    · rename_i hnone
      simp [herror, Option.isNone_iff_eq_none.mp hnone]
    · rename_i hsome
      rw [Option.isNone_iff_eq_none] at hsome
      split <;> simp [hsome]

/-- The stamp is true unless the receiver has an error and no ackno. -/
theorem truthful_stamp_iff (r : TCPReceiver) (seg : TCPSegment) :
    Truthful r (stamp r seg) ↔ r.streamOut.error = false ∨ r.ackno.isSome = true := by
  have hwin : (stamp r seg).header.win.toNat = min 65535 r.windowSize := by
    simp only [stamp]
    split
    · rename_i hlarge
      rw [Nat.min_eq_left (by omega)]
      rfl
    · rw [UInt16.toNat_ofNat']
      omega
  have hackno : ∀ ackno, r.ackno = some ackno → (stamp r seg).header.ackno = ackno := by
    intro ackno hsome
    simp [stamp, hsome]
  have hack : (stamp r seg).header.ack = true ↔
      r.streamOut.error = true ∨ r.ackno.isSome = true := by
    change decide (r.stateSummary ≠ .listen) = true ↔ _
    rw [decide_eq_true_eq, ne_eq, stateSummary_eq_listen_iff, not_and_or, Bool.not_eq_false,
      Option.isSome_iff_ne_none]
  rw [Truthful, and_iff_left ⟨hackno, hwin⟩, hack]
  cases r.streamOut.error <;> simp

/-- When the stamps of an operation are true, by the connection before it: the inbound stream has
no error and gets none, or the receiver has an ackno, or it gets one. -/
def Operation.StampsTruly (c : TCPConnection) : Operation → Prop
  | .segmentReceived seg =>
      c.receiver.streamOut.error = false ∨ c.receiver.setIsn = true ∨ seg.header.syn = true
  | .tick ms =>
      (c.receiver.streamOut.error = false ∧
          c.sender.retransmissionsBehind ms ≤ TCPConfig.maxRetxAttempts) ∨
        c.receiver.setIsn = true
  | _ => c.receiver.streamOut.error = false ∨ c.receiver.setIsn = true

/-- A receiver has an ackno once it has seen a SYN. -/
theorem isSome_ackno_iff (r : TCPReceiver) : r.ackno.isSome = true ↔ r.setIsn = true := by
  rw [TCPReceiver.ackno]
  cases r.setIsn <;> simp

/-- What is stamped by a receiver is true if the receiver has no error or has seen a SYN. -/
theorem truthful_of_stamped {r : TCPReceiver} {queue : List TCPSegment} {seg : TCPSegment}
    (hseg : seg ∈ queue.map (stamp r)) :
    Truthful r seg ↔ r.streamOut.error = false ∨ r.setIsn = true := by
  obtain ⟨unstamped, -, rfl⟩ := List.mem_map.mp hseg
  rw [truthful_stamp_iff, isSome_ackno_iff]

/-- What an operation enqueues is stamped by the receiver it leaves. -/
theorem stamped_perform (c : TCPConnection) (op : Operation) :
    ∃ new, (c.perform op).segmentsOut = c.segmentsOut ++ new ∧
      ∀ seg ∈ new, Truthful (c.perform op).receiver seg ↔ op.StampsTruly c := by
  have hnone : ∀ r : TCPReceiver, ∃ new, c.segmentsOut = c.segmentsOut ++ new ∧
      ∀ seg ∈ new, Truthful r seg ↔ op.StampsTruly c :=
    fun _ => ⟨[], (List.append_nil _).symm, fun _ hseg => absurd hseg List.not_mem_nil⟩
  cases op with
  | connect => exact ⟨_, rfl, fun _ hseg => truthful_of_stamped hseg⟩
  | segmentReceived seg =>
      change ∃ new, (c.segmentReceived seg).segmentsOut = _ ++ new ∧
        ∀ x ∈ new, Truthful (c.segmentReceived seg).receiver x ↔ _
      simp only [TCPConnection.segmentReceived]
      split
      · exact hnone _
      · split
        · exact hnone _
        · refine ⟨_, rfl, fun x hx => (truthful_of_stamped hx).trans ?_⟩
          change (c.receiver.segmentReceived seg).streamOut.error = false ∨
            (c.receiver.segmentReceived seg).setIsn = true ↔ _
          rw [TCPReceiver.error_segmentReceived, TCPReceiver.setIsn_segmentReceived,
            Bool.or_eq_true]
          rfl
  | write data => exact ⟨_, rfl, fun _ hseg => truthful_of_stamped hseg⟩
  | endInputStream => exact ⟨_, rfl, fun _ hseg => truthful_of_stamped hseg⟩
  | tick ms =>
      change ∃ new, (c.tick ms).segmentsOut = _ ++ new ∧
        ∀ seg ∈ new, Truthful (c.tick ms).receiver seg ↔ _
      rw [Operation.StampsTruly, TCPSender.retransmissionsBehind_eq]
      rcases Nat.lt_or_ge TCPConfig.maxRetxAttempts
        (c.sender.tick ms).consecutiveRetransmissions with hbeyond | hwithin
      · rw [tick_beyond hbeyond]
        refine ⟨_, rfl, fun seg hseg => (truthful_of_stamped hseg).trans ?_⟩
        have hgiven : ¬ (c.receiver.streamOut.error = false ∧
            (c.sender.tick ms).consecutiveRetransmissions ≤ TCPConfig.maxRetxAttempts) :=
          fun h => Nat.not_lt.mpr h.2 hbeyond
        change true = false ∨ c.receiver.setIsn = true ↔ _
        rw [or_iff_right (by decide), or_iff_right hgiven]
      · obtain ⟨active, -, htick⟩ := tick_within hwithin
        rw [htick]
        refine ⟨_, rfl, fun seg hseg => (truthful_of_stamped hseg).trans ?_⟩
        change c.receiver.streamOut.error = false ∨ c.receiver.setIsn = true ↔ _
        rw [and_iff_left hwithin]
  | read len => exact hnone _

/-- The RST of a connection that is destroyed is stamped behind the error. -/
theorem stamped_destroy (c : TCPConnection) :
    ∃ new, c.destroy.segmentsOut = c.segmentsOut ++ new ∧
      ∀ seg ∈ new, Truthful c.destroy.receiver seg ↔ c.receiver.setIsn = true := by
  unfold destroy
  split
  · refine ⟨_, rfl, fun seg hseg => (truthful_of_stamped hseg).trans ?_⟩
    change true = false ∨ c.receiver.setIsn = true ↔ _
    rw [or_iff_right (by decide)]
  · exact ⟨[], (List.append_nil _).symm, fun _ hseg => absurd hseg List.not_mem_nil⟩

/-- In every run, the segments that an operation places on `segments_out()` tell the truth about
the receiver exactly if the inbound stream has no error and gets none, or the receiver has an ackno
or gets one; and the RST of the end of the connection exactly if the receiver has an ackno. -/
theorem stamped_truthfully_iff (cfg : TCPConfig) (random : UInt32) (ops : List Operation) :
    let c := run perform (TCPConnection.new cfg random) ops
    (∀ op, ∃ new, (c.perform op).segmentsOut = c.segmentsOut ++ new ∧
      ∀ seg ∈ new, Truthful (c.perform op).receiver seg ↔ op.StampsTruly c) ∧
    ∃ new, c.destroy.segmentsOut = c.segmentsOut ++ new ∧
      ∀ seg ∈ new, Truthful c.destroy.receiver seg ↔ c.receiver.setIsn = true :=
  ⟨fun op => stamped_perform _ op, stamped_destroy _⟩

/-- A connection attempt that is given up sends a RST with the ack flag set, and the SYN of one
that was refused by a RST is sent again with the ack flag set; the receiver has no ackno. -/
theorem stamped_untruthfully :
    let attempt : List Operation := .connect :: List.replicate 9 (.tick 1000000)
    let refused : List Operation := [.connect, .segmentReceived ⟨{ rst := true }, []⟩, .tick 1000]
    ∀ ops ∈ [attempt, refused],
      let c := run perform (TCPConnection.new {} 0) ops
      ∃ seg ∈ c.segmentsOut.getLast?, seg.header.ack = true ∧ c.receiver.ackno = none ∧
        ¬ Truthful c.receiver seg := by
  intro attempt refused ops hops c
  have hlast : ∀ ops ∈ [attempt, refused],
      (run perform (TCPConnection.new {} 0) ops).receiver.ackno = none ∧
        ∃ seg ∈ (run perform (TCPConnection.new {} 0) ops).segmentsOut.getLast?,
          seg.header.ack = true := by decide +kernel
  obtain ⟨hnone, seg, hseg, hack⟩ := hlast ops hops
  refine ⟨seg, hseg, hack, hnone, fun htruthful => ?_⟩
  have hsome := htruthful.1.mp hack
  rw [hnone] at hsome
  cases hsome

/-! ## Answers -/

/-- The connection does not linger only if it is down or the inbound stream has ended. -/
def Lingers (c : TCPConnection) : Prop :=
  c.active = true → c.lingerAfterStreamsFinish = false →
    c.receiver.streamOut.inputEnded = true

/-- An inbound stream that has ended does not begin again. -/
theorem inputEnded_segmentReceived {r : TCPReceiver} (h : r.streamOut.inputEnded = true)
    (seg : TCPSegment) : (r.segmentReceived seg).streamOut.inputEnded = true :=
  TCPReceiver.segmentReceived_keeps (P := fun stream => stream.inputEnded = true)
    (fun _ _ hs => hs) (fun _ _ => rfl) seg h

/-- A segment clears the flag only when the inbound stream has ended. -/
theorem Lingers.passOn (h : c.Lingers) (hactive : c.active = true) (seg : TCPSegment)
    (hlinger : (c.passOn seg).lingerAfterStreamsFinish = false) :
    (c.passOn seg).receiver.streamOut.inputEnded = true := by
  rw [lingerAfterStreamsFinish_passOn] at hlinger
  split at hlinger
  · rename_i hends
    exact (Bool.and_eq_true_iff.mp hends).1
  · exact inputEnded_segmentReceived (h hactive hlinger) seg

/-- The segment completes both streams, and the connection does not linger. -/
def closes (c : TCPConnection) (seg : TCPSegment) : Bool :=
  finished (c.receiver.segmentReceived seg) (acked c.sender seg) &&
    !(c.passOn seg).lingerAfterStreamsFinish

/-- The connection behind a RST. -/
theorem segmentReceived_rst {seg : TCPSegment} (hrst : seg.header.rst = true) :
    c.segmentReceived seg = { c with segReceivedTimeMs := c.nowTimeMs }.setRstState :=
  if_pos hrst

/-- The connection behind a segment that closes it. -/
theorem segmentReceived_closes {seg : TCPSegment} (hrst : seg.header.rst = false)
    (hcloses : c.closes seg = true) :
    c.segmentReceived seg =
      { c.passOn seg with segReceivedTimeMs := c.nowTimeMs, active := false } := by
  have hrst' : ¬ seg.header.rst = true := by simp [hrst]
  rw [segmentReceived]
  simp only [if_neg hrst']
  exact if_pos hcloses

/-- The connection behind any other segment. -/
theorem segmentReceived_open {seg : TCPSegment} (hrst : seg.header.rst = false)
    (hopen : c.closes seg = false) :
    c.segmentReceived seg =
      { c.passOn seg with
        segReceivedTimeMs := c.nowTimeMs
        sender := reply (c.receiver.segmentReceived seg) (acked c.sender seg) seg
      }.sendWithAcknoAndWin := by
  have hrst' : ¬ seg.header.rst = true := by simp [hrst]
  rw [segmentReceived]
  simp only [if_neg hrst']
  exact if_neg (by rw [Bool.not_eq_true]; exact hopen)

/-- Every operation keeps the flag so. -/
theorem Lingers.perform (h : c.Lingers) (op : Operation) : (c.perform op).Lingers := by
  cases op with
  | connect => exact h
  | write data => exact h
  | endInputStream => exact h
  | read len => exact h
  | tick ms =>
      change (c.tick ms).Lingers
      rcases Nat.lt_or_ge TCPConfig.maxRetxAttempts
        (c.sender.tick ms).consecutiveRetransmissions with hbeyond | hwithin
      · rw [tick_beyond hbeyond]
        exact fun hactive => nomatch hactive
      · intro hactive
        have hbefore : c.active = true := by
          by_contra hdown
          rw [active_tick (Bool.eq_false_iff.mpr hdown) ms] at hactive
          cases hactive
        obtain ⟨active, -, htick⟩ := tick_within hwithin
        rw [htick]
        exact h hbefore
  | segmentReceived seg =>
      change (c.segmentReceived seg).Lingers
      cases hrst : seg.header.rst with
      | true =>
          rw [segmentReceived_rst hrst]
          exact fun hactive => nomatch hactive
      | false =>
          cases hcloses : c.closes seg with
          | true =>
              rw [segmentReceived_closes hrst hcloses]
              exact fun hactive => nomatch hactive
          | false =>
              rw [segmentReceived_open hrst hcloses]
              exact fun hactive hlinger => h.passOn hactive seg hlinger

theorem lingers_run (cfg : TCPConfig) (random : UInt32) (ops : List Operation) :
    (run perform (TCPConnection.new cfg random) ops).Lingers :=
  (admissible_true _ ops).invariant (I := Lingers) (fun _ op h _ => h.perform op)
    (fun _ hlinger => nomatch hlinger)

/-- A segment that closes the connection finds the inbound stream ended. -/
theorem Lingers.inputEnded_of_closes (h : c.Lingers) (hactive : c.active = true)
    {seg : TCPSegment} (hcloses : c.closes seg = true) :
    c.receiver.streamOut.inputEnded = true := by
  rw [closes, Bool.and_eq_true, Bool.not_eq_true', finished, decide_eq_true_eq] at hcloses
  obtain ⟨⟨-, hsender⟩, hlinger⟩ := hcloses
  -- the outbound stream is at its end, so this segment does not clear the flag
  have heof : c.sender.stream.eof = true := by
    rw [← stream_acked c.sender seg]
    exact TCPSender.eof_of_finAcked hsender
  rw [lingerAfterStreamsFinish_passOn, heof, Bool.not_true, Bool.and_false] at hlinger
  exact h hactive hlinger

/-- The stamp does not change what a segment takes. -/
theorem lengthInSequenceSpace_stamp (r : TCPReceiver) (seg : TCPSegment) :
    (stamp r seg).lengthInSequenceSpace = seg.lengthInSequenceSpace :=
  rfl

/-- The answer to a segment that takes no sequence numbers and is no keep-alive. -/
theorem length_pos_of_mem_reply {r : TCPReceiver} {s : TCPSender} (hqueue : s.segmentsOut = [])
    {seg x : TCPSegment} (hlength : seg.lengthInSequenceSpace = 0)
    (halive : isKeepAlive r seg = false) (hx : x ∈ (reply r s seg).segmentsOut) :
    0 < x.lengthInSequenceSpace := by
  unfold reply at hx
  split at hx
  · simp only [hlength, halive] at hx
    rw [if_neg (by simp)] at hx
    apply s.length_pos_of_mem_newSegments
    rw [TCPSender.newSegments, hqueue]
    exact hx
  · rw [hqueue] at hx
    cases hx

/-- In every run, a segment without RST that leaves an active connection active, with an ackno,
is answered if it takes sequence numbers, and answered only with segments that take some if it
takes none and is no keep-alive; and if it ends the connection, the inbound stream had ended
before. -/
theorem segmentReceived_answers (cfg : TCPConfig) (random : UInt32) (ops : List Operation)
    (seg : TCPSegment) :
    let c := run perform (TCPConnection.new cfg random) ops
    let c' := c.segmentReceived seg
    c.active = true → seg.header.rst = false →
      (c'.active = true → ∀ ackno, c'.receiver.ackno = some ackno →
        ∃ new, c'.segmentsOut = c.segmentsOut ++ new ∧
          (0 < seg.lengthInSequenceSpace → new ≠ []) ∧
          (seg.lengthInSequenceSpace = 0 → seg.header.seqno ≠ ackno.sub 1 →
            ∀ x ∈ new, 0 < x.lengthInSequenceSpace)) ∧
      (c'.active = false → c.receiver.streamOut.inputEnded = true) := by
  intro c c' hactive hrst
  have hlingers : c.Lingers := lingers_run cfg random ops
  have hqueue : (acked c.sender seg).segmentsOut = [] :=
    (segmentsOut_acked c.sender seg).trans (queue_run cfg random ops)
  cases hcloses : c.closes seg with
  | true =>
      have hdown : c'.active = false := by
        change (c.segmentReceived seg).active = false
        rw [segmentReceived_closes hrst hcloses]
      refine ⟨fun hup => ?_, fun _ => hlingers.inputEnded_of_closes hactive hcloses⟩
      rw [hdown] at hup
      cases hup
  | false =>
      have hc' : c' = _ := segmentReceived_open hrst hcloses
      refine ⟨fun _ ackno hackno => ?_, fun hdown => ?_⟩
      · have hr : (c.receiver.segmentReceived seg).ackno = some ackno := by
          rw [hc'] at hackno
          exact hackno
        rw [hc']
        refine ⟨_, rfl, ?_, ?_⟩
        · intro hlength hnone
          rw [List.map_eq_nil_iff] at hnone
          rcases (segmentsOut_reply_eq_nil_iff _ hqueue seg).mp hnone with hlost | ⟨-, hzero, -⟩
          · rw [hr] at hlost
            cases hlost
          · omega
        · intro hlength hseqno x hx
          have halive : isKeepAlive (c.receiver.segmentReceived seg) seg = false := by
            simp [isKeepAlive, hr, hseqno]
          obtain ⟨y, hy, rfl⟩ := List.mem_map.mp hx
          rw [lengthInSequenceSpace_stamp]
          exact length_pos_of_mem_reply hqueue hlength halive hy
      · have hup : c'.active = true := by
          rw [hc']
          exact hactive
        rw [hdown] at hup
        cases hup

/-- A listener answers a SYN that comes with data, and does not answer the ACK that follows. -/
theorem segmentReceived_answers_listener :
    let syn : TCPSegment := ⟨{ seqno := ⟨7⟩, syn := true }, [97]⟩
    let ack : TCPSegment := ⟨{ seqno := ⟨9⟩, ack := true, ackno := ⟨1⟩, win := 10 }, []⟩
    let c := TCPConnection.new { fixedIsn := some ⟨0⟩ } 0
    let c' := run perform c [.segmentReceived syn]
    (∃ new, (c.segmentReceived syn).segmentsOut = c.segmentsOut ++ new ∧ new ≠ []) ∧
      ∃ new, (c'.segmentReceived ack).segmentsOut = c'.segmentsOut ++ new ∧
        ∀ x ∈ new, 0 < x.lengthInSequenceSpace := by
  intro syn ack c c'
  refine ⟨?_, ?_⟩
  · obtain ⟨new, hnew, hanswered, -⟩ :=
      (segmentReceived_answers { fixedIsn := some ⟨0⟩ } 0 [] syn rfl rfl).1 (by decide +kernel) ⟨9⟩
        (by decide +kernel)
    exact ⟨new, hnew, hanswered (by decide)⟩
  · obtain ⟨new, hnew, -, hlong⟩ :=
      (segmentReceived_answers { fixedIsn := some ⟨0⟩ } 0 [.segmentReceived syn] ack
        (by decide +kernel) rfl).1 (by decide +kernel) ⟨9⟩ (by decide +kernel)
    exact ⟨new, hnew, hlong rfl (by decide)⟩

end TCPConnection
end Sponge
