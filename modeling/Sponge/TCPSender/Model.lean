import Sponge.TCPSegment

/-!
# The sender

`TCPSender` of `libsponge/tcp_sender.{hh,cc}`: it cuts the outgoing stream into
segments, keeps those not yet acknowledged in `_tcp_seg_cache`, and sends the oldest of
them again when the timer expires.

Absolute positions are natural numbers and differences of them are 64-bit differences,
times are 64-bit words and the timeout is a 32-bit word.  The loop of `fill_window`
carries the window size as fuel: each of its rounds uses up a part of the window.  The
member `_fin_sent` is read by no function and is left out.
-/

namespace Sponge

open Library

/-- `TCPSender`. -/
structure TCPSender where
  isn : WrappingInt32
  segmentsOut : List TCPSegment
  initialRetransmissionTimeout : UInt32
  stream : ByteStream
  nextSeqno : Nat
  windowSize : Nat
  windowUsedSize : Nat
  nowTimeMs : UInt64
  tcpSegCache : List (UInt64 × TCPSegment)
  retransmissionTimeout : UInt32
  latestAckno : WrappingInt32
  syned : Bool
  fin : Bool
  retransmissionCount : Nat

namespace TCPSender

/-- `TCPSender(capacity, retx_timeout, fixed_isn)`; `random` is what `random_device`
returns. -/
def new (capacity : Nat) (retxTimeout : UInt16) (fixedIsn : Option WrappingInt32)
    (random : UInt32) : TCPSender where
  isn := fixedIsn.getD ⟨random⟩
  segmentsOut := []
  initialRetransmissionTimeout := retxTimeout.toUInt32
  stream := ByteStream.new capacity
  nextSeqno := 0
  windowSize := 1
  windowUsedSize := 0
  nowTimeMs := 0
  tcpSegCache := []
  retransmissionTimeout := retxTimeout.toUInt32
  latestAckno := fixedIsn.getD ⟨random⟩
  syned := false
  fin := false
  retransmissionCount := 0

/-! ## Accessors -/

/-- `next_seqno_absolute()`. -/
def nextSeqnoAbsolute (s : TCPSender) : Nat :=
  s.nextSeqno

/-- `next_seqno()`. -/
def nextSeqnoRelative (s : TCPSender) : WrappingInt32 :=
  wrap s.nextSeqno s.isn

/-- `unwrap(_latest_ackno, _isn, _next_seqno)`: the absolute ackno accepted last. -/
def absoluteAckno (s : TCPSender) : Nat :=
  unwrap s.latestAckno s.isn s.nextSeqno

/-- `bytes_in_flight()`. -/
def bytesInFlight (s : TCPSender) : Nat :=
  wordSub 64 s.nextSeqno s.absoluteAckno

/-- `consecutive_retransmissions()`. -/
def consecutiveRetransmissions (s : TCPSender) : Nat :=
  word 32 s.retransmissionCount

/-! ## Sending -/

/-- Enqueue a segment that takes `size` of the window, and keep a copy of it. -/
def sendSegment (s : TCPSender) (seg : TCPSegment) (size : Nat) : TCPSender :=
  { s with
    nextSeqno := s.nextSeqno + size
    windowUsedSize := s.windowUsedSize + size
    segmentsOut := s.segmentsOut ++ [seg]
    tcpSegCache := s.tcpSegCache ++ [(s.nowTimeMs, seg)] }

/-- The segment that `fill_window()` builds on a closed window, a single byte or the
FIN, and the sender behind it. -/
def probeSegment (s : TCPSender) : TCPSegment × TCPSender :=
  if s.stream.bufferEmpty = false then
    let (content, stream) := s.stream.read 1
    ({ payload := content }, { s with stream := stream })
  else if s.stream.eof = true ∧ s.fin = false then
    ({ header := { fin := true } }, { s with fin := true })
  else ({}, s)

/-- `fill_window()` on a closed window. -/
def probeWindow (s : TCPSender) : TCPSender :=
  let (seg, s) := s.probeSegment
  if seg.lengthInSequenceSpace = 0 then s
  else s.sendSegment { seg with header.seqno := wrap s.nextSeqno s.isn } 1

/-- `_window_size > _window_used_size ? _window_size - _window_used_size : 0`. -/
def windowUnusedSize (s : TCPSender) : Nat :=
  if s.windowSize > s.windowUsedSize then s.windowSize - s.windowUsedSize else 0

/-- `payload_size` in `fill_window`, at least one byte. -/
def payloadSize (unused : Nat) (isSyn : Bool) : Nat :=
  max 1 (min (unused - isSyn.toNat) TCPConfig.maxPayloadSize)

/-- The segment that a round of `fill_window` builds and the sender behind it, before
the segment is enqueued. -/
def nextSegment (s : TCPSender) : TCPSegment × TCPSender :=
  let isSyn := !s.syned
  let (content, stream) := s.stream.read (payloadSize s.windowUnusedSize isSyn)
  let isFin := stream.eof && !s.fin &&
    decide (content.length + isSyn.toNat < s.windowUnusedSize)
  ({ header := { seqno := wrap s.nextSeqno s.isn, syn := isSyn, fin := isFin }
     payload := content },
    { s with stream := stream, syned := true, fin := s.fin || isFin })

/-- The loop of `fill_window()`: the sender behind it, or nothing if the loop has not been left
after `fuel` rounds. -/
def fillLoop : Nat → TCPSender → Option TCPSender
  | 0, _ => none
  | fuel + 1, s =>
      if s.stream.bufferEmpty = false ∨ s.syned = false ∨ s.fin = false then
        if s.windowUnusedSize = 0 then some s
        else
          let (seg, s) := s.nextSegment
          if seg.lengthInSequenceSpace = 0 then some s
          else fillLoop fuel (s.sendSegment seg seg.lengthInSequenceSpace)
      else some s

/-- `fill_window()`.  Every round but the last uses up a part of the window, so the loop is left
within `windowSize + 1` rounds: theorem {lit}`fillLoop_eq_fillWindow`. -/
def fillWindow (s : TCPSender) : TCPSender :=
  if s.windowSize = 0 ∧ s.windowUsedSize = 0 then s.probeWindow
  else (fillLoop (s.windowSize + 1) s).getD s

/-- `send_empty_segment()`. -/
def sendEmptySegment (s : TCPSender) : TCPSender :=
  { s with
    segmentsOut := s.segmentsOut ++ [{ header := { seqno := wrap s.nextSeqno s.isn } }] }

/-! ## Acknowledgements and time -/

/-- The absolute right edge of a segment, as `remove_acked_seg` computes it. -/
def absoluteRightEnd (s : TCPSender) (seg : TCPSegment) : Nat :=
  unwrap (seg.header.seqno.add (UInt32.ofNat seg.lengthInSequenceSpace)) s.isn s.nextSeqno

/-- `remove_acked_seg()`. -/
def removeAckedSeg (s : TCPSender) : TCPSender :=
  { s with
    tcpSegCache := s.tcpSegCache.dropWhile
      fun item => decide (s.absoluteAckno ≥ s.absoluteRightEnd item.2) }

/-- `compare(a, b, isn, checkpoint)`. -/
def compare (a b isn : WrappingInt32) (checkpoint : Nat) : Bool :=
  decide (unwrap a isn checkpoint > unwrap b isn checkpoint)

/-- An ackno is accepted unless it is older than the latest one or beyond what was sent. -/
def accepts (s : TCPSender) (ackno : WrappingInt32) : Bool :=
  !(compare s.latestAckno ackno s.isn s.nextSeqno ||
    decide (unwrap ackno s.isn s.nextSeqno > s.nextSeqno))

/-- The window update of `ack_received`: what is used is what lies between the ackno
and the end of the part used before, but no more than the window. -/
def updateWindow (s : TCPSender) (ackno : WrappingInt32) (windowSize : UInt16) : TCPSender :=
  let a := unwrap (s.latestAckno.add (UInt32.ofNat s.windowUsedSize)) s.isn s.nextSeqno
  let b := unwrap ackno s.isn s.nextSeqno
  let used := if a > b then a - b else 0
  { s with
    windowSize := windowSize.toNat
    windowUsedSize := if used > windowSize.toNat then windowSize.toNat else used }

/-- `if (!_tcp_seg_cache.empty()) _tcp_seg_cache.begin()->first = _now_time_ms;` -/
def restartTimer (s : TCPSender) : TCPSender :=
  { s with
    tcpSegCache :=
      match s.tcpSegCache with
      | [] => []
      | (_, seg) :: rest => (s.nowTimeMs, seg) :: rest }

/-- `ack_received(ackno, window_size)`. -/
def ackReceived (s : TCPSender) (ackno : WrappingInt32) (windowSize : UInt16) : TCPSender :=
  if s.accepts ackno then
    let s := s.updateWindow ackno windowSize
    if ackno = s.latestAckno then s
    else
      ({ s with
          retransmissionTimeout := s.initialRetransmissionTimeout
          retransmissionCount := 0
          latestAckno := ackno }.removeAckedSeg).restartTimer
  else s

/-- `ack_received` sends nothing. -/
theorem segmentsOut_ackReceived (s : TCPSender) (ackno : WrappingInt32)
    (windowSize : UInt16) : (s.ackReceived ackno windowSize).segmentsOut = s.segmentsOut := by
  unfold ackReceived
  split
  · simp only
    split <;> rfl
  · rfl

/-- An ackno that is refused changes nothing. -/
theorem ackReceived_refused {s : TCPSender} {ackno : WrappingInt32} (windowSize : UInt16)
    (hrefuse : ¬ s.accepts ackno = true) : s.ackReceived ackno windowSize = s := by
  rw [ackReceived, if_neg hrefuse]

/-- The window of an accepted acknowledgement replaces the old one. -/
theorem windowSize_ackReceived {s : TCPSender} (ackno : WrappingInt32) (windowSize : UInt16)
    (haccept : s.accepts ackno = true) :
    (s.ackReceived ackno windowSize).windowSize = windowSize.toNat := by
  rw [ackReceived, if_pos haccept]
  simp only
  split <;> rfl

theorem windowUsedSize_ackReceived {s : TCPSender} (ackno : WrappingInt32) (windowSize : UInt16)
    (haccept : s.accepts ackno = true) :
    (s.ackReceived ackno windowSize).windowUsedSize =
      (s.updateWindow ackno windowSize).windowUsedSize := by
  rw [ackReceived, if_pos haccept]
  simp only
  split <;> rfl

/-- The used size behind an acknowledgement: from the ackno to the end of the part used before,
but no more than the window. -/
theorem windowUsedSize_updateWindow (s : TCPSender) (ackno : WrappingInt32) (windowSize : UInt16) :
    (s.updateWindow ackno windowSize).windowUsedSize =
      min (unwrap (s.latestAckno.add (UInt32.ofNat s.windowUsedSize)) s.isn s.nextSeqno -
        unwrap ackno s.isn s.nextSeqno) windowSize.toNat := by
  simp only [updateWindow]
  generalize unwrap (s.latestAckno.add (UInt32.ofNat s.windowUsedSize)) s.isn s.nextSeqno = a
  generalize unwrap ackno s.isn s.nextSeqno = b
  have hdiff : (if a > b then a - b else 0) = a - b := by
    split <;> omega
  rw [hdiff]
  split <;> omega

/-- `if (_window_size != 0) { _retransmission_count++; _retransmission_timeout *= 2; }` -/
def backOff (s : TCPSender) : TCPSender :=
  if s.windowSize ≠ 0 then
    { s with
      retransmissionCount := s.retransmissionCount + 1
      retransmissionTimeout := s.retransmissionTimeout * 2 }
  else s

/-- Send the oldest segment again if it has waited for the timeout. -/
def retransmit (s : TCPSender) : TCPSender :=
  match s.tcpSegCache with
  | [] => s
  | (sent, seg) :: rest =>
      if s.nowTimeMs - sent ≥ s.retransmissionTimeout.toUInt64 then
        { s with
          tcpSegCache := (s.nowTimeMs, seg) :: rest
          segmentsOut := s.segmentsOut ++ [seg] }.backOff
      else s

/-- `tick(ms_since_last_tick)`. -/
def tick (s : TCPSender) (msSinceLastTick : UInt64) : TCPSender :=
  ({ s with nowTimeMs := s.nowTimeMs + msSinceLastTick }.removeAckedSeg).retransmit

end TCPSender
end Sponge
