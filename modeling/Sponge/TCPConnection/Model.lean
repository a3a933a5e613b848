import Sponge.TCPReceiver
import Sponge.TCPSender.Model

/-!
# The connection

`TCPConnection` of `libsponge/tcp_connection.{hh,cc}`, which ties a sender and a receiver
together, and the summaries of `libsponge/tcp_helpers/tcp_state.cc` that it decides on.

Every operation leaves the queue of the sender empty: what the sender enqueues is
stamped with the ackno and the window of the receiver and moved to the queue of the
connection.
-/

namespace Sponge

open Library

/-! ## Summaries -/

/-- `TCPReceiverStateSummary`. -/
inductive TCPReceiverStateSummary where
  | error
  | listen
  | synRecv
  | finRecv
deriving DecidableEq, Repr

/-- `TCPSenderStateSummary`. -/
inductive TCPSenderStateSummary where
  | error
  | closed
  | synSent
  | synAcked
  | finSent
  | finAcked
deriving DecidableEq, Repr

/-- `TCPState::state_summary(receiver)`. -/
def TCPReceiver.stateSummary (r : TCPReceiver) : TCPReceiverStateSummary :=
  if r.streamOut.error then .error
  else if r.ackno.isNone then .listen
  else if r.streamOut.inputEnded then .finRecv
  else .synRecv

/-- `TCPState::state_summary(sender)`. -/
def TCPSender.stateSummary (s : TCPSender) : TCPSenderStateSummary :=
  if s.stream.error then .error
  else if s.nextSeqnoAbsolute = 0 then .closed
  else if s.nextSeqnoAbsolute = s.bytesInFlight then .synSent
  else if s.stream.eof = false then .synAcked
  else if s.nextSeqnoAbsolute < s.stream.bytesWritten + 2 then .synAcked
  else if s.bytesInFlight ≠ 0 then .finSent
  else .finAcked

/-- The summary of a receiver without error. -/
theorem TCPReceiver.stateSummary_eq {r : TCPReceiver}
    (herror : r.streamOut.error = false) :
    r.stateSummary = if r.setIsn = false then .listen
      else if r.streamOut.inputEnded = true then .finRecv else .synRecv := by
  unfold stateSummary ackno
  cases hset : r.setIsn <;> simp [herror]

/-- A receiver in `FIN_RECV` has ended its stream. -/
theorem TCPReceiver.inputEnded_of_finRecv {r : TCPReceiver} (h : r.stateSummary = .finRecv) :
    r.streamOut.inputEnded = true := by
  unfold stateSummary at h
  split at h
  · cases h
  · split at h
    · cases h
    · split at h
      · assumption
      · cases h

/-- A sender in `FIN_ACKED` is at the end of its stream. -/
theorem TCPSender.eof_of_finAcked {s : TCPSender} (h : s.stateSummary = .finAcked) :
    s.stream.eof = true := by
  by_contra hrunning
  rw [Bool.not_eq_true] at hrunning
  unfold stateSummary at h
  rw [if_pos hrunning] at h
  repeat' split at h
  all_goals cases h

/-- A sender in `FIN_ACKED` has sent its FIN, and nothing is in flight. -/
theorem TCPSender.sent_of_finAcked {s : TCPSender} (h : s.stateSummary = .finAcked) :
    s.stream.bytesWritten + 2 ≤ s.nextSeqno ∧ s.bytesInFlight = 0 := by
  unfold stateSummary nextSeqnoAbsolute at h
  by_cases hnext : s.nextSeqno < s.stream.bytesWritten + 2
  · rw [if_pos hnext] at h
    repeat' split at h
    all_goals cases h
  · by_cases hflight : s.bytesInFlight = 0
    · exact ⟨by omega, hflight⟩
    · rw [if_pos hflight] at h
      repeat' split at h
      all_goals cases h

/-! ## The connection -/

/-- `TCPConnection`. -/
structure TCPConnection where
  cfg : TCPConfig
  receiver : TCPReceiver
  sender : TCPSender
  segmentsOut : List TCPSegment
  lingerAfterStreamsFinish : Bool
  nowTimeMs : UInt64
  segReceivedTimeMs : UInt64
  active : Bool

namespace TCPConnection

/-- `TCPConnection(cfg)`; `random` is what `random_device` returns to the sender. -/
def new (cfg : TCPConfig) (random : UInt32) : TCPConnection where
  cfg := cfg
  receiver := TCPReceiver.new cfg.recvCapacity
  sender := TCPSender.new cfg.sendCapacity cfg.rtTimeout cfg.fixedIsn random
  segmentsOut := []
  lingerAfterStreamsFinish := true
  nowTimeMs := 0
  segReceivedTimeMs := 0
  active := true

/-- `inbound_stream()`. -/
def inboundStream (c : TCPConnection) : ByteStream :=
  c.receiver.streamOut

/-- `bytes_in_flight()`. -/
def bytesInFlight (c : TCPConnection) : Nat :=
  c.sender.bytesInFlight

/-! ## Sending -/

/-- The fields that `send_with_ackno_and_win` fills in. -/
def stamp (r : TCPReceiver) (seg : TCPSegment) : TCPSegment :=
  { seg with
    header.ack := decide (r.stateSummary ≠ .listen)
    header.ackno := r.ackno.getD ⟨0⟩
    header.win := if r.windowSize > 65535 then 65535 else UInt16.ofNat r.windowSize }

/-- `send_with_ackno_and_win()`. -/
def sendWithAcknoAndWin (c : TCPConnection) : TCPConnection :=
  { c with
    sender := { c.sender with segmentsOut := [] }
    segmentsOut := c.segmentsOut ++ c.sender.segmentsOut.map (stamp c.receiver) }

/-- The segment that `send_rst_seg()` builds. -/
def rstSegment (s : TCPSender) : TCPSegment :=
  { header := { seqno := s.nextSeqnoRelative, rst := true } }

/-- `send_rst_seg()`. -/
def sendRstSeg (c : TCPConnection) : TCPConnection :=
  { c with sender.segmentsOut := c.sender.segmentsOut ++ [rstSegment c.sender] }

/-- `set_rst_state()`. -/
def setRstState (c : TCPConnection) : TCPConnection :=
  { c with
    active := false
    lingerAfterStreamsFinish := false
    sender.stream := c.sender.stream.setError
    receiver := c.receiver.setError }

/-- `connect()`. -/
def connect (c : TCPConnection) : TCPConnection :=
  { c with sender := c.sender.fillWindow }.sendWithAcknoAndWin

/-- `write(data)`: the connection behind the write and the number of bytes accepted. -/
def write (c : TCPConnection) (data : List Byte) : TCPConnection × Nat :=
  let (stream, writeLen) := c.sender.stream.write data
  ({ c with sender := { c.sender with stream := stream }.fillWindow }.sendWithAcknoAndWin,
    writeLen)

/-- `end_input_stream()`. -/
def endInputStream (c : TCPConnection) : TCPConnection :=
  { c with
    sender := { c.sender with stream := c.sender.stream.endInput }.fillWindow
  }.sendWithAcknoAndWin

/-! ## Receiving -/

/-- A segment with the seqno in front of the ackno, which asks for a reply. -/
def isKeepAlive (r : TCPReceiver) (seg : TCPSegment) : Bool :=
  match r.ackno with
  | some ackno => decide (seg.header.seqno = ackno.sub 1)
  | none => false

/-- The sender's answer to a segment: new data, or an empty segment if there is none and
the segment takes sequence numbers or is a keep-alive. -/
def reply (r : TCPReceiver) (s : TCPSender) (seg : TCPSegment) : TCPSender :=
  if r.ackno.isSome then
    let s := s.fillWindow
    if s.segmentsOut = [] ∧ (seg.lengthInSequenceSpace ≠ 0 ∨ isKeepAlive r seg = true) then
      s.sendEmptySegment
    else s
  else s

/-- Both streams have finished: the receiver has seen the FIN and the sender's FIN is
acknowledged. -/
def finished (r : TCPReceiver) (s : TCPSender) : Bool :=
  decide (r.stateSummary = .finRecv ∧ s.stateSummary = .finAcked)

/-- The sender after the acknowledgement that a segment carries. -/
def acked (s : TCPSender) (seg : TCPSegment) : TCPSender :=
  if seg.header.ack then s.ackReceived seg.header.ackno seg.header.win else s

/-- The size of the window and its used part behind the acknowledgement that a segment carries,
from the sender before it. -/
def windowBehind (s : TCPSender) (seg : TCPSegment) : Nat × Nat :=
  if seg.header.ack = true ∧ s.accepts seg.header.ackno = true then
    (seg.header.win.toNat,
      min (unwrap (s.latestAckno.add (UInt32.ofNat s.windowUsedSize)) s.isn s.nextSeqno -
        unwrap seg.header.ackno s.isn s.nextSeqno) seg.header.win.toNat)
  else (s.windowSize, s.windowUsedSize)

theorem windowBehind_eq (s : TCPSender) (seg : TCPSegment) :
    windowBehind s seg = ((acked s seg).windowSize, (acked s seg).windowUsedSize) := by
  rw [windowBehind, acked]
  by_cases hack : seg.header.ack = true
  · by_cases haccept : s.accepts seg.header.ackno = true
    · rw [if_pos ⟨hack, haccept⟩, if_pos hack, TCPSender.windowSize_ackReceived _ _ haccept,
        TCPSender.windowUsedSize_ackReceived _ _ haccept, TCPSender.windowUsedSize_updateWindow]
    · rw [if_neg (fun h => haccept h.2), if_pos hack, TCPSender.ackReceived_refused _ haccept]
  · rw [if_neg (fun h => hack h.1), if_neg hack]

theorem segmentsOut_acked (s : TCPSender) (seg : TCPSegment) :
    (acked s seg).segmentsOut = s.segmentsOut := by
  unfold acked
  split
  · exact TCPSender.segmentsOut_ackReceived _ _ _
  · rfl

/-- The segment is given to the receiver and its acknowledgement to the sender.  If the
peer has ended its stream and ours still runs, the connection will not linger. -/
def passOn (c : TCPConnection) (seg : TCPSegment) : TCPConnection :=
  let r := c.receiver.segmentReceived seg
  let s := acked c.sender seg
  { c with
    receiver := r
    sender := s
    lingerAfterStreamsFinish :=
      if r.streamOut.inputEnded && !s.stream.eof then false else c.lingerAfterStreamsFinish }

/-- `segment_received(seg)`. -/
def segmentReceived (c : TCPConnection) (seg : TCPSegment) : TCPConnection :=
  let c := { c with segReceivedTimeMs := c.nowTimeMs }
  if seg.header.rst then c.setRstState
  else
    let c := c.passOn seg
    if finished c.receiver c.sender && !c.lingerAfterStreamsFinish then { c with active := false }
    else { c with sender := reply c.receiver c.sender seg }.sendWithAcknoAndWin

/-! ## Time -/

/-- Too many retransmissions: what is enqueued is dropped for a RST. -/
def giveUp (c : TCPConnection) : TCPConnection :=
  if c.sender.consecutiveRetransmissions > TCPConfig.maxRetxAttempts then
    ({ c with sender.segmentsOut := [] }.sendRstSeg).setRstState
  else c

/-- `tick(ms_since_last_tick)`. -/
def tick (c : TCPConnection) (msSinceLastTick : UInt64) : TCPConnection :=
  let c := { c with
    nowTimeMs := c.nowTimeMs + msSinceLastTick
    sender := c.sender.tick msSinceLastTick }
  let c := c.giveUp.sendWithAcknoAndWin
  if finished c.receiver c.sender && c.lingerAfterStreamsFinish &&
      decide (c.nowTimeMs - c.segReceivedTimeMs ≥ UInt64.ofNat (10 * c.cfg.rtTimeout.toNat)) then
    { c with active := false }
  else c

/-- `~TCPConnection()`: a connection that is still active is reset, and a RST is enqueued. -/
def destroy (c : TCPConnection) : TCPConnection :=
  if c.active then c.sendRstSeg.setRstState.sendWithAcknoAndWin else c

end TCPConnection
end Sponge
