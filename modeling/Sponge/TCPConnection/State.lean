import Sponge.TCPConnection.Model
import Sponge.TCPSender.Cache

/-!
# The state of a connection

`TCPState` of `libsponge/tcp_helpers/tcp_state.{hh,cc}`: the summaries of the two halves of a
connection together with its two flags, and the twelve states of the specification that
they are compared with.  The operations of a connection are listed for the results about
its runs.
-/

namespace Sponge

/-- `TCPState`. -/
structure TCPState where
  sender : TCPSenderStateSummary
  receiver : TCPReceiverStateSummary
  active : Bool := true
  lingerAfterStreamsFinish : Bool := true
deriving DecidableEq, Repr

namespace TCPState

/-- `TCPState::State`. -/
inductive State where
  | listen
  | synRcvd
  | synSent
  | established
  | closeWait
  | lastAck
  | finWait1
  | finWait2
  | closing
  | timeWait
  | closed
  | reset
deriving DecidableEq, Repr

/-- `TCPState(state)`. -/
def ofState : State → TCPState
  | .listen => { receiver := .listen, sender := .closed }
  | .synRcvd => { receiver := .synRecv, sender := .synSent }
  | .synSent => { receiver := .listen, sender := .synSent }
  | .established => { receiver := .synRecv, sender := .synAcked }
  | .closeWait =>
      { receiver := .finRecv, sender := .synAcked, lingerAfterStreamsFinish := false }
  | .lastAck => { receiver := .finRecv, sender := .finSent, lingerAfterStreamsFinish := false }
  | .closing => { receiver := .finRecv, sender := .finSent }
  | .finWait1 => { receiver := .synRecv, sender := .finSent }
  | .finWait2 => { receiver := .synRecv, sender := .finAcked }
  | .timeWait => { receiver := .finRecv, sender := .finAcked }
  | .reset =>
      { receiver := .error, sender := .error, lingerAfterStreamsFinish := false, active := false }
  | .closed =>
      { receiver := .finRecv, sender := .finAcked, lingerAfterStreamsFinish := false,
        active := false }

/-- The state is one of the twelve. -/
def Official (s : TCPState) : Prop :=
  ∃ state, s = ofState state

/-- The twelve states. -/
def State.all : List State :=
  [.listen, .synRcvd, .synSent, .established, .closeWait, .lastAck, .finWait1, .finWait2,
    .closing, .timeWait, .closed, .reset]

theorem State.mem_all (state : State) : state ∈ all := by
  cases state <;> decide

instance (s : TCPState) : Decidable s.Official :=
  decidable_of_iff (∃ state ∈ State.all, s = ofState state)
    ⟨fun ⟨state, _, h⟩ => ⟨state, h⟩, fun ⟨state, h⟩ => ⟨state, State.mem_all state, h⟩⟩

end TCPState

/-- `state()`. -/
def TCPConnection.state (c : TCPConnection) : TCPState where
  sender := c.sender.stateSummary
  receiver := c.receiver.stateSummary
  active := c.active
  lingerAfterStreamsFinish := if c.active then c.lingerAfterStreamsFinish else false

/-! ## Operations -/

namespace TCPConnection

/-- What the owner and the network can do with a connection. -/
inductive Operation where
  | connect
  | segmentReceived (seg : TCPSegment)
  | write (data : List Byte)
  | endInputStream
  | tick (msSinceLastTick : UInt64)
  | read (len : Nat)
deriving DecidableEq, Repr

/-- The connection behind an operation. -/
def perform (c : TCPConnection) : Operation → TCPConnection
  | .connect => c.connect
  | .segmentReceived seg => c.segmentReceived seg
  | .write data => (c.write data).1
  | .endInputStream => c.endInputStream
  | .tick ms => c.tick ms
  | .read len => { c with receiver := c.receiver.popOutput len }

/-! ## What the operations do to the connection -/

/-- The acknowledgement that a segment carries touches neither the stream nor the flags. -/
theorem quiet_acked (s : TCPSender) (seg : TCPSegment) : TCPSender.Quiet s (acked s seg) := by
  unfold acked
  split
  · exact TCPSender.quiet_ackReceived s _ _
  · exact ⟨rfl, rfl, rfl, rfl, rfl⟩

theorem stream_acked (s : TCPSender) (seg : TCPSegment) : (acked s seg).stream = s.stream :=
  (quiet_acked s seg).stream_eq

/-- The answer to a segment fills the window, once the receiver has seen a SYN. -/
theorem reply_fills {r : TCPReceiver} (hsyn : r.ackno.isSome = true) (s : TCPSender)
    (seg : TCPSegment) : ∃ queue, reply r s seg = { s.fillWindow with segmentsOut := queue } := by
  rw [reply, if_pos hsyn]
  simp only
  split
  · exact ⟨_, rfl⟩
  · exact ⟨_, rfl⟩

/-- The connection will not linger if the peer's stream ends before its own. -/
theorem lingerAfterStreamsFinish_passOn (c : TCPConnection) (seg : TCPSegment) :
    (c.passOn seg).lingerAfterStreamsFinish =
      if (c.receiver.segmentReceived seg).streamOut.inputEnded && !c.sender.stream.eof then false
      else c.lingerAfterStreamsFinish := by
  rw [← stream_acked c.sender seg]
  rfl

/-- The connection behind a tick that stays within the limit. -/
theorem tick_within {c : TCPConnection} {ms : UInt64}
    (hcount : (c.sender.tick ms).consecutiveRetransmissions ≤ TCPConfig.maxRetxAttempts) :
    ∃ active : Bool,
      (active = false → c.active = false ∨ finished c.receiver (c.sender.tick ms) = true) ∧
      c.tick ms =
        { { c with
            nowTimeMs := c.nowTimeMs + ms
            sender := c.sender.tick ms }.sendWithAcknoAndWin with active := active } := by
  have hstay : { c with
      nowTimeMs := c.nowTimeMs + ms
      sender := c.sender.tick ms }.giveUp = { c with
      nowTimeMs := c.nowTimeMs + ms
      sender := c.sender.tick ms } := if_neg (not_lt_of_ge hcount)
  simp only [TCPConnection.tick, hstay]
  split
  · rename_i hdone
    rw [Bool.and_eq_true, Bool.and_eq_true] at hdone
    exact ⟨_, fun _ => Or.inr hdone.1.1, rfl⟩
  · exact ⟨_, Or.inl, rfl⟩

/-- The connection behind a tick that passes the limit: the queue is dropped for a RST. -/
theorem tick_beyond {c : TCPConnection} {ms : UInt64}
    (hcount : TCPConfig.maxRetxAttempts < (c.sender.tick ms).consecutiveRetransmissions) :
    c.tick ms =
      ({ c with
          nowTimeMs := c.nowTimeMs + ms
          sender := { c.sender.tick ms with
            segmentsOut := [rstSegment (c.sender.tick ms)] }
        }.setRstState).sendWithAcknoAndWin := by
  have hgive : { c with
      nowTimeMs := c.nowTimeMs + ms
      sender := c.sender.tick ms }.giveUp = { c with
      nowTimeMs := c.nowTimeMs + ms
      sender := { c.sender.tick ms with
        segmentsOut := [rstSegment (c.sender.tick ms)] } }.setRstState := if_pos hcount
  simp only [TCPConnection.tick, hgive]
  exact ite_self _

end TCPConnection
end Sponge
