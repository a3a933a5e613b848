import Sponge.Network.Model
import Sponge.TCPConnection.State
import Sponge.TCPSender.Segmentation

/-!
# What an event can do

Every event at a host changes its sender and its receiver in one of a few ways, after
which the queue of the sender is stamped and goes out.  `Turn` lists these ways for each
event, with the two flags of the connection, `Moves` lists them without the flags, and
`Becomes` says what the host looks like afterwards; the invariants of the network are
proved from them, without looking at the connection's code again.

Main results:

- Theorem {lit}`Host.step_turn`: every event is one of the turns.
- Theorem {lit}`Host.step_moves`: every event is one of the moves.
-/

namespace Sponge

open Library

/-- The sender and the receiver behind an event, before the sender's queue goes out, and
what the application has written and read. -/
structure Outcome where
  sender : TCPSender
  receiver : TCPReceiver
  wrote : List Byte
  popped : List Byte

/-- The packet that a segment in the sender's queue becomes. -/
def Outcome.packet (o : Outcome) (seg : TCPSegment) : Packet where
  seg := TCPConnection.stamp o.receiver seg
  absSeqno := o.sender.nextSeqno -
    ((wrap o.sender.nextSeqno o.sender.isn).rawValue - seg.header.seqno.rawValue).toNat
  absAckno := o.receiver.absoluteAckno
  nextSeqno := o.sender.nextSeqno

/-- The host `h'` is the host `h` behind an event with the outcome `o`.  Only an active
connection sends; one that fails sends at most a RST; it is closed by an error or when
both streams have finished. -/
structure Becomes (h : Host) (o : Outcome) (h' : Host) : Prop where
  sender_eq : h'.conn.sender = { o.sender with segmentsOut := [] }
  receiver_eq : h'.conn.receiver = o.receiver
  segmentsOut_eq : h'.conn.segmentsOut = []
  wrote_eq : h'.wrote = o.wrote
  popped_eq : h'.popped = o.popped
  packets_eq : h'.packets = h.packets ++ o.sender.segmentsOut.map o.packet
  active : o.sender.segmentsOut ≠ [] ∨ h'.conn.active = true → h.conn.active = true
  error : o.receiver.streamOut.error = h.conn.receiver.streamOut.error ∨
    h'.conn.active = false ∧ ∀ seg ∈ o.sender.segmentsOut, seg.header.rst = true
  closed : h'.conn.active = false → h.conn.active = false ∨
    o.receiver.streamOut.error = true ∨ TCPConnection.finished o.receiver o.sender = true

/-- What an application does to the outgoing stream: it writes, ends it, or only asks for
the connection to be opened. -/
inductive Feeds (h : Host) : ByteStream → List Byte → Prop where
  | write (data : List Byte) : Feeds h (h.conn.sender.stream.write data).1
      (h.wrote ++ data.take (h.conn.sender.stream.writeLength data))
  | endInput : Feeds h h.conn.sender.stream.endInput h.wrote
  | connect : Feeds h h.conn.sender.stream h.wrote

/-- The outcomes of the delivery of a packet: it resets the connection, closes it, or is
answered. -/
inductive Receives (p : Packet) (h : Host) : Outcome → Prop where
  | reset (hrst : p.seg.header.rst = true) :
      Receives p h ⟨{ h.conn.sender with stream := h.conn.sender.stream.setError },
        h.conn.receiver.setError, h.wrote, h.popped⟩
  | close (hrst : p.seg.header.rst = false) :
      Receives p h ⟨TCPConnection.acked h.conn.sender p.seg,
        h.conn.receiver.segmentReceived p.seg, h.wrote, h.popped⟩
  | reply (hrst : p.seg.header.rst = false) :
      Receives p h
        ⟨TCPConnection.reply (h.conn.receiver.segmentReceived p.seg)
            (TCPConnection.acked h.conn.sender p.seg) p.seg,
          h.conn.receiver.segmentReceived p.seg, h.wrote, h.popped⟩

/-- The outcomes of events at `h`, where `ok` holds of the packets delivered. -/
inductive Moves (inbound : List Packet) (ok : Packet → Prop) (h : Host) : Outcome → Prop where
  | feed (stream : ByteStream) (wrote : List Byte) (hfeed : Feeds h stream wrote) :
      Moves inbound ok h ⟨{ h.conn.sender with stream := stream }.fillWindow,
        h.conn.receiver, wrote, h.popped⟩
  | tick (ms : UInt64) :
      Moves inbound ok h ⟨h.conn.sender.tick ms, h.conn.receiver, h.wrote, h.popped⟩
  | giveUp (ms : UInt64) :
      Moves inbound ok h
        ⟨{ h.conn.sender.tick ms with
            segmentsOut := [TCPConnection.rstSegment (h.conn.sender.tick ms)]
            stream := (h.conn.sender.tick ms).stream.setError },
          h.conn.receiver.setError, h.wrote, h.popped⟩
  | read (len : Nat) :
      Moves inbound ok h ⟨h.conn.sender, h.conn.receiver.popOutput len, h.wrote,
        h.popped ++ h.conn.inboundStream.peekOutput len⟩
  | stay : Moves inbound ok h ⟨h.conn.sender, h.conn.receiver, h.wrote, h.popped⟩
  | receive (p : Packet) (hp : p ∈ inbound) (hok : ok p) (o : Outcome) (hrec : Receives p h o) :
      Moves inbound ok h o

/-- What can happen to the receiver: only a segment without RST, of one of the packets, reaches
it. -/
theorem Moves.receiver_cases {inbound : List Packet} {ok : Packet → Prop} {h : Host} {o : Outcome}
    {P : TCPReceiver → Prop} (hmove : Moves inbound ok h o) (hsame : P h.conn.receiver)
    (hfailed : P h.conn.receiver.setError) (hread : ∀ len, P (h.conn.receiver.popOutput len))
    (hsegment : ∀ p ∈ inbound, ok p → p.seg.header.rst = false → Receives p h o →
      P (h.conn.receiver.segmentReceived p.seg)) : P o.receiver := by
  cases hmove with
  | feed stream wrote hfeed => exact hsame
  | tick ms => exact hsame
  | giveUp ms => exact hfailed
  | read len => exact hread len
  | stay => exact hsame
  | receive p hp hok o hrec =>
      cases hrec with
      | reset hrst => exact hfailed
      | close hrst => exact hsegment p hp hok hrst (.close hrst)
      | reply hrst => exact hsegment p hp hok hrst (.reply hrst)

/-- An application that writes to its stream or ends it. -/
def Event.Speaks : Event → Prop
  | .write _ => True
  | .endInputStream => True
  | _ => False

instance : ∀ e, Decidable (Event.Speaks e)
  | .write _ => inferInstanceAs (Decidable True)
  | .endInputStream => inferInstanceAs (Decidable True)
  | .connect | .tick _ | .read _ | .deliver _ => inferInstanceAs (Decidable False)

/-- What each event does at `h`: its outcome, and whether the connection is active and will
linger behind it. -/
inductive Turn (inbound : List Packet) (h : Host) : Event → Outcome → Bool → Bool → Prop where
  | feed (e : Event) (stream : ByteStream) (wrote : List Byte) (hfeed : Feeds h stream wrote)
      (hspoken : e.Speaks ∨ e = .connect ∧ stream = h.conn.sender.stream ∧ wrote = h.wrote) :
      Turn inbound h e ⟨{ h.conn.sender with stream := stream }.fillWindow, h.conn.receiver,
        wrote, h.popped⟩ h.conn.active h.conn.lingerAfterStreamsFinish
  | tick (ms : UInt64) (active : Bool) :
      Turn inbound h (.tick ms) ⟨h.conn.sender.tick ms, h.conn.receiver, h.wrote, h.popped⟩
        active h.conn.lingerAfterStreamsFinish
  | giveUp (ms : UInt64) :
      Turn inbound h (.tick ms)
        ⟨{ h.conn.sender.tick ms with
            segmentsOut := [TCPConnection.rstSegment (h.conn.sender.tick ms)]
            stream := (h.conn.sender.tick ms).stream.setError },
          h.conn.receiver.setError, h.wrote, h.popped⟩ false false
  | read (len : Nat) :
      Turn inbound h (.read len) ⟨h.conn.sender, h.conn.receiver.popOutput len, h.wrote,
        h.popped ++ h.conn.inboundStream.peekOutput len⟩
        h.conn.active h.conn.lingerAfterStreamsFinish
  | lose (i : Nat) (hnone : inbound[i]? = none) :
      Turn inbound h (.deliver i) ⟨h.conn.sender, h.conn.receiver, h.wrote, h.popped⟩
        h.conn.active h.conn.lingerAfterStreamsFinish
  | reset (i : Nat) (p : Packet) (hget : inbound[i]? = some p)
      (hrst : p.seg.header.rst = true) :
      Turn inbound h (.deliver i)
        ⟨{ h.conn.sender with stream := h.conn.sender.stream.setError },
          h.conn.receiver.setError, h.wrote, h.popped⟩ false false
  | close (i : Nat) (p : Packet) (hget : inbound[i]? = some p) (hrst : p.seg.header.rst = false)
      (hfinished : TCPConnection.finished (h.conn.receiver.segmentReceived p.seg)
        (TCPConnection.acked h.conn.sender p.seg) = true)
      (hlinger : (h.conn.passOn p.seg).lingerAfterStreamsFinish = false) :
      Turn inbound h (.deliver i) ⟨TCPConnection.acked h.conn.sender p.seg,
        h.conn.receiver.segmentReceived p.seg, h.wrote, h.popped⟩ false
        (h.conn.passOn p.seg).lingerAfterStreamsFinish
  | answer (i : Nat) (p : Packet) (hget : inbound[i]? = some p)
      (hrst : p.seg.header.rst = false)
      (hopen : ¬ (TCPConnection.finished (h.conn.receiver.segmentReceived p.seg)
        (TCPConnection.acked h.conn.sender p.seg) = true ∧
          (h.conn.passOn p.seg).lingerAfterStreamsFinish = false)) :
      Turn inbound h (.deliver i)
        ⟨TCPConnection.reply (h.conn.receiver.segmentReceived p.seg)
            (TCPConnection.acked h.conn.sender p.seg) p.seg,
          h.conn.receiver.segmentReceived p.seg, h.wrote, h.popped⟩
        h.conn.active (h.conn.passOn p.seg).lingerAfterStreamsFinish

variable {inbound : List Packet} {ok : Packet → Prop} {h : Host}

/-- An operation that ends by sending its queue, and perhaps closes the connection. -/
theorem becomes_launch (c : TCPConnection) (wrote : List Byte) (active : Bool)
    (hactive : h.conn.active = true) (hout : c.segmentsOut = [])
    (herror : c.receiver.streamOut.error = h.conn.receiver.streamOut.error ∨
      active = false ∧ ∀ seg ∈ c.sender.segmentsOut, seg.header.rst = true)
    (hclosed : active = false → c.receiver.streamOut.error = true ∨
      TCPConnection.finished c.receiver c.sender = true) :
    Becomes h ⟨c.sender, c.receiver, wrote, h.popped⟩
      { h.launch { c.sendWithAcknoAndWin with active := active } with wrote := wrote } where
  sender_eq := rfl
  receiver_eq := rfl
  segmentsOut_eq := rfl
  wrote_eq := rfl
  popped_eq := rfl
  packets_eq := by
    simp only [Host.launch, TCPConnection.sendWithAcknoAndWin, hout, List.nil_append,
      List.map_map]
    rfl
  active := fun _ => hactive
  error := herror
  closed := fun h => Or.inr (hclosed h)

/-- The application's calls end by sending the queue and leave the receiver alone. -/
theorem becomes_feed (s : TCPSender) (wrote : List Byte) (hactive : h.conn.active = true)
    (hout : h.conn.segmentsOut = []) :
    Becomes h ⟨s, h.conn.receiver, wrote, h.popped⟩
      { h.launch { h.conn with sender := s }.sendWithAcknoAndWin with wrote := wrote } := by
  have hlaunch := becomes_launch { h.conn with sender := s } wrote true hactive hout
    (Or.inl rfl) (fun hfalse => by cases hfalse)
  rw [← hactive] at hlaunch
  exact hlaunch

/-- A segment that closes the connection is not answered. -/
theorem becomes_closed (c : TCPConnection) (hactive : h.conn.active = true)
    (hinactive : c.active = false) (hout : c.segmentsOut = [])
    (hqueue : c.sender.segmentsOut = [])
    (hclosed : c.receiver.streamOut.error = true ∨
      TCPConnection.finished c.receiver c.sender = true) :
    Becomes h ⟨c.sender, c.receiver, h.wrote, h.popped⟩ (h.launch c) where
  sender_eq := by
    change c.sender = { c.sender with segmentsOut := [] }
    rw [← hqueue]
  receiver_eq := rfl
  segmentsOut_eq := rfl
  wrote_eq := rfl
  popped_eq := rfl
  packets_eq := by
    simp only [Host.launch, hout, hqueue, List.map_nil]
  active := fun _ => hactive
  error := Or.inr ⟨hinactive, by simp [hqueue]⟩
  closed := fun _ => Or.inr hclosed

/-- Events that do not reach the sender leave its queue empty. -/
theorem becomes_aside (r : TCPReceiver) (popped : List Byte) (hout : h.conn.segmentsOut = [])
    (hqueue : h.conn.sender.segmentsOut = [])
    (herror : r.streamOut.error = h.conn.receiver.streamOut.error) :
    Becomes h ⟨h.conn.sender, r, h.wrote, popped⟩
      { h with conn := { h.conn with receiver := r }, popped := popped } where
  sender_eq := by
    simp only
    rw [← hqueue]
  receiver_eq := rfl
  segmentsOut_eq := hout
  wrote_eq := rfl
  popped_eq := rfl
  packets_eq := by simp [hqueue]
  active := fun h => h.resolve_left fun hne => hne hqueue
  error := Or.inl herror
  closed := Or.inl

/-- A delivered segment resets the connection, closes it, or is answered. -/
theorem segmentReceived_turn (hactive : h.conn.active = true)
    (hout : h.conn.segmentsOut = []) (hqueue : h.conn.sender.segmentsOut = []) {i : Nat}
    {p : Packet} (hget : inbound[i]? = some p) :
    ∃ o, Turn inbound h (.deliver i) o (h.conn.segmentReceived p.seg).active
        (h.conn.segmentReceived p.seg).lingerAfterStreamsFinish ∧
      Becomes h o (h.launch (h.conn.segmentReceived p.seg)) := by
  let c : TCPConnection := { h.conn with segReceivedTimeMs := h.conn.nowTimeMs }
  by_cases hrst : p.seg.header.rst = true
  · rw [TCPConnection.segmentReceived, if_pos hrst]
    exact ⟨_, .reset i p hget hrst,
      becomes_closed c.setRstState hactive rfl hout hqueue (Or.inl rfl)⟩
  · rw [TCPConnection.segmentReceived, if_neg hrst]
    rw [Bool.not_eq_true] at hrst
    simp only
    split
    · rename_i hclose
      rw [Bool.and_eq_true, Bool.not_eq_true'] at hclose
      refine ⟨_, .close i p hget hrst hclose.1 hclose.2, ?_⟩
      refine becomes_closed { c.passOn p.seg with active := false } hactive rfl hout ?_
        (Or.inr hclose.1)
      change (TCPConnection.acked h.conn.sender p.seg).segmentsOut = []
      rw [TCPConnection.segmentsOut_acked, hqueue]
    · rename_i hopen
      rw [Bool.and_eq_true, Bool.not_eq_true'] at hopen
      refine ⟨_, .answer i p hget hrst hopen, ?_⟩
      have hlaunch := becomes_launch (h := h) { c.passOn p.seg with
        sender := TCPConnection.reply (c.passOn p.seg).receiver (c.passOn p.seg).sender p.seg }
        h.wrote true hactive hout (Or.inl (TCPReceiver.error_segmentReceived _ _))
        (fun hfalse => by cases hfalse)
      rw [← hactive] at hlaunch
      exact hlaunch

/-- The clock sends the oldest segment again, gives up, or closes a connection whose
streams have finished. -/
theorem tick_turn (hactive : h.conn.active = true) (hout : h.conn.segmentsOut = [])
    (ms : UInt64) :
    ∃ o, Turn inbound h (.tick ms) o (h.conn.tick ms).active
        (h.conn.tick ms).lingerAfterStreamsFinish ∧
      Becomes h o (h.launch (h.conn.tick ms)) := by
  let c : TCPConnection := { h.conn with
    nowTimeMs := h.conn.nowTimeMs + ms
    sender := h.conn.sender.tick ms }
  by_cases hwithin :
      (h.conn.sender.tick ms).consecutiveRetransmissions ≤ TCPConfig.maxRetxAttempts
  · obtain ⟨active, hclosed, htick⟩ := TCPConnection.tick_within hwithin
    rw [htick]
    refine ⟨_, .tick ms active, becomes_launch c h.wrote active hactive hout (Or.inl rfl) ?_⟩
    intro hfalse
    exact (hclosed hfalse).elim (fun hinactive => by rw [hactive] at hinactive; cases hinactive)
      Or.inr
  · rw [TCPConnection.tick_beyond (Nat.lt_of_not_le hwithin)]
    refine ⟨_, .giveUp ms, ?_⟩
    exact becomes_launch { c with
      sender.segmentsOut := [TCPConnection.rstSegment c.sender] }.setRstState h.wrote false hactive
      hout (Or.inr ⟨rfl, by simp [TCPConnection.setRstState, TCPConnection.rstSegment]⟩)
      fun _ => Or.inl rfl

/-- Every event is one of the turns. -/
theorem Host.step_turn (hout : h.conn.segmentsOut = [])
    (hqueue : h.conn.sender.segmentsOut = []) (e : Event) (hallowed : e.Allowed h) :
    ∃ o, Turn inbound h e o (h.step inbound e).conn.active
        (h.step inbound e).conn.lingerAfterStreamsFinish ∧
      Becomes h o (h.step inbound e) := by
  cases e with
  | connect =>
      exact ⟨_, .feed _ _ _ .connect (Or.inr ⟨rfl, rfl, rfl⟩),
        becomes_feed _ h.wrote hallowed hout⟩
  | write data =>
      exact ⟨_, .feed _ _ _ (.write data) (Or.inl trivial), becomes_feed _ _ hallowed hout⟩
  | endInputStream =>
      exact ⟨_, .feed _ _ _ .endInput (Or.inl trivial), becomes_feed _ h.wrote hallowed hout⟩
  | tick ms => exact tick_turn hallowed hout ms
  | read len => exact ⟨_, .read len, becomes_aside _ _ hout hqueue rfl⟩
  | deliver i =>
      cases hget : inbound[i]? with
      | none =>
          rw [Host.step, hget]
          exact ⟨_, .lose i hget, becomes_aside h.conn.receiver h.popped hout hqueue rfl⟩
      | some p =>
          rw [Host.step, hget]
          exact segmentReceived_turn hallowed hout hqueue hget

/-- A turn without its flags is a move. -/
theorem Turn.moves {e : Event} {o : Outcome} {active linger : Bool}
    (hturn : Turn inbound h e o active linger) (hok : e.Delivers ok inbound) :
    Moves inbound ok h o := by
  cases hturn with
  | feed e stream wrote hfeed hspoken => exact .feed stream wrote hfeed
  | tick ms active => exact .tick ms
  | giveUp ms => exact .giveUp ms
  | read len => exact .read len
  | lose i hnone => exact .stay
  | reset i p hget hrst =>
      exact .receive p (List.mem_of_getElem? hget) (hok p hget) _ (.reset hrst)
  | close i p hget hrst hfinished hlinger =>
      exact .receive p (List.mem_of_getElem? hget) (hok p hget) _ (.close hrst)
  | answer i p hget hrst hopen =>
      exact .receive p (List.mem_of_getElem? hget) (hok p hget) _ (.reply hrst)

/-- A delivery hands over the packet that it names. -/
theorem Turn.receives {i : Nat} {p : Packet} {o : Outcome} {active linger : Bool}
    (hturn : Turn inbound h (.deliver i) o active linger) (hget : inbound[i]? = some p) :
    Receives p h o := by
  cases hturn with
  | feed e stream wrote hfeed hspoken =>
      rcases hspoken with hspeaks | ⟨hconnect, -⟩
      · cases hspeaks
      · cases hconnect
  | lose i hnone =>
      rw [hget] at hnone
      cases hnone
  | reset i q hq hrst =>
      obtain rfl := Option.some.inj (hget.symm.trans hq)
      exact .reset hrst
  | close i q hq hrst hfinished hlinger =>
      obtain rfl := Option.some.inj (hget.symm.trans hq)
      exact .close hrst
  | answer i q hq hrst hopen =>
      obtain rfl := Option.some.inj (hget.symm.trans hq)
      exact .reply hrst

/-- Every event is one of the moves. -/
theorem Host.step_moves (hout : h.conn.segmentsOut = [])
    (hqueue : h.conn.sender.segmentsOut = []) (e : Event) (hallowed : e.Allowed h)
    (hok : e.Delivers ok inbound) :
    ∃ o, Moves inbound ok h o ∧ Becomes h o (h.step inbound e) := by
  obtain ⟨o, hturn, hbecomes⟩ := Host.step_turn hout hqueue e hallowed
  exact ⟨o, hturn.moves hok, hbecomes⟩

end Sponge
