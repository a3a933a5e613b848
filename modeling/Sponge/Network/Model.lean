import Sponge.Library.Execution
import Sponge.TCPConnection.Model

/-!
# Two connections and a network

Two endpoints joined by a network that keeps every segment either of them has ever
placed on `segments_out()` and may deliver it to the other one at any time, any number of
times, or never.  The applications connect, write, end their streams and read, and time
passes at either endpoint at its own pace.

Next to its connection a host records the bytes its application has written and read,
and every segment it has emitted.  A segment carries 32-bit numbers; a packet adds the
absolute positions that these numbers stood for when it was emitted.

The side conditions of a run are those under which 32-bit numbers are unambiguous:
fewer than `2 ^ 31` bytes in flight, and delivered numbers less than `2 ^ 31` away from
the position that they are compared with.
-/

namespace Sponge

open Library

/-- A segment on the network with the positions of its seqno and its ackno, and the
`_next_seqno` of the sender when it was emitted. -/
structure Packet where
  seg : TCPSegment
  absSeqno : Nat
  absAckno : Nat
  nextSeqno : Nat
deriving DecidableEq, Repr

/-- The packet for a segment that `c` emits.  Its seqno is at most `_next_seqno`, and the
last position up to there that has its 32 bits; its ackno is that of the receiver. -/
def Packet.ofSegment (c : TCPConnection) (seg : TCPSegment) : Packet where
  seg := seg
  absSeqno := c.sender.nextSeqno -
    ((wrap c.sender.nextSeqno c.sender.isn).rawValue - seg.header.seqno.rawValue).toNat
  absAckno := c.receiver.absoluteAckno
  nextSeqno := c.sender.nextSeqno

/-- An endpoint: its connection, the bytes its application wrote and read, and the
packets it emitted. -/
structure Host where
  conn : TCPConnection
  wrote : List Byte
  popped : List Byte
  packets : List Packet

namespace Host

/-- A host with a fresh connection. -/
def new (cfg : TCPConfig) (random : UInt32) : Host where
  conn := TCPConnection.new cfg random
  wrote := []
  popped := []
  packets := []

/-- All bytes ever written to the inbound stream. -/
def received (h : Host) : List Byte :=
  h.popped ++ h.conn.inboundStream.contents

/-- The owner takes what the connection has enqueued and puts it on the network. -/
def launch (h : Host) (c : TCPConnection) : Host :=
  { h with
    conn := { c with segmentsOut := [] }
    packets := h.packets ++ c.segmentsOut.map (Packet.ofSegment c) }

end Host

/-- What can happen at an endpoint; `deliver i` delivers packet `i` of the other one. -/
inductive Event where
  | connect
  | write (data : List Byte)
  | endInputStream
  | tick (msSinceLastTick : UInt64)
  | read (len : Nat)
  | deliver (i : Nat)
deriving DecidableEq, Repr

/-- An event at a host, where `inbound` are the packets of the other host. -/
def Host.step (inbound : List Packet) (h : Host) : Event → Host
  | .connect => h.launch h.conn.connect
  | .write data =>
      let written := h.conn.write data
      { h.launch written.1 with wrote := h.wrote ++ data.take written.2 }
  | .endInputStream => h.launch h.conn.endInputStream
  | .tick ms => h.launch (h.conn.tick ms)
  | .read len =>
      { h with
        conn := { h.conn with receiver := h.conn.receiver.popOutput len }
        popped := h.popped ++ h.conn.inboundStream.peekOutput len }
  | .deliver i =>
      match inbound[i]? with
      | none => h
      | some p => h.launch (h.conn.segmentReceived p.seg)

/-! ## Side conditions -/

/-- Two positions are less than `2 ^ 31` apart. -/
def Near (a b : Nat) : Prop :=
  a < b + 2 ^ 31 ∧ b < a + 2 ^ 31

instance (a b : Nat) : Decidable (Near a b) :=
  inferInstanceAs (Decidable (_ ∧ _))

/-- The receiver of `h` unwraps the seqno of a packet only if the packet is no RST and
the SYN has been seen; then the seqno is unambiguous. -/
def Packet.SeqnoNear (p : Packet) (h : Host) : Prop :=
  p.seg.header.rst = false → h.conn.receiver.setIsn = true ∨ p.seg.header.syn = true →
    Near p.absSeqno h.conn.inboundStream.bytesWritten

instance (p : Packet) (h : Host) : Decidable (p.SeqnoNear h) :=
  inferInstanceAs (Decidable (_ → _ → _))

/-- The sender of `h` unwraps the ackno of a packet only if it is no RST and has the ack
flag; then the ackno is unambiguous. -/
def Packet.AcknoNear (p : Packet) (h : Host) : Prop :=
  p.seg.header.rst = false → p.seg.header.ack = true →
    Near p.absAckno h.conn.sender.nextSeqno

instance (p : Packet) (h : Host) : Decidable (p.AcknoNear h) :=
  inferInstanceAs (Decidable (_ → _ → _))

/-- Operations are invoked on active connections only; reading is always possible. -/
def Event.Allowed (h : Host) : Event → Prop
  | .read _ => True
  | _ => h.conn.active = true

instance (h : Host) : ∀ e, Decidable (Event.Allowed h e)
  | .read _ => inferInstanceAs (Decidable True)
  | .connect => inferInstanceAs (Decidable (_ = _))
  | .write _ => inferInstanceAs (Decidable (_ = _))
  | .endInputStream => inferInstanceAs (Decidable (_ = _))
  | .tick _ => inferInstanceAs (Decidable (_ = _))
  | .deliver _ => inferInstanceAs (Decidable (_ = _))

/-- A condition on the packet that an event delivers. -/
def Event.Delivers (ok : Packet → Prop) (inbound : List Packet) : Event → Prop
  | .deliver i => ∀ p ∈ inbound[i]?, ok p
  | _ => True

instance (ok : Packet → Prop) [DecidablePred ok] (inbound : List Packet) :
    ∀ e, Decidable (Event.Delivers ok inbound e)
  | .deliver i =>
      match h : inbound[i]? with
      | none => isTrue (by simp [Event.Delivers, h])
      | some p => decidable_of_iff (ok p) (by simp [Event.Delivers, h])
  | .read _ => inferInstanceAs (Decidable True)
  | .connect => inferInstanceAs (Decidable True)
  | .write _ => inferInstanceAs (Decidable True)
  | .endInputStream => inferInstanceAs (Decidable True)
  | .tick _ => inferInstanceAs (Decidable True)

/-- Fewer than `2 ^ 31` bytes are in flight, and 64-bit positions are far from
overflowing. -/
def Host.Bounded (h : Host) : Prop :=
  h.conn.bytesInFlight < 2 ^ 31 ∧ h.conn.sender.stream.bytesWritten < 2 ^ 62

instance (h : Host) : Decidable h.Bounded :=
  inferInstanceAs (Decidable (_ ∧ _))

/-- The conditions for delivered seqnos: operations are invoked on active endpoints, the
bytes in flight stay bounded and the seqno delivered is unambiguous. -/
def Event.SeqnoOk (h peer : Host) (e : Event) : Prop :=
  e.Allowed h ∧ (h.step peer.packets e).Bounded ∧
    e.Delivers (fun p => p.SeqnoNear h) peer.packets

instance (h peer : Host) (e : Event) : Decidable (e.SeqnoOk h peer) :=
  inferInstanceAs (Decidable (_ ∧ _ ∧ _))

/-- The conditions for delivered seqnos and acknos. -/
def Event.Ok (h peer : Host) (e : Event) : Prop :=
  e.SeqnoOk h peer ∧ e.Delivers (fun p => p.AcknoNear h) peer.packets

instance (h peer : Host) (e : Event) : Decidable (e.Ok h peer) :=
  inferInstanceAs (Decidable (_ ∧ _))

/-! ## The network -/

/-- The two endpoints. -/
inductive Side where
  | a
  | b
deriving DecidableEq, Repr

/-- The two hosts with all they have emitted. -/
structure Network where
  a : Host
  b : Host

namespace Network

/-- Two fresh connections. -/
def new (cfgA cfgB : TCPConfig) (randomA randomB : UInt32) : Network where
  a := Host.new cfgA randomA
  b := Host.new cfgB randomB

/-- An event at one of the endpoints. -/
def step (n : Network) : Side × Event → Network
  | (.a, e) => { n with a := n.a.step n.b.packets e }
  | (.b, e) => { n with b := n.b.step n.a.packets e }

/-- The host at a side, and its peer. -/
def host (n : Network) : Side → Host
  | .a => n.a
  | .b => n.b

def peer (n : Network) : Side → Host
  | .a => n.b
  | .b => n.a

/-- A condition on events at a host with its peer, as a condition on steps. -/
def Allows (ok : Host → Host → Event → Prop) (n : Network) (e : Side × Event) : Prop :=
  ok (n.host e.1) (n.peer e.1) e.2

instance (ok : Host → Host → Event → Prop) [∀ h k e, Decidable (ok h k e)] (n : Network)
    (e : Side × Event) : Decidable (n.Allows ok e) :=
  inferInstanceAs (Decidable (ok _ _ _))

end Network
end Sponge
