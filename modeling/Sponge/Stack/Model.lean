import Sponge.Network.Model
import Sponge.TCPOverIPv4.Tuntap

/-!
# Two connections and their adapters

A host as `TCPSpongeSocket` runs it: a connection on top of an adapter.  A segment that the
adapter returns is given to `segment_received()`, what the connection has enqueued is passed
to the adapter's `write()` when the device is ready, and time passes for both.

A channel is what lies between two hosts, with their two adapters: what is written at one side
and read at the other one.  All that is asked of it is that a side reads only what the other
one wrote, up to the ports and the checksum that the adapters fill in.  It may lose, repeat,
delay and reorder segments.

As in the network of the connections alone, a host records the bytes its application has
written and read and the segments its connection has emitted.  Here, emitted segments stay in
`segments_out()` until they are written.
-/

namespace Sponge

open Library

/-- The other endpoint. -/
def Side.other : Side → Side
  | .a => .b
  | .b => .a

theorem Side.other_other (side : Side) : side.other.other = side := by
  cases side <;> rfl

theorem Side.other_ne (side : Side) : side.other ≠ side := by
  cases side <;> decide

theorem Side.eq_other_of_ne {side side' : Side} (h : side' ≠ side) : side' = side.other := by
  cases side <;> cases side' <;> simp_all [Side.other]

instance (p : Side → Prop) [DecidablePred p] : Decidable (∀ side, p side) :=
  decidable_of_iff (p .a ∧ p .b)
    ⟨fun h side => match side with | .a => h.1 | .b => h.2, fun h => ⟨h .a, h .b⟩⟩

/-- The segment without what an adapter fills in. -/
def TCPSegment.bare (seg : TCPSegment) : TCPSegment :=
  { seg with header := { seg.header with sport := 0, dport := 0, cksum := 0 } }

/-- Two adapters and what joins them.  `Input` is what a device returns to a `read()`, `Event`
what else can happen, and `written` records the segments passed to the `write()` of a side. -/
structure Channel where
  State : Type
  Input : Type
  Event : Type
  write : State → Side → TCPSegment → State
  read : State → Side → Input → Option TCPSegment × State
  tick : State → Side → UInt64 → State
  other : State → Event → State
  written : State → Side → List TCPSegment
  Ready : State → Prop
  InputOk : State → Side → Input → Prop
  EventOk : State → Event → Prop
  ready_write : ∀ s side seg, Ready s → seg.Sized → Ready (write s side seg)
  ready_read : ∀ s side x, Ready s → InputOk s side x → Ready (read s side x).2
  ready_tick : ∀ s side ms, Ready s → Ready (tick s side ms)
  ready_other : ∀ s e, Ready s → EventOk s e → Ready (other s e)
  written_write : ∀ s side seg side', written (write s side seg) side' =
    if side' = side then written s side' ++ [seg] else written s side'
  written_read : ∀ s side x, written (read s side x).2 = written s
  written_tick : ∀ s side ms, written (tick s side ms) = written s
  written_other : ∀ s e, EventOk s e → written (other s e) = written s
  /-- A side reads what the other one wrote. -/
  authentic : ∀ s side x seg, Ready s → InputOk s side x → (read s side x).1 = some seg →
    ∃ original ∈ written s side.other, seg.bare = original.bare

namespace Host

/-- The connection has become `c`, and what it has enqueued is recorded. -/
def enqueue (h : Host) (c : TCPConnection) : Host :=
  { h with
    conn := c
    packets := h.packets ++
      (c.segmentsOut.drop h.conn.segmentsOut.length).map (Packet.ofSegment c) }

/-- The host whose segments have all gone out. -/
def settled (h : Host) : Host :=
  { h with conn := { h.conn with segmentsOut := [] } }

end Host

/-- Two hosts on a channel. -/
structure Stack (c : Channel) where
  channel : c.State
  host : Side → Host

namespace Stack

variable {c : Channel}

/-- Two fresh connections. -/
def new (channel : c.State) (cfg : Side → TCPConfig) (random : Side → UInt32) : Stack c where
  channel := channel
  host side := Host.new (cfg side) (random side)

/-- The network of the two connections. -/
def network (s : Stack c) : Network where
  a := (s.host .a).settled
  b := (s.host .b).settled

/-- What can happen.  `drop` is a `read()` that throws behind what the device has returned, so that
the segment is lost. -/
inductive Event (c : Channel) where
  | connect (side : Side)
  | write (side : Side) (data : List Byte)
  | endInputStream (side : Side)
  | read (side : Side) (len : Nat)
  | tick (side : Side) (msSinceLastTick : UInt64)
  | arrive (side : Side) (x : c.Input)
  | drop (side : Side) (x : c.Input)
  | transmit (side : Side)
  | other (e : c.Event)

/-- The host of a side becomes `h`. -/
def become (s : Stack c) (side : Side) (h : Host) : Stack c :=
  { s with host := Function.update s.host side h }

/-- The stack behind an event. -/
def step (s : Stack c) : Event c → Stack c
  | .connect side => s.become side ((s.host side).enqueue (s.host side).conn.connect)
  | .write side data =>
      let h := s.host side
      let written := h.conn.write data
      s.become side { h.enqueue written.1 with wrote := h.wrote ++ data.take written.2 }
  | .endInputStream side =>
      s.become side ((s.host side).enqueue (s.host side).conn.endInputStream)
  | .read side len =>
      let h := s.host side
      s.become side { h with
        conn := { h.conn with receiver := h.conn.receiver.popOutput len }
        popped := h.popped ++ h.conn.inboundStream.peekOutput len }
  | .tick side ms =>
      { s.become side ((s.host side).enqueue ((s.host side).conn.tick ms)) with
        channel := c.tick s.channel side ms }
  | .arrive side x =>
      match c.read s.channel side x with
      | (none, channel) => { s with channel := channel }
      | (some seg, channel) =>
          { s.become side ((s.host side).enqueue ((s.host side).conn.segmentReceived seg)) with
            channel := channel }
  | .drop side x => { s with channel := (c.read s.channel side x).2 }
  | .transmit side =>
      match (s.host side).conn.segmentsOut with
      | [] => s
      | seg :: rest =>
          { s.become side { s.host side with
              conn := { (s.host side).conn with segmentsOut := rest } } with
            channel := c.write s.channel side seg }
  | .other e => { s with channel := c.other s.channel e }

/-! ## Side conditions -/

/-- If the segment is a copy of packets of the peer, the seqno of one of them is
unambiguous. -/
def Timely (h peer : Host) (seg : TCPSegment) : Prop :=
  (∃ p ∈ peer.packets, seg.bare = p.seg.bare) →
    ∃ p ∈ peer.packets, seg.bare = p.seg.bare ∧ p.SeqnoNear h

instance (h peer : Host) (seg : TCPSegment) : Decidable (Timely h peer seg) :=
  inferInstanceAs (Decidable (_ → _))

/-- Operations are invoked on active connections, the bytes in flight stay bounded, and the
seqnos that arrive are unambiguous. -/
def Event.Ok (s : Stack c) : Event c → Prop
  | .connect side =>
      (s.host side).conn.active = true ∧ ((s.step (.connect side)).host side).Bounded
  | .write side data =>
      (s.host side).conn.active = true ∧ ((s.step (.write side data)).host side).Bounded
  | .endInputStream side =>
      (s.host side).conn.active = true ∧ ((s.step (.endInputStream side)).host side).Bounded
  | .read _ _ => True
  | .tick side ms =>
      (s.host side).conn.active = true ∧ ((s.step (.tick side ms)).host side).Bounded
  | .arrive side x =>
      c.InputOk s.channel side x ∧
        ∀ seg ∈ (c.read s.channel side x).1, (s.host side).conn.active = true ∧
          ((s.step (.arrive side x)).host side).Bounded ∧
          Timely (s.host side) (s.host side.other) seg
  | .drop side x => c.InputOk s.channel side x
  | .transmit _ => True
  | .other e => c.EventOk s.channel e

instance [∀ s side x, Decidable (c.InputOk s side x)] [∀ s e, Decidable (c.EventOk s e)]
    (s : Stack c) : ∀ e, Decidable (Event.Ok s e)
  | .connect _ => inferInstanceAs (Decidable (_ ∧ _))
  | .write _ _ => inferInstanceAs (Decidable (_ ∧ _))
  | .endInputStream _ => inferInstanceAs (Decidable (_ ∧ _))
  | .read _ _ => inferInstanceAs (Decidable True)
  | .tick _ _ => inferInstanceAs (Decidable (_ ∧ _))
  | .arrive _ _ => inferInstanceAs (Decidable (_ ∧ ∀ _ ∈ _, _ ∧ _ ∧ _))
  | .drop _ _ => inferInstanceAs (Decidable (c.InputOk _ _ _))
  | .transmit _ => inferInstanceAs (Decidable True)
  | .other _ => inferInstanceAs (Decidable (c.EventOk _ _))

end Stack
end Sponge
