import Sponge.Socket.Rounds
import Sponge.Stack.Internet

/-!
# From owner to owner

What the owner of a socket is given is the beginning of what the owner of the other one has sent,
across all layers: the stream sockets, the event loops, the connections, the adapters, the
interfaces and the routers.

Main results:

- Theorem {lit}`Sockets.sockets_disciplined`: how a socket uses its connection, and what becomes of
  the bytes.
- Theorem {lit}`Internet.owner_stream_safety`: what the owners see.
-/

namespace Sponge

open Library

namespace Sockets

variable {c : Channel} (channel : c.State) (cfg : Side → TCPConfig) (random : Side → UInt32)

theorem sound_run (events : List (Event c)) :
    Sound (Stack.new channel cfg random) (run step (new channel cfg random) events) :=
  (admissible_true _ events).invariant (fun _ e h _ => h.step e) (sound_new channel cfg random)

/-- In every run of two sockets, whatever `poll` reports, whatever the system calls and the adapters
return or throw, and also behind an exception: `connect()`, `segment_received()` and `tick()` are
called on active connections only; `write()` and `end_input_stream()` on a connection that is active
or that the peer has reset, and `end_input_stream()` also where it does nothing.  All bytes that
were read from an owner are accepted by its connection, and no byte is given to an owner that its
connection has not received; without an exception, the bytes that were given are exactly those that
were taken from the inbound stream. -/
theorem sockets_disciplined (events : List (Event c)) (side : Side) :
    let w := run step (new channel cfg random) events
    Admissible Stack.step Stack.Event.Disciplined (Stack.new channel cfg random) w.trace ∧
      w.stack = run Stack.step (Stack.new channel cfg random) w.trace ∧
      (w.socket side).taken = (w.stack.host side).wrote ∧
      (w.socket side).given <+: (w.stack.host side).received ∧
      ((w.socket side).phase ≠ .failed → (w.socket side).given = (w.stack.host side).popped) := by
  intro w
  have hsound := sound_run channel cfg random events
  have hfine := hsound.fine side
  exact ⟨hsound.lawful.disciplined, hsound.lawful.stack_eq, hfine.basic.taken_eq,
    hfine.basic.given_part, fun hfailed => (hfine.regular hfailed).given_eq⟩

variable {channel cfg random}

/-- What an owner is given is the beginning of what the other one has sent. -/
theorem given_isPrefix_taken {events : List (Event c)} (hready : c.Ready channel)
    (hwritten : ∀ side, c.written channel side = [])
    (hcapacity : ∀ side, (cfg side).recvCapacity < 2 ^ 63)
    (hmild : Admissible Stack.step Stack.Event.Mild (Stack.new channel cfg random)
      (run step (new channel cfg random) events).trace) (side : Side) :
    ((run step (new channel cfg random) events).socket side).given <+:
      ((run step (new channel cfg random) events).socket side.other).taken := by
  have hsound := sound_run channel cfg random events
  have hreceived := Stack.received_isPrefix_of_disciplined hready hwritten hcapacity hmild
    hsound.lawful.disciplined side
  rw [← hsound.lawful.stack_eq] at hreceived
  rw [(hsound.fine side.other).basic.taken_eq]
  exact (hsound.fine side).basic.given_part.trans hreceived

end Sockets

namespace Internet

variable {ι κ : Type} [DecidableEq ι] [DecidableEq κ] (shift32 : UInt32 → UInt32) (pair : Pair ι)
  (station : ι → StationPlan) (router : κ → RouterPlan) (cfg : Side → TCPConfig)
  (random : Side → UInt32)

/-- Two sockets on stations of a fresh internetwork. -/
def sockets : Sockets (pair.channel shift32 fun k => (router k).rules) :=
  Sockets.new (new station router : Internet ι κ) cfg random

/-- Two sockets across an internetwork, on stations that are tied to each other, with capacities
below `2 ^ 63` and routers whose rules name interfaces that exist.  In every run in which fewer than
`2 ^ 31` bytes are in flight and fewer than `2 ^ 62` were written, the seqnos that arrive are
unambiguous, no IPv4 frame arrives that was not sent before, the two stations are used by their
sockets only, and the others write segments that fit a datagram, from addresses of their own and not
to the port of a side that listens: the bytes that the owner of a socket is given are the beginning
of the bytes that were read from the owner of the other one.  The links may lose, repeat and reorder
frames and bring frames of other types, and `poll`, the system calls and the adapters may return or
throw anything. -/
theorem owner_stream_safety (hvalid : ∀ k, (router k).Valid)
    (htied : ∀ side, pair.Tied side (station (pair.station side)).base)
    (hcapacity : ∀ side, (cfg side).recvCapacity < 2 ^ 63)
    (events : List (Sockets.Event (pair.channel shift32 fun k => (router k).rules)))
    (hmild : Admissible Stack.step Stack.Event.Mild (hosts shift32 pair station router cfg random)
      (run Sockets.step (sockets shift32 pair station router cfg random) events).trace)
    (side : Side) :
    ((run Sockets.step (sockets shift32 pair station router cfg random) events).socket side).given
      <+: ((run Sockets.step (sockets shift32 pair station router cfg random) events).socket
        side.other).taken :=
  Sockets.given_isPrefix_taken (c := pair.channel shift32 fun k => (router k).rules)
    (pair.ready_new station router hvalid htied) (fun _ => rfl) hcapacity hmild side

end Internet

/-! ## Two stations on one link -/

namespace TwoStations

/-- A client, and a server that listens. -/
def plan : Side → Internet.StationPlan
  | .a => ⟨⟨⟨⟨1, 80⟩, ⟨2, 90⟩⟩, false⟩, ⟨[2, 0, 0, 0, 0, 1], rfl⟩, ⟨1, 0⟩, ⟨2, 0⟩⟩
  | .b => ⟨⟨⟨⟨0, 90⟩, ⟨0, 0⟩⟩, true⟩, ⟨[2, 0, 0, 0, 0, 2], rfl⟩, ⟨2, 0⟩, ⟨1, 0⟩⟩

/-- There is no router. -/
def noRouter : Empty → Internet.RouterPlan :=
  Empty.elim

/-- The stations are tied to each other. -/
def pair : Internet.Pair Side :=
  ⟨id, fun side => if side = .a then ⟨1, 80⟩ else ⟨2, 90⟩, by decide, by decide⟩

/-- Both sides have the default configuration. -/
def cfg : Side → TCPConfig := fun _ => {}

/-- Both sides draw the same random number. -/
def random : Side → UInt32 := fun _ => 5

/-- The link between them. -/
abbrev link : Channel := pair.channel id fun k => (noRouter k).rules

/-- Nothing has been sent. -/
def silence : link.State := Internet.new plan noRouter

/-- What can happen to two sockets on the link. -/
abbrev SocketEvent : Type := Sockets.Event link

/-- A turn of a side in which one rule is ready. -/
def turn (side : Side) (rule : SocketRule) (arrival : Nat) (bytes : List Byte) (n : Nat) :
    SocketEvent :=
  .turn side
    { poll := .ready fun r => if r = rule then { pollin := true, pollout := true } else {}
      answers := { datagram := .returned (Internet.Arrival.copy arrival)
                   pipeRead := .ok bytes
                   pipeWrite := .ok n } }

/-- A copy of a frame arrives. -/
def hear (side : Side) (n : Nat) : SocketEvent := turn side .readDatagram n [] 0

/-- Segments are written. -/
def speak (side : Side) : SocketEvent := turn side .writeDatagram 0 [] 0

/-- The owner has sent bytes, or has closed. -/
def send (side : Side) (bytes : List Byte) : SocketEvent := turn side .readPipe 0 bytes 0

/-- The owner takes bytes. -/
def deliver (side : Side) (n : Nat) : SocketEvent := turn side .writePipe 0 [] n

/-- The client connects and its owner sends three bytes; the acknowledgement of the server's SYN is
lost, and the owner of the server takes the bytes in two pieces. -/
def exchange : List SocketEvent :=
  [.connect .a, .listenAndAccept .b, speak .a, hear .b 1, hear .a 3, hear .b 4, speak .b, hear .a 5,
    send .a [], speak .a, send .a [1, 2, 3], speak .a, hear .b 7, send .b [], deliver .b 2,
    deliver .b 1]

/-- Then the owner of the client closes, and the owner of the server. -/
def farewell : List SocketEvent :=
  [send .a [], speak .a, hear .b 8, deliver .b 0, send .b [], speak .b, hear .a 11, speak .a,
    hear .b 12, speak .b]

/-- Three bytes cross a link. -/
theorem owner_stream_safety_pieces :
    ((run Sockets.step (Internet.sockets id pair plan noRouter cfg random) exchange).socket
        .b).given = [1, 2, 3] ∧
      ((run Sockets.step (Internet.sockets id pair plan noRouter cfg random) exchange).socket
        .b).given <+:
        ((run Sockets.step (Internet.sockets id pair plan noRouter cfg random) exchange).socket
          Side.b.other).taken :=
  ⟨by decide +kernel, Internet.owner_stream_safety id pair plan noRouter cfg random
    (fun k => k.elim) (by decide +kernel) (by decide) exchange (by decide +kernel) .b⟩

end TwoStations
end Sponge
