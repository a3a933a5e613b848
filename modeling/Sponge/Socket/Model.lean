import Sponge.EventLoop.Model
import Sponge.Stack.Model
import Sponge.TCPConnection.State

/-!
# Two sockets

`TCPSpongeSocket` of `libsponge/tcp_helpers/tcp_sponge_socket.{hh,cc}`: a connection and an
adapter, run by an event loop with four rules.  The owner of a socket reads and writes a pair of
stream sockets; the other end of the pair is `_thread_data`.

Two sockets stand on a channel.  Each has its connection and its adapter there, and what its
rules do to them are events of the stack; the sockets record these events, the bytes that were
read from the owner and the bytes that were written to it.  What `poll` and the other system
calls return is an input.  A turn of `_tcp_loop` is one step.
-/

namespace Sponge

open Library

/-! ## Texts -/

/-- The texts of `TCPReceiverStateSummary`. -/
def TCPReceiverStateSummary.text : TCPReceiverStateSummary → String
  | .error => "error (connection was reset)"
  | .listen => "waiting for SYN: ackno is empty"
  | .synRecv => "SYN received (ackno exists), and input to stream hasn't ended"
  | .finRecv => "input to stream has ended"

/-- The texts of `TCPSenderStateSummary`. -/
def TCPSenderStateSummary.text : TCPSenderStateSummary → String
  | .error => "error (connection was reset)"
  | .closed => "waiting for stream to begin (no SYN sent)"
  | .synSent => "stream started but nothing acknowledged"
  | .synAcked => "stream ongoing"
  | .finSent => "stream finished (FIN sent) but not fully acknowledged"
  | .finAcked => "stream finished and fully acknowledged"

/-- `TCPState::name()`. -/
def TCPState.name (s : TCPState) : String :=
  "sender=`" ++ s.sender.text ++ "`, receiver=`" ++ s.receiver.text ++ "`, active=" ++
    toString s.active.toNat ++ ", linger_after_streams_finish=" ++
    toString s.lingerAfterStreamsFinish.toNat

/-- `remaining_outbound_capacity()`. -/
def TCPConnection.remainingOutboundCapacity (c : TCPConnection) : Nat :=
  c.sender.stream.remainingCapacity

/-! ## The socket -/

/-- The four rules of `_initialize_TCP`, in the order in which they are added. -/
inductive SocketRule where
  | readDatagram
  | readPipe
  | writePipe
  | writeDatagram
deriving DecidableEq, Repr

/-- The rules in the order in which they are added. -/
def SocketRule.all : List SocketRule :=
  [.readDatagram, .readPipe, .writePipe, .writeDatagram]

/-- Where a socket is: before `connect()` or `listen_and_accept()`, in the loop of one of them, in
the loop of `_tcp_main()`, behind it, or behind an exception. -/
inductive SocketPhase where
  | idle
  | connecting
  | accepting
  | running
  | closed
  | failed
deriving DecidableEq, Repr

/-- `TCPSpongeSocket`, without its connection and its adapter. -/
structure TCPSpongeSocket where
  threadData : FileDescriptor := {}
  datagramAdapter : FileDescriptor := {}
  eventloop : EventLoop SocketRule := {}
  phase : SocketPhase := .idle
  inboundShutdown : Bool := false
  outboundShutdown : Bool := false
  /-- The bytes that were read from the owner. -/
  taken : List Byte := []
  /-- The bytes that were written to the owner. -/
  given : List Byte := []

/-- Two sockets on a channel, and the events of the stack so far. -/
structure Sockets (c : Channel) where
  stack : Stack c
  socket : Side → TCPSpongeSocket
  trace : List (Stack.Event c)

/-- What becomes of a `read()` of the adapter: the device returns something, and the adapter a
segment or nothing; the device fails; or the adapter throws behind the device, when it sends the
frames that its interface has queued, and what was read is lost.  Frames that it could not send
count as sent and lost: no call of the adapter follows. -/
inductive Reading (c : Channel) where
  | returned (x : c.Input)
  | failed (e : String)
  | lost (e : String) (x : c.Input)

/-- What is thrown. -/
def Reading.outcome {c : Channel} : Reading c → Except String Unit
  | .returned _ => .ok ()
  | .failed e => .error e
  | .lost e _ => .error e

/-- What calls return in a turn of `_tcp_loop`: the `read()` of the adapter, and whether the device
is at its end then; `read`, `writev` and `shutdown` on `_thread_data`; how often the adapter writes
to its device; and which `write()` of the adapter throws, by its number. -/
structure Answers (c : Channel) where
  datagram : Reading c
  datagramEof : Bool := false
  pipeRead : Except String (List Byte) := .ok []
  pipeWrite : Except String Nat := .ok 0
  pipeShutdown : Except String Unit := .ok ()
  datagramWrites : UInt32 := 1
  datagramFault : Option (Nat × String) := none

namespace Sockets

variable {c : Channel}

/-- Two sockets that have not been opened. -/
def new (channel : c.State) (cfg : Side → TCPConfig) (random : Side → UInt32) : Sockets c where
  stack := Stack.new channel cfg random
  socket _ := {}
  trace := []

/-- An event of the stack. -/
def act (w : Sockets c) (e : Stack.Event c) : Sockets c :=
  { w with stack := w.stack.step e, trace := w.trace ++ [e] }

/-- The socket of a side becomes `k`. -/
def put (w : Sockets c) (side : Side) (k : TCPSpongeSocket) : Sockets c :=
  { w with socket := Function.update w.socket side k }

/-- `_tcp`. -/
def conn (w : Sockets c) (side : Side) : TCPConnection :=
  (w.stack.host side).conn

/-! ## The rules -/

/-- Rule 1: a datagram is read and given to the connection. -/
def readDatagram (side : Side) (a : Answers c) (w : Sockets c) : Except String Unit × Sockets c :=
  let k := w.socket side
  let fd := { k.datagramAdapter with eof := k.datagramAdapter.eof || a.datagramEof }
  let k' := { k with datagramAdapter := fd.registerRead }
  match a.datagram with
  | .returned x => (.ok (), (w.act (.arrive side x)).put side k')
  | .failed e => (.error e, w)
  | .lost e x => (.error e, (w.act (.drop side x)).put side k')

/-- Rule 2: bytes are read from the owner and written to the connection. -/
def readPipe (side : Side) (a : Answers c) (w : Sockets c) : Except String Unit × Sockets c :=
  let k := w.socket side
  let limit := (w.conn side).remainingOutboundCapacity
  match k.threadData.read limit a.pipeRead with
  | (.error e, fd) => (.error e, w.put side { k with threadData := fd })
  | (.ok data, fd) =>
      let amountWritten := ((w.conn side).write data).2
      let k := { k with threadData := fd, taken := k.taken ++ data }
      let w := (w.act (.write side data)).put side k
      if amountWritten ≠ data.length then
        (.error "TCPConnection::write() accepted less than advertised length", w)
      else if fd.eof then
        (.ok (), (w.act (.endInputStream side)).put side { k with outboundShutdown := true })
      else (.ok (), w)

/-- Rule 2 is cancelled. -/
def cancelPipe (side : Side) (w : Sockets c) : Sockets c :=
  (w.act (.endInputStream side)).put side { w.socket side with outboundShutdown := true }

/-- Rule 3: bytes of the inbound stream are written to the owner. -/
def writePipe (side : Side) (a : Answers c) (w : Sockets c) : Except String Unit × Sockets c :=
  let k := w.socket side
  let inbound := (w.conn side).inboundStream
  let buffer := inbound.peekOutput (min 65536 inbound.bufferSize)
  let writing := k.threadData.write (.ofString buffer) false [a.pipeWrite]
  let k := { k with threadData := writing.fd, given := k.given ++ writing.taken }
  match writing.returned with
  | none => (.ok (), w.put side k)
  | some (.error e) => (.error e, w.put side k)
  | some (.ok bytesWritten) =>
      let w := (w.act (.read side bytesWritten)).put side k
      let inbound := (w.conn side).inboundStream
      if inbound.eof || inbound.error then
        match a.pipeShutdown with
        | .error e => (.error e, w)
        | .ok _ => (.ok (), w.put side { k with
            threadData := k.threadData.registerWrite
            inboundShutdown := true })
      else (.ok (), w)

/-- The loop of rule 4: the first segment of the queue is written to the adapter and leaves the
queue, as long as there is one.  A segment whose `write()` throws stays in the queue. -/
def transmitAll (side : Side) :
    Option (Nat × String) → List TCPSegment → Sockets c → Except String Unit × Sockets c
  | _, [], w => (.ok (), w)
  | none, _ :: rest, w => transmitAll side none rest (w.act (.transmit side))
  | some (0, e), _ :: _, w => (.error e, w)
  | some (n + 1, e), _ :: rest, w => transmitAll side (some (n, e)) rest (w.act (.transmit side))

/-- Rule 4: segments are written to the adapter. -/
def writeDatagram (side : Side) (a : Answers c) (w : Sockets c) :
    Except String Unit × Sockets c :=
  let k := w.socket side
  let fd := { k.datagramAdapter with writeCount := k.datagramAdapter.writeCount + a.datagramWrites }
  let (result, w) := transmitAll side a.datagramFault (w.conn side).segmentsOut w
  (result, w.put side { k with datagramAdapter := fd })

/-- What `interest` of a rule returns; it does not throw. -/
def interested (side : Side) : SocketRule → Sockets c → Bool
  | .readDatagram, w => (w.conn side).active
  | .readPipe, w => (w.conn side).active && !(w.socket side).outboundShutdown &&
      decide ((w.conn side).remainingOutboundCapacity > 0)
  | .writePipe, w =>
      let inbound := (w.conn side).inboundStream
      !inbound.bufferEmpty || (inbound.eof || inbound.error) && !(w.socket side).inboundShutdown
  | .writeDatagram, w => !(w.conn side).segmentsOut.isEmpty

/-- What `cancel` of a rule does; it does not throw.  Only rule 2 has one. -/
def cancelled (side : Side) : SocketRule → Sockets c → Sockets c
  | .readPipe, w => cancelPipe side w
  | _, w => w

/-- The rules that `_initialize_TCP` adds to the event loop. -/
def rules (c : Channel) (side : Side) : RuleTable SocketRule (Sockets c) (Answers c) where
  direction
    | .readDatagram => .input
    | .readPipe => .input
    | .writePipe => .output
    | .writeDatagram => .output
  fd
    | .readDatagram => fun w => (w.socket side).datagramAdapter
    | .readPipe => fun w => (w.socket side).threadData
    | .writePipe => fun w => (w.socket side).threadData
    | .writeDatagram => fun w => (w.socket side).datagramAdapter
  callback
    | .readDatagram => readDatagram side
    | .readPipe => readPipe side
    | .writePipe => writePipe side
    | .writeDatagram => writeDatagram side
  interest r w := .ok (interested side r w)
  cancel r w := (.ok (), cancelled side r w)

/-! ## The loop -/

/-- The condition of the loop that a socket is in. -/
def condition (phase : SocketPhase) (state : TCPState) : Bool :=
  match phase with
  | .idle => false
  | .connecting => decide (state = .ofState .synSent)
  | .accepting => decide (state = .ofState .listen ∨ state = .ofState .synRcvd ∨
      state = .ofState .synSent)
  | .running => true
  | .closed => false
  | .failed => false

/-- What comes behind the loop that a socket is in: a thread with the loop of `_tcp_main()`, or
the `shutdown(SHUT_RDWR)` that ends it. -/
def next : SocketPhase → Except String Unit → Except String Unit × SocketPhase
  | .connecting, _ => (.ok (), .running)
  | .accepting, _ => (.ok (), .running)
  | .running, .ok _ => (.ok (), .closed)
  | .running, .error e => (.error e, .failed)
  | phase, _ => (.ok (), phase)

/-- What a turn of `_tcp_loop` finds: the results of calls, among them the `tick()` of the adapter
and the `shutdown` behind the loop, the flag `_abort`, and the time since the last tick. -/
structure Round (c : Channel) where
  poll : EventLoop.Poll SocketRule
  answers : Answers c
  abort : Bool := false
  elapsed : UInt64 := 0
  datagramTick : Except String Unit := .ok ()
  shutdown : Except String Unit := .ok ()

/-- The socket is in another phase. -/
def enter (w : Sockets c) (side : Side) (phase : SocketPhase) : Sockets c :=
  w.put side { w.socket side with phase := phase }

/-- `wait_next_event`, on the event loop of a side. -/
def wait (side : Side) (r : Round c) (w : Sockets c) :
    Except String EventLoop.Result × Sockets c :=
  let (result, loop, w) := EventLoop.waitNextEvent (rules c side) r.poll (fun _ => r.answers)
    (w.socket side).eventloop w
  (result, w.put side { w.socket side with eventloop := loop })

/-- The loop is left. -/
def leave (side : Side) (r : Round c) (w : Sockets c) : Except String Unit × Sockets c :=
  let (result, phase) := next (w.socket side).phase r.shutdown
  (result, w.enter side phase)

/-- A turn of `_tcp_loop`.  An exception ends the loop and the thread. -/
def turn (side : Side) (r : Round c) (w : Sockets c) : Except String Unit × Sockets c :=
  if condition (w.socket side).phase (w.conn side).state then
    match wait side r w with
    | (.error e, w) => (.error e, w.enter side .failed)
    | (.ok result, w) =>
        if result = .exit ∨ r.abort = true then leave side r w
        else if (w.conn side).active then
          let w := w.act (.tick side r.elapsed)
          match r.datagramTick with
          | .error e => (.error e, w.enter side .failed)
          | .ok _ => (.ok (), w)
        else (.ok (), w)
  else leave side r w

/-- `_initialize_TCP(config)`. -/
def initializeTCP (w : Sockets c) (side : Side) (phase : SocketPhase) : Sockets c :=
  w.put side { w.socket side with
    eventloop := SocketRule.all.foldl EventLoop.addRule (w.socket side).eventloop
    phase := phase }

/-- `connect(c_tcp, c_ad)`, up to its loop.  When `_tcp_main()` has returned, `_tcp` is empty again;
a second connection of the same socket is left out. -/
def connect (side : Side) (w : Sockets c) : Except String Unit × Sockets c :=
  if (w.socket side).phase = .closed then (.ok (), w)
  else if (w.socket side).phase ≠ .idle then
    (.error "connect() with TCPConnection already initialized", w)
  else
    let w := (w.initializeTCP side .connecting).act (.connect side)
    if (w.conn side).state ≠ .ofState .synSent then
      (.error ("After TCPConnection::connect(), state was " ++ (w.conn side).state.name ++
        " but expected " ++ (TCPState.ofState .synSent).name), w.enter side .failed)
    else (.ok (), w)

/-- `listen_and_accept(c_tcp, c_ad)`, up to its loop. -/
def listenAndAccept (side : Side) (w : Sockets c) : Except String Unit × Sockets c :=
  if (w.socket side).phase = .closed then (.ok (), w)
  else if (w.socket side).phase ≠ .idle then
    (.error "listen_and_accept() with TCPConnection already initialized", w)
  else (.ok (), w.initializeTCP side .accepting)

/-- What can happen to two sockets. -/
inductive Event (c : Channel) where
  | connect (side : Side)
  | listenAndAccept (side : Side)
  | turn (side : Side) (r : Round c)
  | other (e : c.Event)

/-- The call that an event makes. -/
def call (w : Sockets c) : Event c → Except String Unit × Sockets c
  | .connect side => connect side w
  | .listenAndAccept side => listenAndAccept side w
  | .turn side r => turn side r w
  | .other e => (.ok (), w.act (.other e))

/-- The sockets behind an event. -/
def step (w : Sockets c) (e : Event c) : Sockets c :=
  (w.call e).2

end Sockets
end Sponge
