import Sponge.ByteStream
import Sponge.EventLoop.Invariant

/-!
# Copying between a socket and a terminal

`bidirectional_stream_copy` of `apps/bidirectional_stream_copy.cc`: what is read from the standard
input is written to a socket, and what is read from the socket is written to the standard output.
Both directions have a byte stream of their own, and one event loop with four rules runs them.

A direction is a lane: its stream, the flag that says that the far end was shut down, and a record
of the bytes that were read at one end and written at the other one.  What the system calls return
is an input.  A turn of the loop is one step.
-/

namespace Sponge

open Library

/-- The four rules, in the order in which they are added. -/
inductive CopyRule where
  | readInput
  | writeSocket
  | readSocket
  | writeOutput
deriving DecidableEq, Repr

/-- The rules in the order in which they are added. -/
def CopyRule.all : List CopyRule :=
  [.readInput, .writeSocket, .readSocket, .writeOutput]

/-- What system calls return to a rule: to `read`, to `writev`, and to `shutdown` or `close`. -/
structure CopyAnswers where
  read : Except String (List Byte) := .ok []
  write : Except String Nat := .ok 0
  finish : Except String Unit := .ok ()

/-- `_outbound` and `_outbound_shutdown`, or `_inbound` and `_inbound_shutdown`. -/
structure Lane where
  stream : ByteStream
  shutdown : Bool := false
  /-- The bytes that were read from the descriptor at the near end. -/
  taken : List Byte := []
  /-- The bytes that were written to the descriptor at the far end. -/
  given : List Byte := []

namespace Lane

/-- `max_copy_length`. -/
def maxCopyLength : Nat := 65536

/-- Bytes are read into the stream, and the end of the file is passed on. -/
def fill (lane : Lane) (fd : FileDescriptor) (a : CopyAnswers) :
    Except String Unit × FileDescriptor × Lane :=
  match fd.read lane.stream.remainingCapacity a.read with
  | (.error e, fd) => (.error e, fd, lane)
  | (.ok data, fd) =>
      let stream := (lane.stream.write data).1
      (.ok (), fd, { lane with
        stream := if fd.eof then stream.endInput else stream
        taken := lane.taken ++ data })

/-- Bytes are written from the stream, and at its end the descriptor becomes `finished`. -/
def drain (lane : Lane) (finished : FileDescriptor → FileDescriptor) (fd : FileDescriptor)
    (a : CopyAnswers) : Except String Unit × FileDescriptor × Lane :=
  let bytesToWrite := min maxCopyLength lane.stream.bufferSize
  let writing := fd.write (.ofString (lane.stream.peekOutput bytesToWrite)) false [a.write]
  let given := lane.given ++ writing.taken
  match writing.returned with
  | none => (.ok (), writing.fd, { lane with given := given })
  | some (.error e) => (.error e, writing.fd, { lane with given := given })
  | some (.ok bytesWritten) =>
      let lane := { lane with stream := lane.stream.popOutput bytesWritten, given := given }
      if lane.stream.eof then
        match a.finish with
        | .error e => (.error e, writing.fd, lane)
        | .ok _ => (.ok (), finished writing.fd, { lane with shutdown := true })
      else (.ok (), writing.fd, lane)

/-- There is room in the stream. -/
def hasRoom (lane other : Lane) : Bool :=
  !lane.stream.error && decide (lane.stream.remainingCapacity > 0) && !other.stream.error

/-- There is something to write, or the far end is to be shut down. -/
def hasWork (lane : Lane) : Bool :=
  !lane.stream.bufferEmpty || lane.stream.eof && !lane.shutdown

/-- A rule of the lane is cancelled. -/
def cancel (lane : Lane) : Lane :=
  { lane with stream := lane.stream.endInput }

end Lane

/-- The loop runs, has returned, or an exception was thrown. -/
inductive CopyPhase where
  | running
  | returned
  | failed
deriving DecidableEq, Repr

/-- The descriptors and the two lanes. -/
structure StreamCopy where
  input : FileDescriptor
  output : FileDescriptor
  socket : FileDescriptor
  outbound : Lane
  inbound : Lane

namespace StreamCopy

/-- `buffer_size`. -/
def bufferSize : Nat := 1048576

/-- The descriptors are open. -/
def new : StreamCopy where
  input := {}
  output := {}
  socket := {}
  outbound := { stream := .new bufferSize }
  inbound := { stream := .new bufferSize }

/-- Rule 1: from the standard input into the outbound stream. -/
def readInput (a : CopyAnswers) (s : StreamCopy) : Except String Unit × StreamCopy :=
  let (result, fd, lane) := s.outbound.fill s.input a
  (result, { s with input := fd, outbound := lane })

/-- Rule 2: from the outbound stream into the socket, which is shut down at the end. -/
def writeSocket (a : CopyAnswers) (s : StreamCopy) : Except String Unit × StreamCopy :=
  let (result, fd, lane) := s.outbound.drain FileDescriptor.registerWrite s.socket a
  (result, { s with socket := fd, outbound := lane })

/-- Rule 3: from the socket into the inbound stream. -/
def readSocket (a : CopyAnswers) (s : StreamCopy) : Except String Unit × StreamCopy :=
  let (result, fd, lane) := s.inbound.fill s.socket a
  (result, { s with socket := fd, inbound := lane })

/-- Rule 4: from the inbound stream into the standard output, which is closed at the end. -/
def writeOutput (a : CopyAnswers) (s : StreamCopy) : Except String Unit × StreamCopy :=
  let (result, fd, lane) := s.inbound.drain FileDescriptor.close s.output a
  (result, { s with output := fd, inbound := lane })

/-- What `interest` of a rule returns; it does not throw. -/
def interested : CopyRule → StreamCopy → Bool
  | .readInput, s => s.outbound.hasRoom s.inbound
  | .writeSocket, s => s.outbound.hasWork
  | .readSocket, s => s.inbound.hasRoom s.outbound
  | .writeOutput, s => s.inbound.hasWork

/-- What `cancel` of a rule does; it does not throw. -/
def cancelled : CopyRule → StreamCopy → StreamCopy
  | .readInput, s => { s with outbound := s.outbound.cancel }
  | .writeSocket, s => { s with outbound := s.outbound.cancel }
  | .readSocket, s => { s with inbound := s.inbound.cancel }
  | .writeOutput, s => { s with inbound := s.inbound.cancel }

/-- The rules of the event loop. -/
def rules : RuleTable CopyRule StreamCopy CopyAnswers where
  direction
    | .readInput => .input
    | .writeSocket => .output
    | .readSocket => .input
    | .writeOutput => .output
  fd
    | .readInput => StreamCopy.input
    | .writeSocket => StreamCopy.socket
    | .readSocket => StreamCopy.socket
    | .writeOutput => StreamCopy.output
  callback
    | .readInput => readInput
    | .writeSocket => writeSocket
    | .readSocket => readSocket
    | .writeOutput => writeOutput
  interest r s := .ok (interested r s)
  cancel r s := (.ok (), cancelled r s)

/-- What a turn of the loop finds. -/
structure Round where
  poll : EventLoop.Poll CopyRule
  answers : CopyRule → CopyAnswers

/-- The function while it runs. -/
structure Running where
  phase : CopyPhase := .running
  eventloop : EventLoop CopyRule
  state : StreamCopy

/-- The function before its loop. -/
def start : Running where
  eventloop := CopyRule.all.foldl EventLoop.addRule {}
  state := new

/-- A turn of the loop. -/
def turn (x : Running) (r : Round) : Except String Unit × Running :=
  if x.phase = .running then
    match EventLoop.waitNextEvent rules r.poll r.answers x.eventloop x.state with
    | (.error e, loop, s) => (.error e, ⟨.failed, loop, s⟩)
    | (.ok result, loop, s) =>
        (.ok (), ⟨if result = .exit then .returned else .running, loop, s⟩)
  else (.ok (), x)

/-- The function behind a turn of its loop. -/
def step (x : Running) (r : Round) : Running :=
  (turn x r).2

end StreamCopy
end Sponge
