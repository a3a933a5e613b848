import Sponge.ByteStream
import Sponge.WrappingIntegers

/-!
# Segments and configuration

`TCPHeader`, `TCPSegment` and `TCPConfig` of `libsponge/tcp_helpers/`, with the default
values of the source.  A payload is the string its `Buffer` holds.
-/

namespace Sponge

/-- `TCPHeader`. -/
structure TCPHeader where
  sport : UInt16 := 0
  dport : UInt16 := 0
  seqno : WrappingInt32 := ⟨0⟩
  ackno : WrappingInt32 := ⟨0⟩
  doff : UInt8 := 5
  urg : Bool := false
  ack : Bool := false
  psh : Bool := false
  rst : Bool := false
  syn : Bool := false
  fin : Bool := false
  win : UInt16 := 0
  cksum : UInt16 := 0
  uptr : UInt16 := 0
deriving DecidableEq, Repr

/-- `TCPSegment`. -/
structure TCPSegment where
  header : TCPHeader := {}
  payload : List Byte := []
deriving DecidableEq, Repr

/-- `length_in_sequence_space()`. -/
def TCPSegment.lengthInSequenceSpace (seg : TCPSegment) : Nat :=
  seg.payload.length + (if seg.header.syn then 1 else 0) + (if seg.header.fin then 1 else 0)

theorem TCPSegment.lengthInSequenceSpace_le (seg : TCPSegment) :
    seg.lengthInSequenceSpace ≤ seg.payload.length + 2 := by
  unfold lengthInSequenceSpace
  split <;> split <;> omega

namespace TCPConfig

/-- `TCPConfig::DEFAULT_CAPACITY`. -/
def defaultCapacity : Nat := 64000

/-- `TCPConfig::MAX_PAYLOAD_SIZE`. -/
def maxPayloadSize : Nat := 1000

/-- `TCPConfig::TIMEOUT_DFLT`. -/
def timeoutDflt : UInt16 := 1000

/-- `TCPConfig::MAX_RETX_ATTEMPTS`. -/
def maxRetxAttempts : Nat := 8

end TCPConfig

/-- `TCPConfig`. -/
structure TCPConfig where
  rtTimeout : UInt16 := TCPConfig.timeoutDflt
  recvCapacity : Nat := TCPConfig.defaultCapacity
  sendCapacity : Nat := TCPConfig.defaultCapacity
  fixedIsn : Option WrappingInt32 := none
deriving DecidableEq, Repr

end Sponge
