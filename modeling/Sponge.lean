import Sponge.Library.OrderedSet
import Sponge.Library.Fragment
import Sponge.Library.RingBuffer
import Sponge.Library.Word
import Sponge.Library.Execution
import Sponge.Library.Simulation
import Sponge.Library.Tiling
import Sponge.Library.BigEndian
import Sponge.Library.OnesComplement
import Sponge.Library.LastMaximum
import Sponge.ByteStream
import Sponge.ByteStream.Fifo
import Sponge.StreamReassembler.Model
import Sponge.StreamReassembler.Merge
import Sponge.StreamReassembler.Assembly
import Sponge.StreamReassembler.Runs
import Sponge.StreamReassembler.Refinement
import Sponge.WrappingIntegers
import Sponge.TCPSegment
import Sponge.TCPReceiver
import Sponge.TCPReceiver.Window
import Sponge.TCPReceiver.Repeat
import Sponge.TCPSender.Model
import Sponge.TCPSender.Emission
import Sponge.TCPSender.Cache
import Sponge.TCPSender.Segmentation
import Sponge.TCPSender.Runs
import Sponge.TCPSender.Window
import Sponge.TCPSender.Idle
import Sponge.TCPSender.Repeat
import Sponge.TCPSender.Timer
import Sponge.TCPSender.Size
import Sponge.TCPConnection.Model
import Sponge.TCPConnection.State
import Sponge.TCPConnection.Listening
import Sponge.TCPConnection.Timer
import Sponge.TCPConnection.Reset
import Sponge.TCPConnection.Reply
import Sponge.Network.Model
import Sponge.Network.Moves
import Sponge.Network.Outbound
import Sponge.Network.Inbound
import Sponge.Network.Link
import Sponge.Network.Acknowledgement
import Sponge.Network.EndOfStream
import Sponge.Network.Closing
import Sponge.Network.Handshake
import Sponge.Network.States
import Sponge.Parser
import Sponge.InternetChecksum
import Sponge.IPv4Datagram
import Sponge.IPv4Datagram.Acceptance
import Sponge.TCPSegment.Wire
import Sponge.TCPSegment.Acceptance
import Sponge.TCPSegment.Corruption
import Sponge.TCPOverIPv4
import Sponge.TCPOverIPv4.Peer
import Sponge.EthernetFrame
import Sponge.NetworkInterface.Model
import Sponge.NetworkInterface.Runs
import Sponge.NetworkInterface.Segment
import Sponge.NetworkInterface.Effect
import Sponge.NetworkInterface.Resolution
import Sponge.NetworkInterface.Overheard
import Sponge.NetworkInterface.Failure
import Sponge.Router.Model
import Sponge.Router.Forwarding
import Sponge.Router.Shifts
import Sponge.Router.Exceptions
import Sponge.TCPOverIPv4.Tuntap
import Sponge.Internet.Origin
import Sponge.Internet.Model
import Sponge.Internet.Integrity
import Sponge.Stack.Model
import Sponge.Stack.Refinement
import Sponge.Stack.Internet
import Sponge.Stack.Discipline
import Sponge.Buffer
import Sponge.FileDescriptor
import Sponge.EventLoop.Model
import Sponge.EventLoop.Lifecycle
import Sponge.EventLoop.Invariant
import Sponge.Socket.Model
import Sponge.Socket.Host
import Sponge.Socket.Invariant
import Sponge.Socket.Rules
import Sponge.Socket.Rounds
import Sponge.Socket.Delivery
import Sponge.Socket.Ending
import Sponge.StreamCopy.Model
import Sponge.StreamCopy.Safety
import Sponge.StreamCopy.Completion
