import Sponge.NetworkInterface.Model
import Sponge.TCPOverIPv4

/-!
# The adapter on a TAP device

`TCPOverIPv4OverEthernetAdapter` of `libsponge/tcp_helpers/tuntap_adapter.{hh,cc}`.  It puts its
datagrams into Ethernet frames with the help of a `NetworkInterface`; `NetworkInterfaceAdapter` of
`apps/lab7.cc` is the same class over a socket pair.

What arrives at the device is an argument of `read()`, and what is written to it is kept in
a list.  A device takes a frame as a whole.
-/

namespace Sponge

/-- A segment whose header length and size fit a datagram. -/
structure TCPSegment.Sized (seg : TCPSegment) : Prop where
  doff_ge : 5 ≤ seg.header.doff.toNat
  doff_le : seg.header.doff.toNat ≤ 15
  size_le : 20 + 4 * seg.header.doff.toNat + seg.payload.length ≤ 65535

instance (seg : TCPSegment) : Decidable seg.Sized :=
  decidable_of_iff (5 ≤ seg.header.doff.toNat ∧ seg.header.doff.toNat ≤ 15 ∧
      20 + 4 * seg.header.doff.toNat + seg.payload.length ≤ 65535)
    ⟨fun ⟨hge, hle, hsize⟩ => ⟨hge, hle, hsize⟩,
      fun ⟨hge, hle, hsize⟩ => ⟨hge, hle, hsize⟩⟩

/-- `EthernetFrame{}`. -/
def EthernetFrame.blank : EthernetFrame where
  header := ⟨EthernetAddress.zero, EthernetAddress.zero, 0⟩

/-- `TCPOverIPv4OverEthernetAdapter`, with what was written to the device. -/
structure TCPOverIPv4OverEthernetAdapter extends TCPOverIPv4Adapter where
  interface : NetworkInterface
  nextHop : Address
  tap : List Buffer

namespace TCPOverIPv4OverEthernetAdapter

/-- `TCPOverIPv4OverEthernetAdapter(tap, eth_address, ip_address, next_hop)`; a dummy frame
goes out first. -/
def new (ethAddress : EthernetAddress) (ipAddress nextHop : Address) :
    TCPOverIPv4OverEthernetAdapter where
  interface := NetworkInterface.new ethAddress ipAddress
  nextHop := nextHop
  tap := [EthernetFrame.blank.serialize.concatenate]

/-- The loop of `send_pending()`, over the frames that are queued. -/
def sendFrames : List EthernetFrame → TCPOverIPv4OverEthernetAdapter →
    TCPOverIPv4OverEthernetAdapter
  | [], a => a
  | frame :: frames, a =>
      sendFrames frames { a with
        tap := a.tap ++ [frame.serialize.concatenate]
        interface := { a.interface with framesOut := frames } }

/-- `send_pending()`. -/
def sendPending (a : TCPOverIPv4OverEthernetAdapter) : TCPOverIPv4OverEthernetAdapter :=
  sendFrames a.interface.framesOut a

/-- `read()`, where the device returns `bytes`. -/
def read (a : TCPOverIPv4OverEthernetAdapter) (bytes : Buffer) :
    Except String (Option TCPSegment) × TCPOverIPv4OverEthernetAdapter :=
  let (result, frame) := EthernetFrame.blank.parse bytes
  if result ≠ .noError then (.ok none, a)
  else
    match a.interface.recvFrame frame with
    | (.error e, interface) => (.error e, { a with interface := interface })
    | (.ok ipDgram, interface) =>
        let a := { a with interface := interface }.sendPending
        match ipDgram with
        | none => (.ok none, a)
        | some ipDgram =>
            let (returned, base) := a.unwrapTcpInIp ipDgram
            (returned, { a with toTCPOverIPv4Adapter := base })

/-- `tick(ms_since_last_tick)`. -/
def tick (a : TCPOverIPv4OverEthernetAdapter) (msSinceLastTick : UInt64) :
    TCPOverIPv4OverEthernetAdapter :=
  { a with interface := a.interface.tick msSinceLastTick }.sendPending

/-- `write(seg)`: the segment has its ports set behind it. -/
def write (a : TCPOverIPv4OverEthernetAdapter) (seg : TCPSegment) :
    Except String Unit × TCPSegment × TCPOverIPv4OverEthernetAdapter :=
  match a.wrapTcpInIp seg with
  | (.error e, seg) => (.error e, seg, a)
  | (.ok ipDgram, seg) =>
      match a.interface.sendDatagram ipDgram a.nextHop with
      | (.error e, interface) => (.error e, seg, { a with interface := interface })
      | (.ok (), interface) => (.ok (), seg, { a with interface := interface }.sendPending)

/-! ## What goes out -/

theorem sendFrames_eq (frames : List EthernetFrame) (a : TCPOverIPv4OverEthernetAdapter)
    (h : a.interface.framesOut = frames) :
    sendFrames frames a = { a with
      tap := a.tap ++ frames.map fun frame => frame.serialize.concatenate
      interface := { a.interface with framesOut := [] } } := by
  induction frames generalizing a with
  | nil =>
      obtain ⟨base, interface, nextHop, tap⟩ := a
      change interface.framesOut = [] at h
      simp [sendFrames, ← h]
  | cons frame frames ih =>
      rw [sendFrames, ih _ rfl]
      simp

/-- All frames of the interface go out, in their order. -/
theorem sendPending_eq (a : TCPOverIPv4OverEthernetAdapter) :
    a.sendPending = { a with
      tap := a.tap ++ a.interface.framesOut.map fun frame => frame.serialize.concatenate
      interface := { a.interface with framesOut := [] } } :=
  sendFrames_eq _ a rfl

end TCPOverIPv4OverEthernetAdapter
end Sponge
