import Sponge.IPv4Datagram
import Sponge.TCPSegment.Wire

/-!
# TCP over IPv4

`TCPOverIPv4Adapter` of `libsponge/tcp_helpers/tcp_over_ip.{hh,cc}`: it wraps segments into
datagrams and takes segments out of the datagrams that belong to its connection.

Main results:

- Theorem {lit}`wrapTcpInIp_spec`: what a wrapped segment is.
- Theorem {lit}`segment_round_trip`: a segment that is wrapped, serialised, parsed and unwrapped
  by the peer is the same segment, up to its ports and its checksum.
-/

namespace Sponge

/-- `FdAdapterConfig`, without the loss rates that only a lossy adapter reads. -/
structure FdAdapterConfig where
  source : Address := ⟨0, 0⟩
  destination : Address := ⟨0, 0⟩
deriving DecidableEq, Repr

/-- `TCPOverIPv4Adapter`. -/
structure TCPOverIPv4Adapter where
  cfg : FdAdapterConfig := {}
  listen : Bool := false
deriving DecidableEq, Repr

namespace TCPOverIPv4Adapter

/-- The end of `unwrap_tcp_in_ip`: is the segment from our peer? -/
def fromPeer (a : TCPOverIPv4Adapter) (seg : TCPSegment) : Option TCPSegment :=
  if seg.header.sport ≠ a.cfg.destination.port then none else some seg

/-- `unwrap_tcp_in_ip(ip_dgram)`. -/
def unwrapTcpInIp (a : TCPOverIPv4Adapter) (ipDgram : IPv4Datagram) :
    Except String (Option TCPSegment) × TCPOverIPv4Adapter :=
  if !a.listen && ipDgram.header.dst != a.cfg.source.ipv4Numeric then (.ok none, a)
  else if !a.listen && ipDgram.header.src != a.cfg.destination.ipv4Numeric then (.ok none, a)
  else if ipDgram.header.proto ≠ IPv4Header.protoTCP then (.ok none, a)
  else
    match ipDgram.payload.toBuffer with
    | .error e => (.error e, a)
    | .ok buffer =>
        let (result, seg) := ({} : TCPSegment).parse buffer ipDgram.header.pseudoCksum
        if result ≠ .noError then (.ok none, a)
        else if seg.header.dport ≠ a.cfg.source.port then (.ok none, a)
        else if a.listen then
          if seg.header.syn && !seg.header.rst then
            let a : TCPOverIPv4Adapter :=
              { cfg := { source := ⟨ipDgram.header.dst, a.cfg.source.port⟩
                         destination := ⟨ipDgram.header.src, seg.header.sport⟩ }
                listen := false }
            (.ok (a.fromPeer seg), a)
          else (.ok none, a)
        else (.ok (a.fromPeer seg), a)

/-- The port numbers are set in the segment. -/
def withPorts (a : TCPOverIPv4Adapter) (seg : TCPSegment) : TCPSegment :=
  { seg with header := { seg.header with
      sport := a.cfg.source.port
      dport := a.cfg.destination.port } }

/-- The header of the datagram for a segment. -/
def ipHeader (a : TCPOverIPv4Adapter) (seg : TCPSegment) : IPv4Header :=
  let header : IPv4Header := {}
  { header with
    src := a.cfg.source.ipv4Numeric
    dst := a.cfg.destination.ipv4Numeric
    len := UInt16.ofNat
      (header.hlen.toNat * 4 + seg.header.doff.toNat * 4 + seg.payload.length) }

/-- `wrap_tcp_in_ip(seg)`: the datagram, and the segment with its ports set. -/
def wrapTcpInIp (a : TCPOverIPv4Adapter) (seg : TCPSegment) :
    Except String IPv4Datagram × TCPSegment :=
  let seg := a.withPorts seg
  let header := a.ipHeader seg
  match seg.serialize header.pseudoCksum with
  | .error e => (.error e, seg)
  | .ok payload => (.ok ⟨header, payload⟩, seg)

/-! ## What is wrapped -/

variable {a : TCPOverIPv4Adapter} {seg : TCPSegment}

/-- The length of the datagram fits its field. -/
theorem toNat_len_ipHeader
    (hsize : 20 + 4 * seg.header.doff.toNat + seg.payload.length ≤ 65535) :
    (a.ipHeader seg).len.toNat = 20 + 4 * seg.header.doff.toNat + seg.payload.length := by
  change (UInt16.ofNat (5 * 4 + seg.header.doff.toNat * 4 + seg.payload.length)).toNat = _
  rw [UInt16.toNat_ofNat']
  omega

/-- A segment of sound size is wrapped into a well-formed datagram. -/
theorem wrapTcpInIp_spec (hge : 5 ≤ seg.header.doff.toNat)
    (hsize : 20 + 4 * seg.header.doff.toNat + seg.payload.length ≤ 65535) :
    ∃ payload, (a.withPorts seg).serialize (a.ipHeader (a.withPorts seg)).pseudoCksum =
        .ok payload ∧
      a.wrapTcpInIp seg = (.ok ⟨a.ipHeader (a.withPorts seg), payload⟩, a.withPorts seg) ∧
      (⟨a.ipHeader (a.withPorts seg), payload⟩ : IPv4Datagram).WellFormed := by
  have hser := @TCPSegment.serialize_of_le (a.withPorts seg) hge
    (a.ipHeader (a.withPorts seg)).pseudoCksum
  refine ⟨_, hser, ?_, ?_⟩
  · rw [wrapTcpInIp]
    simp only [hser]
  · refine ⟨rfl, Nat.le_refl 5, Nat.le_add_left 5 10, ?_⟩
    change (a.ipHeader (a.withPorts seg)).len.toNat = 4 * 5 + _
    rw [@toNat_len_ipHeader a (a.withPorts seg) hsize]
    simp only [BufferList.size, List.map_cons, List.map_nil, List.sum_cons, List.sum_nil,
      length_resize]
    omega

/-! ## The round trip -/

/-- A valid segment of the connection is taken out of its datagram. -/
theorem unwrapTcpInIp_eq {y : TCPOverIPv4Adapter} {ipDgram : IPv4Datagram} {buffer : Buffer}
    (hlisten : y.listen = false) (hdst : ipDgram.header.dst = y.cfg.source.ipv4Numeric)
    (hsrc : ipDgram.header.src = y.cfg.destination.ipv4Numeric)
    (hproto : ipDgram.header.proto = IPv4Header.protoTCP)
    (hbuffer : ipDgram.payload.toBuffer = .ok buffer)
    (hparse : ({} : TCPSegment).parse buffer ipDgram.header.pseudoCksum = (.noError, seg))
    (hdport : seg.header.dport = y.cfg.source.port)
    (hsport : seg.header.sport = y.cfg.destination.port) :
    y.unwrapTcpInIp ipDgram = (.ok (some seg), y) := by
  simp [unwrapTcpInIp, hlisten, hdst, hsrc, hproto, hbuffer, hparse, hdport, fromPeer, hsport]

/-- A segment that is wrapped by one adapter and unwrapped by its peer is the same segment,
with the configured ports and the checksum filled in. -/
theorem segment_round_trip (x y : TCPOverIPv4Adapter) (seg : TCPSegment)
    (hlisten : y.listen = false) (hsource : y.cfg.source = x.cfg.destination)
    (hdestination : y.cfg.destination = x.cfg.source)
    (hge : 5 ≤ seg.header.doff.toNat) (hle : seg.header.doff.toNat ≤ 15)
    (hsize : 20 + 4 * seg.header.doff.toNat + seg.payload.length ≤ 65535) :
    ∃ dgram list received cksum, (x.wrapTcpInIp seg).1 = .ok dgram ∧
      dgram.serialize = .ok list ∧
      ({} : IPv4Datagram).parse list.concatenate = (.noError, received) ∧
      y.unwrapTcpInIp received = (.ok (some { seg with header := { seg.header with
        sport := x.cfg.source.port
        dport := x.cfg.destination.port
        cksum := cksum } }), y) := by
  obtain ⟨payload, hpayload, hwrap, hwell⟩ := @wrapTcpInIp_spec x seg hge hsize
  have hoffset : (x.ipHeader (x.withPorts seg)).offset.toNat < 2 ^ 13 := by
    change (0 : UInt16).toNat < 2 ^ 13
    decide
  have hserialize := IPv4Datagram.serialize_wellFormed hwell
  have hparse := IPv4Datagram.parse_serialize hwell hoffset hserialize {}
  have hseg := @TCPSegment.parse_serialize (x.withPorts seg) hge (Nat.lt_succ_of_le hle)
    hsize _ (IPv4Header.pseudoCksum_lt _) _ hpayload {}
  have hcksum : (⟨x.ipHeader (x.withPorts seg), payload⟩ : IPv4Datagram).headerOut.pseudoCksum =
      (x.ipHeader (x.withPorts seg)).pseudoCksum := IPv4Header.pseudoCksum_withCksum _ _
  refine ⟨_, _, _, (x.withPorts seg).cksumOut (x.ipHeader (x.withPorts seg)).pseudoCksum,
    by rw [hwrap], hserialize, hparse, ?_⟩
  refine unwrapTcpInIp_eq hlisten ?_ ?_ rfl (BufferList.toBuffer_ofBuffer _)
    ((congrArg (TCPSegment.parse {} _) hcksum).trans hseg) ?_ ?_
  · rw [hsource]
    rfl
  · rw [hdestination]
    rfl
  · rw [hsource]
  · rw [hdestination]

/-- A segment with an odd number of bytes between two hosts. -/
theorem segment_round_trip_odd :
    let x : TCPOverIPv4Adapter := ⟨⟨⟨1, 80⟩, ⟨2, 90⟩⟩, false⟩
    let y : TCPOverIPv4Adapter := ⟨⟨⟨2, 90⟩, ⟨1, 80⟩⟩, false⟩
    let seg : TCPSegment := ⟨{ doff := 6, ack := true, win := 7 }, [1, 2, 3]⟩
    ∃ dgram list received cksum, (x.wrapTcpInIp seg).1 = .ok dgram ∧
      dgram.serialize = .ok list ∧
      ({} : IPv4Datagram).parse list.concatenate = (.noError, received) ∧
      y.unwrapTcpInIp received = (.ok (some { seg with header := { seg.header with
        sport := 80
        dport := 90
        cksum := cksum } }), y) := by
  intro x y seg
  exact segment_round_trip x y seg rfl rfl rfl (by decide) (by decide) (by decide)

end TCPOverIPv4Adapter
end Sponge
