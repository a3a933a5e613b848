import Sponge.InternetChecksum
import Sponge.TCPSegment

/-!
# Segments on the wire

`parse` and `serialize` of `TCPHeader` and `TCPSegment`, from
`libsponge/tcp_helpers/tcp_header.cc` and `tcp_segment.cc`.  The checksum covers the whole
segment and starts from a sum that the layer below supplies.

Main results:

- Theorem {lit}`TCPHeader.readFields_fields`: written fields are read back.
- Theorem {lit}`TCPSegment.value_bytes_cksumOut`: the checksum of a serialised segment verifies.
- Theorem {lit}`TCPSegment.parse_serialize`: a serialised segment is read back, with its
  checksum filled in.
-/

namespace Sponge

open Library

/-! ## The header -/

namespace TCPHeader

/-- `TCPHeader::LENGTH`. -/
def length : Nat := 20

/-- The fields that `parse` reads. -/
def readFields (p : NetParser) : TCPHeader × NetParser :=
  let (sport, p) := p.u16
  let (dport, p) := p.u16
  let (seqno, p) := p.u32
  let (ackno, p) := p.u32
  let (doffByte, p) := p.u8
  let (flB, p) := p.u8
  let (win, p) := p.u16
  let (cksum, p) := p.u16
  let (uptr, p) := p.u16
  ({ sport := sport
     dport := dport
     seqno := ⟨seqno⟩
     ackno := ⟨ackno⟩
     doff := doffByte >>> 4
     urg := decide (flB &&& 0x20 ≠ 0)
     ack := decide (flB &&& 0x10 ≠ 0)
     psh := decide (flB &&& 0x08 ≠ 0)
     rst := decide (flB &&& 0x04 ≠ 0)
     syn := decide (flB &&& 0x02 ≠ 0)
     fin := decide (flB &&& 0x01 ≠ 0)
     win := win
     cksum := cksum
     uptr := uptr }, p)

/-- `parse(p)`: the result, the header and the parser behind it. -/
def parse (p : NetParser) : ParseResult × TCPHeader × NetParser :=
  let (header, p) := readFields p
  if header.doff < 5 then (.headerTooShort, header, p)
  else
    let p := p.removePrefix (header.doff.toNat * 4 - length)
    if p.error ≠ .noError then (p.error, header, p)
    else (.noError, header, p)

/-- The byte with the flags. -/
def flB (header : TCPHeader) : UInt8 :=
  (if header.urg then 0x20 else 0) ||| (if header.ack then 0x10 else 0) |||
    (if header.psh then 0x08 else 0) ||| (if header.rst then 0x04 else 0) |||
    (if header.syn then 0x02 else 0) ||| (if header.fin then 0x01 else 0)

/-- The fields that `serialize` writes. -/
def fields (header : TCPHeader) : List Byte :=
  NetUnparser.u16 header.sport ++ NetUnparser.u16 header.dport ++
    NetUnparser.u32 header.seqno.rawValue ++ NetUnparser.u32 header.ackno.rawValue ++
    NetUnparser.u8 (header.doff <<< 4) ++ NetUnparser.u8 header.flB ++
    NetUnparser.u16 header.win ++ NetUnparser.u16 header.cksum ++ NetUnparser.u16 header.uptr

/-- `serialize()`. -/
def serialize (header : TCPHeader) : Except String (List Byte) :=
  if header.doff < 5 then .error "TCP header too short"
  else .ok (resize (4 * header.doff.toNat) header.fields)

/-- The header with another checksum. -/
@[simps]
def withCksum (header : TCPHeader) (cksum : UInt16) : TCPHeader :=
  { header with cksum := cksum }

variable {header : TCPHeader}

@[simp]
theorem length_fields (header : TCPHeader) : header.fields.length = length := by
  simp [fields, length]

/-- A data offset of four bits is kept. -/
theorem doff_shift (hdoff : header.doff.toNat < 16) : (header.doff <<< 4) >>> 4 = header.doff := by
  have hall : ∀ n < 16, (UInt8.ofNat n <<< 4) >>> 4 = UInt8.ofNat n := by decide
  have h := hall header.doff.toNat hdoff
  rwa [UInt8.ofNat_toNat] at h

/-- The byte with the flags keeps each of them. -/
theorem flB_flags (header : TCPHeader) :
    decide (header.flB &&& 0x20 ≠ 0) = header.urg ∧ decide (header.flB &&& 0x10 ≠ 0) = header.ack ∧
      decide (header.flB &&& 0x08 ≠ 0) = header.psh ∧
      decide (header.flB &&& 0x04 ≠ 0) = header.rst ∧
      decide (header.flB &&& 0x02 ≠ 0) = header.syn ∧
      decide (header.flB &&& 0x01 ≠ 0) = header.fin := by
  unfold flB
  cases header.urg <;> cases header.ack <;> cases header.psh <;> cases header.rst <;>
    cases header.syn <;> cases header.fin <;> decide

/-- Written fields are read back. -/
theorem readFields_fields (header : TCPHeader) (hdoff : header.doff.toNat < 16)
    (rest : List Byte) :
    readFields ⟨header.fields ++ rest, .noError⟩ = (header, ⟨rest, .noError⟩) := by
  obtain ⟨hurg, hack, hpsh, hrst, hsyn, hfin⟩ := flB_flags header
  simp only [readFields, fields, NetUnparser.u8_eq, List.append_assoc, List.nil_append,
    List.cons_append, NetParser.u8_cons, NetParser.u16_append, NetParser.u32_append,
    doff_shift hdoff, hurg, hack, hpsh, hrst, hsyn, hfin]

/-- The checksum is one of the words that are summed. -/
theorem wordSum_fields_withCksum (header : TCPHeader) (cksum : UInt16) :
    wordSum false (header.withCksum cksum).fields =
      wordSum false (header.withCksum 0).fields + cksum.toNat := by
  have hzero : wordSum false (NetUnparser.u16 0) = 0 := wordSum_u16 0
  have hflags : ∀ c, (header.withCksum c).flB = header.flB := fun _ => rfl
  simp [fields, wordSum_append, hflags, wordSum_u16, hzero]
  omega

theorem serialize_of_le (hdoff : 5 ≤ header.doff.toNat) :
    header.serialize = .ok (resize (4 * header.doff.toNat) header.fields) := by
  rw [serialize, if_neg]
  rw [UInt8.lt_iff_toNat_lt]
  exact Nat.not_lt.mpr hdoff

/-- A header of sound size is read, and the bytes behind it are left. -/
theorem parse_resize (hge : 5 ≤ header.doff.toNat) (hdoff : header.doff.toNat < 16)
    (rest : List Byte) :
    parse ⟨resize (4 * header.doff.toNat) header.fields ++ rest, .noError⟩ =
      (.noError, header, ⟨rest, .noError⟩) := by
  have hpad : header.fields.length ≤ 4 * header.doff.toNat := by
    rw [length_fields, length]
    omega
  have hlong : ¬ header.doff < 5 := by
    rw [UInt8.lt_iff_toNat_lt]
    exact Nat.not_lt.mpr hge
  have hskip : header.doff.toNat * 4 - length =
      (List.replicate (4 * header.doff.toNat - header.fields.length) (0 : Byte)).length := by
    rw [List.length_replicate, length_fields, Nat.mul_comm]
  rw [resize_eq_append hpad, List.append_assoc]
  simp only [parse, readFields_fields header hdoff]
  rw [if_neg hlong, NetParser.removePrefix_of_le (by rw [hskip, List.length_append]; omega), hskip,
    List.drop_left]
  rfl

end TCPHeader

/-! ## The segment -/

namespace TCPSegment

/-- `parse(buffer, datagram_layer_checksum)`: the result and the segment. -/
def parse (seg : TCPSegment) (buffer : Buffer) (datagramLayerChecksum : UInt32) :
    ParseResult × TCPSegment :=
  if ((InternetChecksum.new datagramLayerChecksum).add buffer).value ≠ 0 then (.badChecksum, seg)
  else
    let (_, header, p) := TCPHeader.parse ⟨buffer, .noError⟩
    (p.error, ⟨header, p.buffer⟩)

/-- `serialize(datagram_layer_checksum)`. -/
def serialize (seg : TCPSegment) (datagramLayerChecksum : UInt32) : Except String BufferList := do
  let headerZeroChecksum ← (seg.header.withCksum 0).serialize
  let check := (InternetChecksum.new datagramLayerChecksum).add headerZeroChecksum
  let check := check.add seg.payload
  let headerOut ← (seg.header.withCksum check.value).serialize
  return (BufferList.ofBuffer headerOut).append (BufferList.ofBuffer seg.payload)

/-- The bytes of a segment with the checksum `cksum` in its header. -/
def bytes (seg : TCPSegment) (cksum : UInt16) : List Byte :=
  resize (4 * seg.header.doff.toNat) (seg.header.withCksum cksum).fields ++ seg.payload

/-- The checksum that `serialize` fills in. -/
def cksumOut (seg : TCPSegment) (datagramLayerChecksum : UInt32) : UInt16 :=
  ((InternetChecksum.new datagramLayerChecksum).add (seg.bytes 0)).value

variable {seg : TCPSegment}

theorem serialize_of_le (hdoff : 5 ≤ seg.header.doff.toNat) (initial : UInt32) :
    seg.serialize initial = .ok ⟨[resize (4 * seg.header.doff.toNat)
      (seg.header.withCksum (seg.cksumOut initial)).fields, seg.payload]⟩ := by
  have hser : ∀ c, (seg.header.withCksum c).serialize =
      .ok (resize (4 * seg.header.doff.toNat) (seg.header.withCksum c).fields) :=
    fun c => TCPHeader.serialize_of_le hdoff
  simp only [serialize, hser, bind, Except.bind, cksumOut, bytes, InternetChecksum.add_append]
  rfl

theorem length_bytes (seg : TCPSegment) (cksum : UInt16) :
    (seg.bytes cksum).length = 4 * seg.header.doff.toNat + seg.payload.length := by
  rw [bytes, List.length_append, length_resize]

/-- The checksum of a serialised segment verifies. -/
theorem value_bytes_cksumOut (hdoff : 5 ≤ seg.header.doff.toNat)
    (hsize : 4 * seg.header.doff.toNat + seg.payload.length ≤ 65535) {initial : UInt32}
    (hinitial : initial.toNat < 2 ^ 19) :
    ((InternetChecksum.new initial).add (seg.bytes (seg.cksumOut initial))).value = 0 := by
  have hresize : ∀ c, wordSum false (resize (4 * seg.header.doff.toNat)
      (seg.header.withCksum c).fields) = wordSum false (seg.header.withCksum c).fields := by
    intro c
    apply wordSum_resize
    rw [TCPHeader.length_fields, TCPHeader.length]
    omega
  have hsum : ∀ c, wordSum false (seg.bytes c) = wordSum false (seg.bytes 0) + c.toNat := by
    intro c
    rw [bytes, bytes, wordSum_append, wordSum_append, hresize, hresize,
      TCPHeader.wordSum_fields_withCksum, length_resize, length_resize]
    omega
  have hbound := wordSum_le false (seg.bytes (seg.cksumOut initial))
  rw [length_bytes] at hbound
  refine InternetChecksum.value_add_filled initial (seg.bytes 0) _ ?_ (hsum _)
  omega

/-- The string of a serialised segment. -/
theorem concatenate_serialize (hdoff : 5 ≤ seg.header.doff.toNat) {initial : UInt32}
    {list : BufferList} (hlist : seg.serialize initial = .ok list) :
    list.concatenate = seg.bytes (seg.cksumOut initial) := by
  rw [serialize_of_le hdoff, Except.ok.injEq] at hlist
  rw [← hlist]
  simp [BufferList.concatenate, bytes]

/-- A serialised segment is read back, with its checksum filled in. -/
theorem parse_serialize (hge : 5 ≤ seg.header.doff.toNat) (hdoff : seg.header.doff.toNat < 16)
    (hsize : 20 + 4 * seg.header.doff.toNat + seg.payload.length ≤ 65535) {initial : UInt32}
    (hinitial : initial.toNat < 2 ^ 19) {list : BufferList}
    (hlist : seg.serialize initial = .ok list) (old : TCPSegment) :
    old.parse list.concatenate initial =
      (.noError, ⟨seg.header.withCksum (seg.cksumOut initial), seg.payload⟩) := by
  have hread := @TCPHeader.parse_resize (seg.header.withCksum (seg.cksumOut initial)) hge hdoff
    seg.payload
  rw [concatenate_serialize hge hlist, parse, value_bytes_cksumOut hge (by omega) hinitial,
    if_neg (not_not.mpr rfl), bytes]
  simp only [TCPHeader.withCksum_doff] at hread
  rw [hread]

end TCPSegment
end Sponge
