import Sponge.Parser

/-!
# Ethernet frames and ARP messages

`EthernetHeader` and `EthernetFrame` of `libsponge/tcp_helpers/ethernet_header.{hh,cc}`
and `ethernet_frame.{hh,cc}`, and `ARPMessage` of `arp_message.{hh,cc}`.

`EthernetFrame::parse` drops the result of the header's `parse`, and a string too short for a
header sets no error in the parser.

Main results:

- Theorem {lit}`EthernetFrame.parse_serialize`: a frame is read back.
- Theorem {lit}`EthernetFrame.decodes_exactly_iff`: acceptance and writing back are as they
  should be exactly on the strings that hold a header.
- Theorem {lit}`ARPMessage.parse_serialize`: a supported message is read back.
- Theorem {lit}`ARPMessage.parse_eq_noError_iff`: the accepted strings.
- Theorem {lit}`ARPMessage.serialize_parse`: an accepted string is written back, without what
  follows the message.
-/

namespace Sponge

open Library

/-! ## Addresses and frames -/

/-- `EthernetAddress`, an array of six bytes. -/
structure EthernetAddress where
  bytes : List Byte
  length_eq : bytes.length = 6
deriving DecidableEq, Repr

/-- `ETHERNET_BROADCAST`. -/
def ethernetBroadcast : EthernetAddress where
  bytes := [0xff, 0xff, 0xff, 0xff, 0xff, 0xff]
  length_eq := rfl

/-- The address that a fresh array holds. -/
def EthernetAddress.zero : EthernetAddress where
  bytes := [0, 0, 0, 0, 0, 0]
  length_eq := rfl

/-- The loop that reads an address byte by byte. -/
def NetParser.ethernetAddress (p : NetParser) : EthernetAddress × NetParser :=
  (⟨(NetParser.u8s 6 p).1, NetParser.length_u8s 6 p⟩, (NetParser.u8s 6 p).2)

/-- The loop that writes an address byte by byte. -/
def NetUnparser.ethernetAddress (address : EthernetAddress) : List Byte :=
  address.bytes.flatMap NetUnparser.u8

/-- An address is written as its bytes. -/
@[simp]
theorem NetUnparser.ethernetAddress_eq (address : EthernetAddress) :
    NetUnparser.ethernetAddress address = address.bytes := by
  have hbyte : NetUnparser.u8 = fun byte => [byte] := funext NetUnparser.u8_eq
  rw [ethernetAddress, hbyte, List.flatMap_singleton']

/-- An address that was written is read back. -/
@[simp]
theorem NetParser.ethernetAddress_append (address : EthernetAddress) (rest : List Byte) :
    NetParser.ethernetAddress ⟨address.bytes ++ rest, .noError⟩ = (address, ⟨rest, .noError⟩) := by
  obtain ⟨bytes, hlength⟩ := address
  have hread := NetParser.u8s_append bytes rest
  rw [hlength] at hread
  simp only [ethernetAddress, hread]

/-- The address that stands at a place of a string. -/
def EthernetAddress.ofSlice (b : Buffer) (start : Nat) (h : start + 6 ≤ b.length) :
    EthernetAddress where
  bytes := (b.drop start).take 6
  length_eq := by
    rw [List.length_take, List.length_drop]
    omega

/-- An address is read at its place. -/
theorem NetParser.ethernetAddress_drop {b : Buffer} {start : Nat} (h : start + 6 ≤ b.length) :
    NetParser.ethernetAddress ⟨b.drop start, .noError⟩ =
      (EthernetAddress.ofSlice b start h, ⟨b.drop (start + 6), .noError⟩) := by
  simp only [ethernetAddress, NetParser.u8s_drop h, EthernetAddress.ofSlice]

/-- `EthernetHeader`. -/
structure EthernetHeader where
  dst : EthernetAddress
  src : EthernetAddress
  type : UInt16
deriving DecidableEq, Repr

/-- `EthernetHeader::TYPE_IPv4`. -/
def EthernetHeader.typeIPv4 : UInt16 := 0x800

/-- `EthernetHeader::TYPE_ARP`. -/
def EthernetHeader.typeARP : UInt16 := 0x806

/-- `EthernetHeader::LENGTH`. -/
def EthernetHeader.length : Nat := 14

/-- `EthernetHeader::parse(p)`: the result, the header and the parser behind it. -/
def EthernetHeader.parse (header : EthernetHeader) (p : NetParser) :
    ParseResult × EthernetHeader × NetParser :=
  if p.buffer.length < length then (.packetTooShort, header, p)
  else
    let (dst, p) := p.ethernetAddress
    let (src, p) := p.ethernetAddress
    let (type, p) := p.u16
    (p.error, ⟨dst, src, type⟩, p)

/-- `EthernetHeader::serialize()`. -/
def EthernetHeader.serialize (header : EthernetHeader) : List Byte :=
  NetUnparser.ethernetAddress header.dst ++ NetUnparser.ethernetAddress header.src ++
    NetUnparser.u16 header.type

/-- `EthernetFrame`. -/
structure EthernetFrame where
  header : EthernetHeader
  payload : BufferList := {}
deriving DecidableEq, Repr

/-- `EthernetFrame::parse(buffer)`: the result and the frame. The result of the header's
`parse` is dropped. -/
def EthernetFrame.parse (frame : EthernetFrame) (buffer : Buffer) : ParseResult × EthernetFrame :=
  let (_, header, p) := frame.header.parse ⟨buffer, .noError⟩
  (p.error, ⟨header, .ofBuffer p.buffer⟩)

/-- `EthernetFrame::serialize()`. -/
def EthernetFrame.serialize (frame : EthernetFrame) : BufferList :=
  (BufferList.ofBuffer frame.header.serialize).append frame.payload

/-! ## Reading frames and writing them back -/

/-- A header has a fixed length. -/
theorem EthernetHeader.length_serialize (header : EthernetHeader) :
    header.serialize.length = length := by
  simp [serialize, length, header.dst.length_eq, header.src.length_eq]

/-- A written header is read back. -/
theorem EthernetHeader.parse_serialize (old header : EthernetHeader) (rest : List Byte) :
    old.parse ⟨header.serialize ++ rest, .noError⟩ =
      (.noError, header, ⟨rest, .noError⟩) := by
  have hlength : ¬ (header.serialize ++ rest).length < length := by
    rw [List.length_append, length_serialize]
    omega
  have hread : header.serialize ++ rest =
      header.dst.bytes ++ (header.src.bytes ++ (NetUnparser.u16 header.type ++ rest)) := by
    simp [serialize]
  simp only [parse]
  rw [if_neg hlength, hread]
  simp only [NetParser.ethernetAddress_append, NetParser.u16_append]

/-- The header that a long enough string starts with. -/
def EthernetHeader.ofBuffer (b : Buffer) (h : length ≤ b.length) : EthernetHeader where
  dst := EthernetAddress.ofSlice b 0 (le_trans (by decide) h)
  src := EthernetAddress.ofSlice b 6 (le_trans (by decide) h)
  type := UInt16.ofNat (field b 12 2)

/-- A long enough string has a header. -/
theorem EthernetHeader.parse_eq (old : EthernetHeader) {b : Buffer} (h : length ≤ b.length) :
    old.parse ⟨b, .noError⟩ = (.noError, ofBuffer b h, ⟨b.drop length, .noError⟩) := by
  have hlong : 14 ≤ b.length := h
  have hdst := NetParser.ethernetAddress_drop (show 0 + 6 ≤ b.length by omega)
  have hsrc := NetParser.ethernetAddress_drop (show 6 + 6 ≤ b.length by omega)
  have htype := NetParser.u16_drop (show 12 + 2 ≤ b.length by omega)
  rw [List.drop_zero] at hdst
  simp only [parse]
  rw [if_neg (Nat.not_lt.mpr h), hdst]
  simp only [Nat.zero_add, hsrc, Nat.reduceAdd, htype, ofBuffer, length]

/-- The header of a string is written back as the bytes it was read from. -/
theorem EthernetHeader.serialize_ofBuffer {b : Buffer} (h : length ≤ b.length) :
    (ofBuffer b h).serialize = b.take length := by
  have hlong : 14 ≤ b.length := h
  have htype := u16_field (show 12 + 2 ≤ b.length by omega)
  rw [serialize, NetUnparser.ethernetAddress_eq, NetUnparser.ethernetAddress_eq, ofBuffer, htype]
  simp only [EthernetAddress.ofSlice]
  rw [take_append_take_drop 0 6 6, take_append_take_drop 0 12 2, List.drop_zero]
  rfl

namespace EthernetFrame

/-- A string that holds a header is accepted, and its other bytes are the payload. -/
theorem parse_of_le (old : EthernetFrame) {b : Buffer} (h : EthernetHeader.length ≤ b.length) :
    old.parse b =
      (.noError, ⟨EthernetHeader.ofBuffer b h, .ofBuffer (b.drop EthernetHeader.length)⟩) := by
  simp only [parse, EthernetHeader.parse_eq _ h]

/-- A shorter string is accepted too: the header stays and the whole string is the payload. -/
theorem parse_of_lt (old : EthernetFrame) {b : Buffer} (h : b.length < EthernetHeader.length) :
    old.parse b = (.noError, ⟨old.header, .ofBuffer b⟩) := by
  simp only [parse, EthernetHeader.parse]
  rw [if_pos h]

/-- A frame is its header followed by its payload. -/
theorem concatenate_serialize (frame : EthernetFrame) :
    frame.serialize.concatenate = frame.header.serialize ++ frame.payload.concatenate := by
  rw [serialize, BufferList.concatenate_append, BufferList.concatenate_ofBuffer]

/-- A frame is read back, with its payload in one buffer. -/
theorem parse_serialize (old frame : EthernetFrame) :
    old.parse frame.serialize.concatenate =
      (.noError, ⟨frame.header, .ofBuffer frame.payload.concatenate⟩) := by
  simp only [parse, concatenate_serialize, EthernetHeader.parse_serialize]

/-- An accepted string that holds a header is written back. -/
theorem serialize_parse (old : EthernetFrame) {b : Buffer} (h : EthernetHeader.length ≤ b.length) :
    (old.parse b).2.serialize.concatenate = b := by
  rw [parse_of_le old h, concatenate_serialize, BufferList.concatenate_ofBuffer,
    EthernetHeader.serialize_ofBuffer h, List.take_append_drop]

/-- The strings that are accepted as they should be, and written back when accepted, are those
that hold a header; and every frame is read back. A shorter string is accepted as well: the
parser's own error is returned, and the header's `parse` returns before it sets one. -/
theorem decodes_exactly_iff (old frame : EthernetFrame) (b : Buffer) :
    ((((old.parse b).1 = .noError ↔ EthernetHeader.length ≤ b.length) ∧
          ((old.parse b).1 = .noError → (old.parse b).2.serialize.concatenate = b)) ↔
        EthernetHeader.length ≤ b.length) ∧
      (old.parse frame.serialize.concatenate).1 = .noError ∧
      (old.parse frame.serialize.concatenate).2.header = frame.header ∧
      (old.parse frame.serialize.concatenate).2.payload.concatenate =
        frame.payload.concatenate := by
  refine ⟨⟨fun h => ?_, fun h => ⟨?_, fun _ => serialize_parse old h⟩⟩, ?_⟩
  · by_contra hshort
    rw [parse_of_lt old (Nat.not_le.mp hshort)] at h
    exact hshort (h.1.mp rfl)
  · rw [parse_of_le old h]
    exact iff_of_true rfl h
  · rw [parse_serialize old frame]
    exact ⟨rfl, rfl, BufferList.concatenate_ofBuffer _⟩

/-- One byte is accepted as a frame, and fifteen bytes are written for it. -/
theorem parse_one_byte :
    let old : EthernetFrame := ⟨⟨EthernetAddress.zero, EthernetAddress.zero, 0⟩, {}⟩
    (old.parse [0x45]).1 = .noError ∧ ¬ EthernetHeader.length ≤ ([0x45] : Buffer).length ∧
      (old.parse [0x45]).2.serialize.concatenate ≠ [0x45] := by
  decide

end EthernetFrame

/-! ## ARP messages -/

/-- `ARPMessage`. -/
structure ARPMessage where
  hardwareType : UInt16 := 1
  protocolType : UInt16 := EthernetHeader.typeIPv4
  hardwareAddressSize : UInt8 := 6
  protocolAddressSize : UInt8 := 4
  opcode : UInt16 := 0
  senderEthernetAddress : EthernetAddress := EthernetAddress.zero
  senderIpAddress : UInt32 := 0
  targetEthernetAddress : EthernetAddress := EthernetAddress.zero
  targetIpAddress : UInt32 := 0
deriving DecidableEq, Repr

namespace ARPMessage

/-- `ARPMessage::LENGTH`. -/
def length : Nat := 28

/-- `ARPMessage::TYPE_ETHERNET`. -/
def typeEthernet : UInt16 := 1

/-- `ARPMessage::OPCODE_REQUEST`. -/
def opcodeRequest : UInt16 := 1

/-- `ARPMessage::OPCODE_REPLY`. -/
def opcodeReply : UInt16 := 2

/-- `supported()`. -/
def supported (m : ARPMessage) : Bool :=
  m.hardwareType == typeEthernet && m.protocolType == EthernetHeader.typeIPv4 &&
    m.hardwareAddressSize == 6 && m.protocolAddressSize == 4 &&
    (m.opcode == opcodeRequest || m.opcode == opcodeReply)

/-- `parse(buffer)`: the result and the message. -/
def parse (m : ARPMessage) (buffer : Buffer) : ParseResult × ARPMessage :=
  let p : NetParser := ⟨buffer, .noError⟩
  if p.buffer.length < length then (.packetTooShort, m)
  else
    let (hardwareType, p) := p.u16
    let (protocolType, p) := p.u16
    let (hardwareAddressSize, p) := p.u8
    let (protocolAddressSize, p) := p.u8
    let (opcode, p) := p.u16
    let m := { m with
      hardwareType := hardwareType
      protocolType := protocolType
      hardwareAddressSize := hardwareAddressSize
      protocolAddressSize := protocolAddressSize
      opcode := opcode }
    if m.supported = false then (.unsupported, m)
    else
      let (senderEthernetAddress, p) := p.ethernetAddress
      let (senderIpAddress, p) := p.u32
      let (targetEthernetAddress, p) := p.ethernetAddress
      let (targetIpAddress, p) := p.u32
      (p.error, { m with
        senderEthernetAddress := senderEthernetAddress
        senderIpAddress := senderIpAddress
        targetEthernetAddress := targetEthernetAddress
        targetIpAddress := targetIpAddress })

/-- The fields that `serialize` writes. -/
def fields (m : ARPMessage) : List Byte :=
  NetUnparser.u16 m.hardwareType ++ NetUnparser.u16 m.protocolType ++
    NetUnparser.u8 m.hardwareAddressSize ++ NetUnparser.u8 m.protocolAddressSize ++
    NetUnparser.u16 m.opcode ++
    NetUnparser.ethernetAddress m.senderEthernetAddress ++ NetUnparser.u32 m.senderIpAddress ++
    NetUnparser.ethernetAddress m.targetEthernetAddress ++ NetUnparser.u32 m.targetIpAddress

/-- `serialize()`. -/
def serialize (m : ARPMessage) : Except String (List Byte) :=
  if m.supported = false then
    .error ("ARPMessage::serialize(): unsupported field combination " ++
      "(must be Ethernet/IP, and request or reply)")
  else .ok m.fields

variable {m : ARPMessage}

/-- A message has a fixed length. -/
theorem length_fields (m : ARPMessage) : m.fields.length = length := by
  simp [fields, length, m.senderEthernetAddress.length_eq, m.targetEthernetAddress.length_eq]

/-- A supported message is read back. -/
theorem parse_serialize (h : m.supported = true) (old : ARPMessage) :
    old.parse m.fields = (.noError, m) := by
  have hlength : ¬ m.fields.length < length := by
    rw [length_fields]
    exact lt_irrefl _
  have hread : m.fields = NetUnparser.u16 m.hardwareType ++ (NetUnparser.u16 m.protocolType ++
      (m.hardwareAddressSize :: m.protocolAddressSize :: (NetUnparser.u16 m.opcode ++
        (m.senderEthernetAddress.bytes ++ (NetUnparser.u32 m.senderIpAddress ++
          (m.targetEthernetAddress.bytes ++ (NetUnparser.u32 m.targetIpAddress ++ []))))))) := by
    simp [fields]
  have hsupported : ({ old with
      hardwareType := m.hardwareType
      protocolType := m.protocolType
      hardwareAddressSize := m.hardwareAddressSize
      protocolAddressSize := m.protocolAddressSize
      opcode := m.opcode } : ARPMessage).supported = true := h
  simp only [parse]
  rw [if_neg hlength, hread]
  simp only [NetParser.u16_append, NetParser.u8_cons, NetParser.ethernetAddress_append,
    NetParser.u32_append, hsupported, Bool.true_eq_false, if_false]

/-- The message that a long enough string starts with. -/
def ofBuffer (b : Buffer) (h : length ≤ b.length) : ARPMessage where
  hardwareType := UInt16.ofNat (field b 0 2)
  protocolType := UInt16.ofNat (field b 2 2)
  hardwareAddressSize := UInt8.ofNat (field b 4 1)
  protocolAddressSize := UInt8.ofNat (field b 5 1)
  opcode := UInt16.ofNat (field b 6 2)
  senderEthernetAddress := EthernetAddress.ofSlice b 8 (le_trans (by decide) h)
  senderIpAddress := UInt32.ofNat (field b 14 4)
  targetEthernetAddress := EthernetAddress.ofSlice b 18 (le_trans (by decide) h)
  targetIpAddress := UInt32.ofNat (field b 24 4)

/-- The fields of a message are written back as the bytes they were read from. -/
theorem fields_ofBuffer {b : Buffer} (h : length ≤ b.length) :
    (ofBuffer b h).fields = b.take length := by
  have hlong : 28 ≤ b.length := h
  simp only [fields, ofBuffer, NetUnparser.ethernetAddress_eq, EthernetAddress.ofSlice]
  rw [u16_field (by omega), u16_field (by omega),
    u8_field (by omega), u8_field (by omega),
    u16_field (by omega), u32_field (by omega),
    u32_field (by omega),
    take_append_take_drop 0 2 2, take_append_take_drop 0 4 1, take_append_take_drop 0 5 1,
    take_append_take_drop 0 6 2, take_append_take_drop 0 8 6, take_append_take_drop 0 14 4,
    take_append_take_drop 0 18 6, take_append_take_drop 0 24 4, List.drop_zero]
  rfl

/-- The strings that hold a message with the supported type, size and opcode fields. -/
def Valid (b : Buffer) : Prop :=
  length ≤ b.length ∧ field b 0 2 = 1 ∧ field b 2 2 = 0x800 ∧ field b 4 1 = 6 ∧
    field b 5 1 = 4 ∧ (field b 6 2 = 1 ∨ field b 6 2 = 2)

instance (b : Buffer) : Decidable (Valid b) := by
  unfold Valid
  infer_instance

/-- A long enough string holds a supported message if its fields say so. -/
theorem supported_ofBuffer {b : Buffer} (h : length ≤ b.length) :
    (ofBuffer b h).supported = true ↔ Valid b := by
  have htype := toNat_field_two b 0
  have hprotocol := toNat_field_two b 2
  have hhardware := toNat_field_one b 4
  have haddress := toNat_field_one b 5
  have hopcode := toNat_field_two b 6
  simp only [supported, ofBuffer, Bool.and_eq_true, Bool.or_eq_true, beq_iff_eq,
    ← UInt16.toNat_inj, ← UInt8.toNat_inj, htype, hprotocol, hhardware, haddress, hopcode,
    Valid, h, true_and, and_assoc]
  rfl

/-- A string that is too short is refused, and the message stays as it was. -/
theorem parse_of_lt (old : ARPMessage) {b : Buffer} (h : b.length < length) :
    old.parse b = (.packetTooShort, old) := by
  simp only [parse]
  rw [if_pos h]

/-- A string that is long enough is refused only for the fields that come first. -/
theorem parse_of_le (old : ARPMessage) {b : Buffer} (h : length ≤ b.length) :
    old.parse b =
      if (ofBuffer b h).supported = false then
        (.unsupported, { old with
          hardwareType := (ofBuffer b h).hardwareType
          protocolType := (ofBuffer b h).protocolType
          hardwareAddressSize := (ofBuffer b h).hardwareAddressSize
          protocolAddressSize := (ofBuffer b h).protocolAddressSize
          opcode := (ofBuffer b h).opcode })
      else (.noError, ofBuffer b h) := by
  have hlong : 28 ≤ b.length := h
  have htype := NetParser.u16_drop (show 0 + 2 ≤ b.length by omega)
  have hprotocol := NetParser.u16_drop (show 2 + 2 ≤ b.length by omega)
  have hhardware := NetParser.u8_drop (show 4 + 1 ≤ b.length by omega)
  have haddress := NetParser.u8_drop (show 5 + 1 ≤ b.length by omega)
  have hopcode := NetParser.u16_drop (show 6 + 2 ≤ b.length by omega)
  have hsender := NetParser.ethernetAddress_drop (show 8 + 6 ≤ b.length by omega)
  have hsenderIp := NetParser.u32_drop (show 14 + 4 ≤ b.length by omega)
  have htarget := NetParser.ethernetAddress_drop (show 18 + 6 ≤ b.length by omega)
  have htargetIp := NetParser.u32_drop (show 24 + 4 ≤ b.length by omega)
  rw [List.drop_zero] at htype
  simp only [parse]
  rw [if_neg (Nat.not_lt.mpr h), htype]
  simp only [Nat.zero_add, hprotocol, Nat.reduceAdd, hhardware, haddress, hopcode, hsender,
    hsenderIp, htarget, htargetIp]
  -- `supported` reads only the fields that are already set
  rfl

/-- A valid string is accepted with its message. -/
theorem parse_of_valid (old : ARPMessage) {b : Buffer} (h : Valid b) :
    old.parse b = (.noError, ofBuffer b h.1) := by
  rw [parse_of_le old h.1, if_neg]
  rw [(supported_ofBuffer h.1).mpr h]
  decide

/-- The accepted strings. -/
theorem parse_eq_noError_iff (old : ARPMessage) (b : Buffer) :
    (old.parse b).1 = .noError ↔ Valid b := by
  refine ⟨fun haccepted => ?_, fun h => by rw [parse_of_valid old h]⟩
  rcases Nat.lt_or_ge b.length length with hshort | hlong
  · rw [parse_of_lt old hshort] at haccepted
    contradiction
  · rw [← supported_ofBuffer hlong]
    by_contra hunsupported
    rw [parse_of_le old hlong, if_pos (Bool.eq_false_iff.mpr hunsupported)] at haccepted
    contradiction

/-- An accepted string is written back, without what follows the message. -/
theorem serialize_parse (old : ARPMessage) {b : Buffer} (h : Valid b) :
    (old.parse b).2.serialize = .ok (b.take length) := by
  have hsupported := (supported_ofBuffer h.1).mpr h
  rw [parse_of_valid old h, serialize, if_neg (by rw [hsupported]; decide), fields_ofBuffer h.1]

end ARPMessage
end Sponge
