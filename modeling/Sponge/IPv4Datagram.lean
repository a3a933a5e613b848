import Sponge.Parser
import Sponge.InternetChecksum

/-!
# IPv4 datagrams

`IPv4Header` and `IPv4Datagram` of `libsponge/tcp_helpers/ipv4_header.{hh,cc}` and
`ipv4_datagram.{hh,cc}`.

`IPv4Datagram::parse` ignores what `IPv4Header::parse` returns: a datagram is accepted if
the parser did not run out of bytes and the payload is as long as the header says.  A
wrong version, a short header length or a bad checksum are not noticed there.

Main results:

- Theorem {lit}`IPv4Datagram.serialize_wellFormed`: a well-formed datagram is serialised.
- Theorem {lit}`IPv4Datagram.parse_serialize`: and read back, with its checksum filled in.
- Theorem {lit}`IPv4Datagram.datagram_round_trip`: and what is read serialises to the same
  bytes.
- Theorem {lit}`IPv4Datagram.serializable_iff`: which datagrams can be serialised.
-/

namespace Sponge

open Library

/-! ## The header -/

/-- `IPv4Header`. -/
structure IPv4Header where
  ver : UInt8 := 4
  hlen : UInt8 := 5
  tos : UInt8 := 0
  len : UInt16 := 0
  id : UInt16 := 0
  df : Bool := true
  mf : Bool := false
  offset : UInt16 := 0
  ttl : UInt8 := 128
  proto : UInt8 := 6
  cksum : UInt16 := 0
  src : UInt32 := 0
  dst : UInt32 := 0
deriving DecidableEq, Repr

namespace IPv4Header

/-- `IPv4Header::LENGTH`. -/
def length : Nat := 20

/-- `IPv4Header::PROTO_TCP`. -/
def protoTCP : UInt8 := 6

/-- The fields that `parse` reads. -/
def readFields (p : NetParser) : IPv4Header × NetParser :=
  let (firstByte, p) := p.u8
  let (tos, p) := p.u8
  let (len, p) := p.u16
  let (id, p) := p.u16
  let (foVal, p) := p.u16
  let (ttl, p) := p.u8
  let (proto, p) := p.u8
  let (cksum, p) := p.u16
  let (src, p) := p.u32
  let (dst, p) := p.u32
  ({ ver := firstByte >>> 4
     hlen := firstByte &&& 0x0f
     tos := tos
     len := len
     id := id
     df := decide (foVal &&& 0x4000 ≠ 0)
     mf := decide (foVal &&& 0x2000 ≠ 0)
     offset := foVal &&& 0x1fff
     ttl := ttl
     proto := proto
     cksum := cksum
     src := src
     dst := dst }, p)

/-- `parse(p)`: the result, the header and the parser behind it. -/
def parse (header : IPv4Header) (p : NetParser) : ParseResult × IPv4Header × NetParser :=
  let original := p.buffer
  let dataSize := p.buffer.length
  if dataSize < length then (.packetTooShort, header, p)
  else
    let (header, p) := readFields p
    if dataSize < 4 * header.hlen.toNat then (.packetTooShort, header, p)
    else if header.ver ≠ 4 then (.wrongIPVersion, header, p)
    else if header.hlen < 5 then (.headerTooShort, header, p)
    else if dataSize ≠ header.len.toNat then (.truncatedPacket, header, p)
    else
      let p := p.removePrefix (header.hlen.toNat * 4 - length)
      if p.error ≠ .noError then (p.error, header, p)
      else if ((InternetChecksum.new 0).add (original.take (4 * header.hlen.toNat))).value ≠ 0 then
        (.badChecksum, header, p)
      else (.noError, header, p)

/-- The byte with the version and the header length. -/
def firstByte (header : IPv4Header) : UInt8 :=
  (header.ver <<< 4) ||| (header.hlen &&& 0xf)

/-- The word with the flags and the fragment offset. -/
def foVal (header : IPv4Header) : UInt16 :=
  (if header.df then 0x4000 else 0) ||| (if header.mf then 0x2000 else 0) |||
    (header.offset &&& 0x1fff)

/-- The fields that `serialize` writes. -/
def fields (header : IPv4Header) : List Byte :=
  NetUnparser.u8 header.firstByte ++ NetUnparser.u8 header.tos ++ NetUnparser.u16 header.len ++
    NetUnparser.u16 header.id ++ NetUnparser.u16 header.foVal ++ NetUnparser.u8 header.ttl ++
    NetUnparser.u8 header.proto ++ NetUnparser.u16 header.cksum ++ NetUnparser.u32 header.src ++
    NetUnparser.u32 header.dst

/-- `serialize()`. -/
def serialize (header : IPv4Header) : Except String (List Byte) :=
  if header.ver ≠ 4 then .error "wrong IP version"
  else if 4 * header.hlen.toNat < length then .error "IP header too short"
  else .ok (resize (4 * header.hlen.toNat) header.fields)

/-- `payload_length()`. -/
def payloadLength (header : IPv4Header) : UInt16 :=
  header.len - 4 * header.hlen.toUInt16

/-- `pseudo_cksum()`. -/
def pseudoCksum (header : IPv4Header) : UInt32 :=
  let pcksum := (header.src >>> 16) + (header.src &&& (0xffff : UInt32))
  let pcksum := pcksum + ((header.dst >>> 16) + (header.dst &&& (0xffff : UInt32)))
  let pcksum := pcksum + header.proto.toUInt32
  pcksum + header.payloadLength.toUInt32

/-- The header with another checksum. -/
@[simps]
def withCksum (header : IPv4Header) (cksum : UInt16) : IPv4Header :=
  { header with cksum := cksum }

variable {header : IPv4Header}

@[simp]
theorem length_fields (header : IPv4Header) : header.fields.length = length := by
  simp [fields, length]

/-- A first byte keeps a version 4 and a header length of four bits. -/
theorem firstByte_parts (hver : header.ver = 4) (hhlen : header.hlen.toNat < 16) :
    header.firstByte >>> 4 = header.ver ∧ header.firstByte &&& 0x0f = header.hlen := by
  have hall : ∀ n < 16, ((4 : UInt8) <<< 4 ||| (UInt8.ofNat n &&& 0xf)) >>> 4 = 4 ∧
      ((4 : UInt8) <<< 4 ||| (UInt8.ofNat n &&& 0xf)) &&& 0x0f = UInt8.ofNat n := by
    decide
  have hparts := hall header.hlen.toNat hhlen
  rw [UInt8.ofNat_toNat] at hparts
  rw [firstByte, hver]
  exact hparts

/-- A mask with one bit takes its flag out of the word with the flags. -/
theorem foVal_and_flag (header : IPv4Header) :
    header.foVal &&& 0x4000 = (if header.df then 0x4000 else 0) ∧
      header.foVal &&& 0x2000 = if header.mf then 0x2000 else 0 := by
  unfold foVal
  constructor
  · apply UInt16.eq_of_toBitVec_eq
    apply BitVec.eq_of_getLsbD_eq
    intro i hi
    interval_cases i <;> cases header.df <;> cases header.mf <;> simp
  · apply UInt16.eq_of_toBitVec_eq
    apply BitVec.eq_of_getLsbD_eq
    intro i hi
    interval_cases i <;> cases header.df <;> cases header.mf <;> simp

/-- The word with the flags keeps an offset of 13 bits. -/
theorem foVal_and_offset (hoffset : header.offset.toNat < 2 ^ 13) :
    header.foVal &&& 0x1fff = header.offset := by
  have hmask : (0x1fff : UInt16).toNat = 2 ^ 13 - 1 := by decide
  apply UInt16.toNat_inj.mp
  rw [UInt16.toNat_and, hmask, Nat.and_two_pow_sub_one_eq_mod, foVal, UInt16.toNat_or,
    Nat.or_mod_two_pow, UInt16.toNat_and, hmask, Nat.and_two_pow_sub_one_eq_mod,
    Nat.mod_mod, Nat.mod_eq_of_lt hoffset]
  cases header.df <;> cases header.mf <;> simp

/-- Written fields are read back. -/
theorem readFields_fields (header : IPv4Header) (hver : header.ver = 4)
    (hhlen : header.hlen.toNat < 16) (hoffset : header.offset.toNat < 2 ^ 13) (rest : List Byte) :
    readFields ⟨header.fields ++ rest, .noError⟩ = (header, ⟨rest, .noError⟩) := by
  obtain ⟨hfirst, hsecond⟩ := firstByte_parts hver hhlen
  obtain ⟨hdf, hmf⟩ := foVal_and_flag header
  have hflag : ∀ (flag : Bool) (mask : UInt16), mask ≠ 0 →
      decide ((if flag then mask else 0) ≠ 0) = flag := by
    intro flag mask hmask
    cases flag <;> simp [hmask]
  simp only [readFields, fields, NetUnparser.u8_eq, List.append_assoc, List.nil_append,
    List.cons_append, NetParser.u8_cons, NetParser.u16_append, NetParser.u32_append, hfirst,
    hsecond, hdf, hmf, foVal_and_offset hoffset, hflag _ 0x4000 (by decide),
    hflag _ 0x2000 (by decide)]

/-! ## The checksum -/

/-- The checksum is one of the words that are summed. -/
theorem wordSum_fields_withCksum (header : IPv4Header) (cksum : UInt16) :
    wordSum false (header.withCksum cksum).fields =
      wordSum false (header.withCksum 0).fields + cksum.toNat := by
  have hzero : wordSum false (NetUnparser.u16 0) = 0 := wordSum_u16 0
  have hfirst : ∀ c, (header.withCksum c).firstByte = header.firstByte := fun _ => rfl
  have hfo : ∀ c, (header.withCksum c).foVal = header.foVal := fun _ => rfl
  simp [fields, wordSum_append, hfirst, hfo, wordSum_u16, hzero]
  omega

/-- A header whose checksum was computed over itself verifies. -/
theorem value_filled {n : Nat} (h : length ≤ n) (header : IPv4Header) :
    ((InternetChecksum.new 0).add (resize n (header.withCksum
      ((InternetChecksum.new 0).add (resize n (header.withCksum 0).fields)).value).fields)).value =
        0 := by
  generalize hcksum : ((InternetChecksum.new 0).add
    (resize n (header.withCksum 0).fields)).value = cksum
  have hbound := wordSum_le false (header.withCksum cksum).fields
  rw [length_fields, length] at hbound
  have hresize : ∀ c, wordSum false (resize n (header.withCksum c).fields) =
      wordSum false (header.withCksum c).fields :=
    fun c => wordSum_resize ((length_fields _).trans_le h)
  apply InternetChecksum.value_add_filled 0 (resize n (header.withCksum 0).fields)
  · rw [hresize]
    change 0 + _ < _
    omega
  · rw [hcksum, hresize, hresize, wordSum_fields_withCksum]

/-- The halves of an address are added as words. -/
theorem toNat_halves_le (x : UInt32) :
    ((x >>> 16) + (x &&& (0xffff : UInt32))).toNat ≤ 131070 := by
  have hx := x.toNat_lt
  have hhigh : (x >>> 16).toNat = x.toNat / 2 ^ 16 := by
    rw [UInt32.toNat_shiftRight, Nat.shiftRight_eq_div_pow]
    rfl
  have hlow : (x &&& (0xffff : UInt32)).toNat = x.toNat % 2 ^ 16 := by
    rw [UInt32.toNat_and]
    exact Nat.and_two_pow_sub_one_eq_mod x.toNat 16
  rw [UInt32.toNat_add, hhigh, hlow]
  refine (Nat.mod_le _ _).trans ?_
  norm_num at hx ⊢
  omega

/-- The checksum of the header does not enter the pseudo-header. -/
theorem pseudoCksum_withCksum (header : IPv4Header) (cksum : UInt16) :
    (header.withCksum cksum).pseudoCksum = header.pseudoCksum :=
  rfl

/-- The sum over the pseudo-header is far from overflowing. -/
theorem pseudoCksum_lt (header : IPv4Header) : header.pseudoCksum.toNat < 2 ^ 19 := by
  have hsrc := toNat_halves_le header.src
  have hdst := toNat_halves_le header.dst
  have hproto := header.proto.toNat_lt
  have hlength := header.payloadLength.toNat_lt
  simp only [pseudoCksum, UInt32.toNat_add, UInt8.toNat_toUInt32, UInt16.toNat_toUInt32] at *
  omega

/-! ## Reading a sound header -/

/-- A header with sound fields and a matching checksum is accepted. -/
theorem parse_of_readFields (old : IPv4Header) {buffer rest : Buffer}
    (hread : readFields ⟨buffer, .noError⟩ = (header, ⟨rest, .noError⟩))
    (hbuffer : length ≤ buffer.length) (hver : header.ver = 4) (hge : 5 ≤ header.hlen.toNat)
    (hlen : buffer.length = header.len.toNat) (hle : 4 * header.hlen.toNat ≤ buffer.length)
    (hrest : header.hlen.toNat * 4 - length ≤ rest.length)
    (hvalue : ((InternetChecksum.new 0).add (buffer.take (4 * header.hlen.toNat))).value = 0) :
    old.parse ⟨buffer, .noError⟩ =
      (.noError, header, ⟨rest.drop (header.hlen.toNat * 4 - length), .noError⟩) := by
  have hlong : ¬ header.hlen < 5 := by
    rw [UInt8.lt_iff_toNat_lt]
    exact Nat.not_lt.mpr hge
  simp only [parse]
  rw [if_neg (Nat.not_lt.mpr hbuffer), hread]
  simp only
  rw [if_neg (Nat.not_lt.mpr hle), if_neg (not_not.mpr hver), if_neg hlong,
    if_neg (not_not.mpr hlen), NetParser.removePrefix_of_le hrest]
  simp [hvalue]

/-! ## Sound headers -/

/-- The conditions that `serialize()` checks. -/
def Sound (header : IPv4Header) : Prop :=
  header.ver = 4 ∧ 5 ≤ header.hlen.toNat

instance (header : IPv4Header) : Decidable header.Sound :=
  inferInstanceAs (Decidable (_ ∧ _))

theorem serialize_eq_ok_iff {bytes : List Byte} :
    header.serialize = .ok bytes ↔
      header.Sound ∧ bytes = resize (4 * header.hlen.toNat) header.fields := by
  unfold serialize Sound length
  split
  · rename_i hver
    simp [hver]
  · rename_i hver
    rw [not_not] at hver
    split
    · rename_i hshort
      have hnot : ¬ 5 ≤ header.hlen.toNat := by omega
      simp [hnot]
    · rename_i hlong
      have hlen : 5 ≤ header.hlen.toNat := by omega
      simp [hver, hlen, eq_comm]

end IPv4Header

/-! ## The datagram -/

/-- `IPv4Datagram`. -/
structure IPv4Datagram where
  header : IPv4Header := {}
  payload : BufferList := {}
deriving DecidableEq, Repr

namespace IPv4Datagram

/-- `parse(buffer)`: the result and the datagram. -/
def parse (dgram : IPv4Datagram) (buffer : Buffer) : ParseResult × IPv4Datagram :=
  let (_, header, p) := dgram.header.parse ⟨buffer, .noError⟩
  let payload := BufferList.ofBuffer p.buffer
  (if payload.size ≠ header.payloadLength.toNat then .packetTooShort else p.error,
    ⟨header, payload⟩)

/-- `serialize()`. -/
def serialize (dgram : IPv4Datagram) : Except String BufferList :=
  if dgram.payload.size ≠ dgram.header.payloadLength.toNat then
    .error "IPv4Datagram::serialize: payload is wrong size"
  else do
    let headerZeroChecksum ← (dgram.header.withCksum 0).serialize
    let check := (InternetChecksum.new 0).add headerZeroChecksum
    let headerOut ← (dgram.header.withCksum check.value).serialize
    .ok ((BufferList.ofBuffer headerOut).append dgram.payload)

/-- A well-formed datagram: version 4, a header length of 5 to 15 words, and a length that
fits the payload. -/
structure WellFormed (dgram : IPv4Datagram) : Prop where
  ver_eq : dgram.header.ver = 4
  hlen_ge : 5 ≤ dgram.header.hlen.toNat
  hlen_le : dgram.header.hlen.toNat ≤ 15
  len_eq : dgram.header.len.toNat = 4 * dgram.header.hlen.toNat + dgram.payload.size

instance (dgram : IPv4Datagram) : Decidable dgram.WellFormed :=
  decidable_of_iff (dgram.header.ver = 4 ∧ 5 ≤ dgram.header.hlen.toNat ∧
      dgram.header.hlen.toNat ≤ 15 ∧
      dgram.header.len.toNat = 4 * dgram.header.hlen.toNat + dgram.payload.size)
    ⟨fun h => ⟨h.1, h.2.1, h.2.2.1, h.2.2.2⟩,
      fun h => ⟨h.ver_eq, h.hlen_ge, h.hlen_le, h.len_eq⟩⟩

/-- The header that `serialize()` writes, with the checksum over its other fields. -/
def headerOut (dgram : IPv4Datagram) : IPv4Header :=
  dgram.header.withCksum ((InternetChecksum.new 0).add
    (resize (4 * dgram.header.hlen.toNat) (dgram.header.withCksum 0).fields)).value

variable {dgram : IPv4Datagram}

theorem WellFormed.payloadLength_eq (h : dgram.WellFormed) :
    dgram.header.payloadLength.toNat = dgram.payload.size := by
  have hlen := h.len_eq
  have hle := h.hlen_le
  have hlt := dgram.header.len.toNat_lt
  have hfour : (4 * dgram.header.hlen.toUInt16).toNat = 4 * dgram.header.hlen.toNat := by
    rw [UInt16.toNat_mul, UInt8.toNat_toUInt16, Nat.mod_eq_of_lt]
    · rfl
    · change 4 * dgram.header.hlen.toNat < 2 ^ 16
      omega
  rw [IPv4Header.payloadLength, UInt16.toNat_sub_of_le, hfour]
  · omega
  · rw [UInt16.le_iff_toNat_le, hfour]
    omega

/-- Serialisation succeeds exactly on sound headers with a payload of the right size. -/
theorem serialize_eq_ok_iff {list : BufferList} :
    dgram.serialize = .ok list ↔ dgram.payload.size = dgram.header.payloadLength.toNat ∧
      dgram.header.Sound ∧
      list = (BufferList.ofBuffer (resize (4 * dgram.header.hlen.toNat)
        dgram.headerOut.fields)).append dgram.payload := by
  unfold serialize
  split
  · rename_i hsize
    simp [hsize]
  · rename_i hsize
    rw [not_not] at hsize
    by_cases hsound : dgram.header.Sound
    · have hserialize : ∀ cksum, (dgram.header.withCksum cksum).serialize =
          .ok (resize (4 * dgram.header.hlen.toNat) (dgram.header.withCksum cksum).fields) :=
        fun cksum => IPv4Header.serialize_eq_ok_iff.mpr ⟨hsound, rfl⟩
      simp only [bind, Except.bind, hserialize, Except.ok.injEq]
      constructor
      · rintro rfl
        exact ⟨hsize, hsound, rfl⟩
      · rintro ⟨-, -, rfl⟩
        rfl
    · constructor
      · intro hok
        cases hheader : (dgram.header.withCksum 0).serialize with
        | error e =>
            rw [hheader] at hok
            cases hok
        | ok bytes => exact absurd (IPv4Header.serialize_eq_ok_iff.mp hheader).1 hsound
      · exact fun h => absurd h.2.1 hsound

/-- A well-formed datagram is serialised. -/
theorem serialize_wellFormed (h : dgram.WellFormed) :
    dgram.serialize = .ok ((BufferList.ofBuffer (resize (4 * dgram.header.hlen.toNat)
      dgram.headerOut.fields)).append dgram.payload) :=
  serialize_eq_ok_iff.mpr ⟨h.payloadLength_eq.symm, ⟨h.ver_eq, h.hlen_ge⟩, rfl⟩

/-- `serialize()` does not throw. -/
def Serializable (dgram : IPv4Datagram) : Prop :=
  ∃ list, dgram.serialize = .ok list

theorem WellFormed.serializable (h : dgram.WellFormed) : dgram.Serializable :=
  ⟨_, serialize_wellFormed h⟩

theorem serializable_iff : dgram.Serializable ↔
    dgram.payload.size = dgram.header.payloadLength.toNat ∧ dgram.header.Sound := by
  constructor
  · rintro ⟨list, hlist⟩
    exact ⟨(serialize_eq_ok_iff.mp hlist).1, (serialize_eq_ok_iff.mp hlist).2.1⟩
  · rintro ⟨hsize, hsound⟩
    exact ⟨_, serialize_eq_ok_iff.mpr ⟨hsize, hsound, rfl⟩⟩

/-- Datagrams that can be serialised are all serialised. -/
theorem exists_payloads {dgrams : List IPv4Datagram} (h : ∀ d ∈ dgrams, d.Serializable) :
    ∃ payloads : List BufferList, dgrams.map serialize = payloads.map Except.ok := by
  induction dgrams with
  | nil => exact ⟨[], rfl⟩
  | cons d dgrams ih =>
      obtain ⟨payloads, hpayloads⟩ := ih fun x hx => h x (List.mem_cons_of_mem _ hx)
      obtain ⟨payload, hd⟩ := h d List.mem_cons_self
      exact ⟨payload :: payloads, by rw [List.map_cons, List.map_cons, hpayloads, hd]⟩

/-- Datagrams are all serialised, or there is a first one for which `serialize()` throws. -/
theorem exists_payloads_or_first_error (dgrams : List IPv4Datagram) :
    ∃ (sent : List IPv4Datagram) (payloads : List BufferList),
      sent.map serialize = payloads.map Except.ok ∧
        (dgrams = sent ∨ ∃ dgram rest e, dgrams = sent ++ dgram :: rest ∧
          dgram.serialize = .error e) := by
  induction dgrams with
  | nil => exact ⟨[], [], rfl, Or.inl rfl⟩
  | cons d dgrams ih =>
      cases hd : d.serialize with
      | error e => exact ⟨[], [], rfl, Or.inr ⟨d, dgrams, e, rfl, hd⟩⟩
      | ok payload =>
          obtain ⟨sent, payloads, hpayloads, hsplit⟩ := ih
          refine ⟨d :: sent, payload :: payloads, ?_, ?_⟩
          · rw [List.map_cons, List.map_cons, hpayloads, hd]
          · rcases hsplit with hall | ⟨dgram, rest, e, hfirst, he⟩
            · exact Or.inl (by rw [hall])
            · exact Or.inr ⟨dgram, rest, e, by rw [hfirst, List.cons_append], he⟩

/-- The header of a serialised datagram is read back, with its checksum filled in, and the
payload is left. -/
theorem parse_header_serialize (h : dgram.WellFormed)
    (hoffset : dgram.header.offset.toNat < 2 ^ 13) {list : BufferList}
    (hlist : dgram.serialize = .ok list) (old : IPv4Header) :
    old.parse ⟨list.concatenate, .noError⟩ =
      (.noError, dgram.headerOut, ⟨dgram.payload.concatenate, .noError⟩) := by
  obtain ⟨-, -, rfl⟩ := serialize_eq_ok_iff.mp hlist
  have hge := h.hlen_ge
  have hle := h.hlen_le
  have hlen := h.len_eq
  have hpad : IPv4Header.length ≤ 4 * dgram.header.hlen.toNat := by
    rw [IPv4Header.length]
    omega
  have hsize : (resize (4 * dgram.header.hlen.toNat) dgram.headerOut.fields ++
      dgram.payload.concatenate).length = dgram.header.len.toNat := by
    rw [List.length_append, length_resize, BufferList.length_concatenate, hlen]
  have hread := IPv4Header.readFields_fields dgram.headerOut h.ver_eq
    (show dgram.header.hlen.toNat < 16 by omega) hoffset
    (List.replicate (4 * dgram.header.hlen.toNat - dgram.headerOut.fields.length) 0 ++
      dgram.payload.concatenate)
  rw [← List.append_assoc, ← resize_eq_append (by rw [IPv4Header.length_fields]; exact hpad)]
    at hread
  have hheader := IPv4Header.parse_of_readFields old hread (by omega) h.ver_eq hge hsize
    (by rw [hsize, hlen]; exact Nat.le_add_right _ _)
    (by
      change dgram.header.hlen.toNat * 4 - IPv4Header.length ≤ _
      simp
      omega)
    (by
      rw [List.take_append_of_le_length (by rw [length_resize]; exact le_rfl),
        List.take_of_length_le (by rw [length_resize]; exact le_rfl)]
      exact IPv4Header.value_filled hpad dgram.header)
  have hrest : (List.replicate (4 * dgram.header.hlen.toNat - dgram.headerOut.fields.length) 0 ++
      dgram.payload.concatenate).drop (dgram.headerOut.hlen.toNat * 4 - IPv4Header.length) =
        dgram.payload.concatenate := by
    rw [IPv4Header.length_fields]
    exact List.drop_left' (by rw [List.length_replicate, Nat.mul_comm]; rfl)
  rw [BufferList.concatenate_append, BufferList.concatenate_ofBuffer, hheader, hrest]

/-- A serialised datagram is read back, with its checksum filled in. -/
theorem parse_serialize (h : dgram.WellFormed) (hoffset : dgram.header.offset.toNat < 2 ^ 13)
    {list : BufferList} (hlist : dgram.serialize = .ok list) (old : IPv4Datagram) :
    old.parse list.concatenate =
      (.noError, ⟨dgram.headerOut, BufferList.ofBuffer dgram.payload.concatenate⟩) := by
  have hpayload : dgram.headerOut.payloadLength.toNat = dgram.payload.size := h.payloadLength_eq
  rw [parse, parse_header_serialize h hoffset hlist]
  simp [hpayload, BufferList.length_concatenate]

/-- What is read from a well-formed datagram is well-formed. -/
theorem WellFormed.parsed (h : dgram.WellFormed) :
    (⟨dgram.headerOut, BufferList.ofBuffer dgram.payload.concatenate⟩ :
      IPv4Datagram).WellFormed := by
  refine ⟨h.ver_eq, h.hlen_ge, h.hlen_le, ?_⟩
  rw [BufferList.size_ofBuffer, BufferList.length_concatenate]
  exact h.len_eq

/-- A well-formed datagram whose offset fits is serialised; its bytes are accepted by the
parser of datagrams and by that of headers, with every field but the checksum and the payload
as they were; and the datagram read serialises to the same bytes. -/
theorem datagram_round_trip (dgram old : IPv4Datagram) (h : dgram.WellFormed)
    (hoffset : dgram.header.offset.toNat < 2 ^ 13) :
    ∃ list parsed again cksum, dgram.serialize = .ok list ∧
      old.parse list.concatenate = (.noError, parsed) ∧
      old.header.parse ⟨list.concatenate, .noError⟩ =
        (.noError, parsed.header, ⟨dgram.payload.concatenate, .noError⟩) ∧
      parsed.header = dgram.header.withCksum cksum ∧
      parsed.payload.concatenate = dgram.payload.concatenate ∧
      parsed.serialize = .ok again ∧ again.concatenate = list.concatenate := by
  have hlist := serialize_wellFormed h
  refine ⟨_, _, _, _, hlist, parse_serialize h hoffset hlist old,
    parse_header_serialize h hoffset hlist old.header, rfl, BufferList.concatenate_ofBuffer _,
    serialize_wellFormed h.parsed, ?_⟩
  simp only [BufferList.concatenate_append, BufferList.concatenate_ofBuffer]
  rfl

/-- A fragment with options, whose payload comes in two pieces. -/
theorem datagram_round_trip_fragment :
    let dgram : IPv4Datagram :=
      ⟨{ hlen := 7, len := 31, id := 9, df := false, mf := true, offset := 8191, cksum := 5 },
        ⟨[[1, 2], [3]]⟩⟩
    ∃ list parsed again cksum, dgram.serialize = .ok list ∧
      ({} : IPv4Datagram).parse list.concatenate = (.noError, parsed) ∧
      ({} : IPv4Header).parse ⟨list.concatenate, .noError⟩ =
        (.noError, parsed.header, ⟨dgram.payload.concatenate, .noError⟩) ∧
      parsed.header = dgram.header.withCksum cksum ∧
      parsed.payload.concatenate = dgram.payload.concatenate ∧
      parsed.serialize = .ok again ∧ again.concatenate = list.concatenate := by
  intro dgram
  exact datagram_round_trip dgram {} (by decide) (by decide)

/-- An accepted datagram has a payload of the size that its header says. -/
theorem size_of_parse {old : IPv4Datagram} {buffer : Buffer}
    (h : old.parse buffer = (.noError, dgram)) :
    dgram.payload.size = dgram.header.payloadLength.toNat := by
  unfold parse at h
  obtain ⟨result, header, p⟩ := old.header.parse ⟨buffer, .noError⟩
  simp only [Prod.mk.injEq] at h
  obtain ⟨hresult, rfl⟩ := h
  by_contra hsize
  rw [if_pos hsize] at hresult
  cases hresult

end IPv4Datagram
end Sponge
