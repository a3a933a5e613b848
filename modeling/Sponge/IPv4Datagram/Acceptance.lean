import Sponge.Library.Word
import Sponge.IPv4Datagram

/-!
# Which datagrams are accepted

The format of a datagram is stated here over the bytes, without the parser: where its
fields stand, and which strings are valid.  `IPv4Header::parse` returns `NoError` on valid
strings only.  But `IPv4Datagram::parse` drops that result and compares the length of what
the parser left with `payload_length()`.  Since a refused header is left behind after its 20
fixed bytes, and the parser has no error of its own, this comparison lets through every
string whose checksum is wrong and nothing else, and every refused string whose length
happens to fit.

Main results:

- Theorem {lit}`IPv4Header.readFields_standsIn`: the fields read are those of the string.
- Theorems {lit}`IPv4Header.parse_framed` and {lit}`IPv4Header.parse_unframed`: what the header
  parser makes of a string.
- Theorem {lit}`IPv4Datagram.datagram_parse_exact_iff`: the parser of datagrams accepts what it
  should on a string, with the right fields and payload, exactly if no defect goes unnoticed.
-/

namespace Sponge

open Library

namespace IPv4Header

/-! ## The format -/

/-- The fields of a header are those in the first 20 bytes of a string. -/
structure StandsIn (header : IPv4Header) (b : Buffer) : Prop where
  ver_eq : header.ver.toNat = field b 0 1 / 16
  hlen_eq : header.hlen.toNat = field b 0 1 % 16
  tos_eq : header.tos.toNat = field b 1 1
  len_eq : header.len.toNat = field b 2 2
  id_eq : header.id.toNat = field b 4 2
  df_eq : header.df = (field b 6 2).testBit 14
  mf_eq : header.mf = (field b 6 2).testBit 13
  offset_eq : header.offset.toNat = field b 6 2 % 2 ^ 13
  ttl_eq : header.ttl.toNat = field b 8 1
  proto_eq : header.proto.toNat = field b 9 1
  cksum_eq : header.cksum.toNat = field b 10 2
  src_eq : header.src.toNat = field b 12 4
  dst_eq : header.dst.toNat = field b 16 4

/-- The header length of a string in bytes. -/
def headerSize (b : Buffer) : Nat :=
  4 * (field b 0 1 % 16)

/-- Version, header length and total length of a string are sound. -/
def Framed (b : Buffer) : Prop :=
  field b 0 1 / 16 = 4 ∧ 5 ≤ field b 0 1 % 16 ∧ headerSize b ≤ b.length ∧ field b 2 2 = b.length

instance (b : Buffer) : Decidable (Framed b) :=
  inferInstanceAs (Decidable (_ ∧ _ ∧ _ ∧ _))

/-! ## What the header parser reads -/

/-- The fields read from a string that is long enough are those that stand in it. -/
theorem readFields_standsIn {b : Buffer} (h : length ≤ b.length) :
    ∃ header : IPv4Header, readFields ⟨b, .noError⟩ = (header, ⟨b.drop length, .noError⟩) ∧
      header.StandsIn b := by
  unfold length at h
  have hfo := field_lt b 6 2
  have hstart : (⟨b, .noError⟩ : NetParser) = ⟨b.drop 0, .noError⟩ := by rw [List.drop_zero]
  rw [hstart]
  simp (disch := omega) only [readFields, NetParser.u8_drop, NetParser.u16_drop,
    NetParser.u32_drop, Nat.reduceAdd]
  refine ⟨_, rfl, ?_⟩
  constructor
  case ver_eq =>
    rw [UInt8.toNat_shiftRight, toNat_field_one, Nat.shiftRight_eq_div_pow]
    rfl
  case hlen_eq =>
    rw [UInt8.toNat_and, toNat_field_one]
    exact Nat.and_two_pow_sub_one_eq_mod _ 4
  case offset_eq =>
    rw [UInt16.toNat_and, toNat_field_two]
    exact Nat.and_two_pow_sub_one_eq_mod _ 13
  case df_eq =>
    exact (decide_and_flag_sixteen (i := 14) (by decide)).trans (by rw [toNat_field_two])
  case mf_eq =>
    exact (decide_and_flag_sixteen (i := 13) (by decide)).trans (by rw [toNat_field_two])
  all_goals simp only [toNat_field_one, toNat_field_two, toNat_field_four]

/-- A string without room for a header is refused, and nothing is read. -/
theorem parse_short (old : IPv4Header) {b : Buffer} (h : b.length < length) :
    old.parse ⟨b, .noError⟩ = (.packetTooShort, old, ⟨b, .noError⟩) := by
  simp only [parse]
  rw [if_pos h]

variable {header : IPv4Header} {b : Buffer}

/-- `payload_length()` in terms of the string. -/
theorem StandsIn.payloadLength_eq (h : header.StandsIn b) :
    header.payloadLength.toNat = wordSub 16 (field b 2 2) (headerSize b) := by
  have hsize : (4 * header.hlen.toUInt16).toNat = headerSize b := by
    have hlt : header.hlen.toNat < 16 := by
      rw [h.hlen_eq]
      omega
    rw [UInt16.toNat_mul, UInt8.toNat_toUInt16, headerSize, ← h.hlen_eq, Nat.mod_eq_of_lt]
    · rfl
    · change 4 * header.hlen.toNat < 2 ^ 16
      omega
  have hlt : headerSize b < 2 ^ 16 := by
    unfold headerSize
    omega
  rw [payloadLength, UInt16.toNat_sub, hsize, h.len_eq, wordSub, Nat.mod_eq_of_lt hlt,
    Nat.add_comm]

/-- The checks of the header parser, on the fields of a string. -/
theorem StandsIn.checks_iff (h : header.StandsIn b) :
    (b.length < 4 * header.hlen.toNat ↔ b.length < headerSize b) ∧
      (header.ver ≠ 4 ↔ field b 0 1 / 16 ≠ 4) ∧
      (header.hlen < 5 ↔ field b 0 1 % 16 < 5) ∧
      (b.length ≠ header.len.toNat ↔ b.length ≠ field b 2 2) := by
  refine ⟨by rw [h.hlen_eq, headerSize], ?_, ?_, by rw [h.len_eq]⟩
  · rw [ne_eq, ne_eq, ← h.ver_eq, ← UInt8.toNat_inj]
    rfl
  · rw [UInt8.lt_iff_toNat_lt, h.hlen_eq]
    rfl

/-- A string with a sound frame is read to the end of its header; the checksum decides. -/
theorem parse_framed (old : IPv4Header) (hlen : length ≤ b.length) (hframed : Framed b) :
    ∃ result header, old.parse ⟨b, .noError⟩ =
        (result, header, ⟨b.drop (headerSize b), .noError⟩) ∧
      header.StandsIn b ∧ (result = .noError ↔ Verifies 0 (b.take (headerSize b))) := by
  obtain ⟨header, hread, hstands⟩ := readFields_standsIn hlen
  obtain ⟨hver, hge, hle, htotal⟩ := hframed
  have hhlen := hstands.hlen_eq
  have hsize : 4 * header.hlen.toNat = headerSize b := by rw [headerSize, hhlen]
  have hrest : header.hlen.toNat * 4 - length ≤ (b.drop length).length := by
    rw [List.length_drop, Nat.mul_comm, hsize]
    omega
  have hdrop : (b.drop length).drop (header.hlen.toNat * 4 - length) = b.drop (headerSize b) := by
    have hskip : length + (header.hlen.toNat * 4 - length) = 4 * header.hlen.toNat := by
      unfold length
      omega
    rw [List.drop_drop, hskip, hsize]
  have hbound : (0 : UInt32).toNat + wordSum false (b.take (headerSize b)) < 2 ^ 32 := by
    apply InternetChecksum.sum_lt (by decide)
    rw [List.length_take]
    unfold headerSize
    omega
  have hvalue := InternetChecksum.value_eq_zero_iff hbound
  obtain ⟨hfit, hversion, hshort, htrunc⟩ := hstands.checks_iff
  simp only [parse, hread]
  rw [if_neg (Nat.not_lt.mpr hlen), if_neg (by rw [hfit]; omega),
    if_neg (by rw [hversion]; exact not_not.mpr hver), if_neg (by rw [hshort]; omega),
    if_neg (by rw [htrunc]; exact not_not.mpr htotal.symm), NetParser.removePrefix_of_le hrest,
    hdrop, hsize]
  simp only [ne_eq, not_true_eq_false, if_false]
  split
  · rename_i hbad
    exact ⟨_, header, rfl, hstands, by simpa using fun hgood => hbad (hvalue.mpr hgood)⟩
  · rename_i hgood
    exact ⟨_, header, rfl, hstands, by simpa using hvalue.mp (not_not.mp hgood)⟩

/-- A string without a sound frame is refused behind its fixed fields. -/
theorem parse_unframed (old : IPv4Header) (hlen : length ≤ b.length) (hframed : ¬ Framed b) :
    ∃ result header, old.parse ⟨b, .noError⟩ = (result, header, ⟨b.drop length, .noError⟩) ∧
      header.StandsIn b := by
  obtain ⟨header, hread, hstands⟩ := readFields_standsIn hlen
  obtain ⟨hfit, hversion, hshort, htrunc⟩ := hstands.checks_iff
  simp only [parse, hread]
  rw [if_neg (Nat.not_lt.mpr hlen)]
  split
  · exact ⟨_, header, rfl, hstands⟩
  · split
    · exact ⟨_, header, rfl, hstands⟩
    · split
      · exact ⟨_, header, rfl, hstands⟩
      · split
        · exact ⟨_, header, rfl, hstands⟩
        · rename_i hfits hvers hlong htotal
          exfalso
          rw [hfit] at hfits
          rw [hversion, not_not] at hvers
          rw [hshort] at hlong
          rw [htrunc, not_not] at htotal
          exact hframed ⟨hvers, by omega, by omega, htotal.symm⟩

end IPv4Header

namespace IPv4Datagram

/-- A valid string: it has room for a header, its frame is sound, and the checksum over its
header verifies. -/
def Valid (b : Buffer) : Prop :=
  IPv4Header.length ≤ b.length ∧ IPv4Header.Framed b ∧
    Verifies 0 (b.take (IPv4Header.headerSize b))

instance (b : Buffer) : Decidable (Valid b) :=
  inferInstanceAs (Decidable (_ ∧ _ ∧ _))

/-- The defects that the parser of datagrams does not notice: a string too short for a header
whose length is the payload length that the object had before; a wrong checksum; and an
unsound frame on a string whose length, less 20, is the total length less the header length,
in 16 bits. -/
def Unnoticed (old : IPv4Datagram) (b : Buffer) : Prop :=
  (b.length < IPv4Header.length ∧ b.length = old.header.payloadLength.toNat) ∨
    (IPv4Header.length ≤ b.length ∧ IPv4Header.Framed b ∧
      ¬ Verifies 0 (b.take (IPv4Header.headerSize b))) ∨
    (IPv4Header.length ≤ b.length ∧ ¬ IPv4Header.Framed b ∧
      b.length - IPv4Header.length = wordSub 16 (field b 2 2) (IPv4Header.headerSize b))

instance (old : IPv4Datagram) (b : Buffer) : Decidable (Unnoticed old b) :=
  inferInstanceAs (Decidable (_ ∨ _ ∨ _))

variable {old : IPv4Datagram} {b : Buffer}

/-- The parser of datagrams accepts what the header parser leaves if its length fits. -/
theorem parse_of_header {result : ParseResult} {header : IPv4Header} {rest : Buffer}
    (h : old.header.parse ⟨b, .noError⟩ = (result, header, ⟨rest, .noError⟩)) :
    ((old.parse b).1 = .noError ↔ rest.length = header.payloadLength.toNat) ∧
      (old.parse b).2 = ⟨header, BufferList.ofBuffer rest⟩ := by
  rw [parse, h]
  simp

/-- On a sound frame the parser accepts, whatever the checksum. -/
theorem parse_framed (old : IPv4Datagram) (hlen : IPv4Header.length ≤ b.length)
    (hframed : IPv4Header.Framed b) :
    (old.parse b).1 = .noError ∧ (old.parse b).2.header.StandsIn b ∧
      (old.parse b).2.payload.concatenate = b.drop (IPv4Header.headerSize b) := by
  obtain ⟨result, header, hparse, hstands, -⟩ := IPv4Header.parse_framed old.header hlen hframed
  obtain ⟨haccept, hdgram⟩ := parse_of_header hparse
  obtain ⟨-, -, hle, htotal⟩ := hframed
  have hlt := field_lt b 2 2
  rw [haccept, hdgram, hstands.payloadLength_eq, wordSub_eq_sub (by omega) hlt, List.length_drop,
    htotal]
  exact ⟨rfl, hstands, BufferList.concatenate_ofBuffer _⟩

/-- What the parser of datagrams accepts: valid strings, and those with a defect that goes
unnoticed. -/
theorem parse_eq_noError_iff :
    (old.parse b).1 = .noError ↔ Valid b ∨ Unnoticed old b := by
  by_cases hlen : b.length < IPv4Header.length
  · have haccept := (parse_of_header (IPv4Header.parse_short old.header hlen)).1
    have hnot : ¬ IPv4Header.length ≤ b.length := Nat.not_le.mpr hlen
    rw [haccept]
    simp [Valid, Unnoticed, hlen, hnot]
  · rw [not_lt] at hlen
    have hnot : ¬ b.length < IPv4Header.length := Nat.not_lt.mpr hlen
    by_cases hframed : IPv4Header.Framed b
    · have haccept := (parse_framed old hlen hframed).1
      simp only [haccept, Valid, Unnoticed, hlen, hnot, hframed]
      simpa using em _
    · obtain ⟨result, header, hparse, hstands⟩ :=
        IPv4Header.parse_unframed old.header hlen hframed
      have haccept := (parse_of_header hparse).1
      rw [haccept, hstands.payloadLength_eq, List.length_drop]
      simp [Valid, Unnoticed, hlen, hnot, hframed]

/-- A valid string has no defect. -/
theorem Valid.not_unnoticed (h : Valid b) : ¬ Unnoticed old b := by
  obtain ⟨hlen, hframed, hverifies⟩ := h
  rintro (⟨hshort, -⟩ | ⟨-, -, hbad⟩ | ⟨-, hunframed, -⟩)
  · exact absurd hlen (Nat.not_le.mpr hshort)
  · exact hbad hverifies
  · exact hunframed hframed

/-- On every string, whatever the object held before, the parser of datagrams accepts exactly
if the string is valid, and then with the fields and the payload of the string, if and only
if the string has no defect that goes unnoticed. -/
theorem datagram_parse_exact_iff (old : IPv4Datagram) (b : Buffer) :
    (((old.parse b).1 = .noError ↔ Valid b) ∧
      ((old.parse b).1 = .noError → (old.parse b).2.header.StandsIn b ∧
        (old.parse b).2.payload.concatenate = b.drop (IPv4Header.headerSize b))) ↔
      ¬ Unnoticed old b := by
  constructor
  · rintro ⟨hexact, -⟩ hdefect
    exact (hexact.mp (parse_eq_noError_iff.mpr (Or.inr hdefect))).not_unnoticed hdefect
  · intro hnone
    have hexact : (old.parse b).1 = .noError ↔ Valid b := by
      rw [parse_eq_noError_iff, or_iff_left hnone]
    refine ⟨hexact, fun haccept => ?_⟩
    obtain ⟨hlen, hframed, -⟩ := hexact.mp haccept
    exact (parse_framed old hlen hframed).2

/-- A header of version 4 without a checksum is accepted. -/
theorem datagram_parse_exact_fails :
    ¬ ∀ b : Buffer, b.length ≤ 65535 → ((({} : IPv4Datagram).parse b).1 = .noError ↔ Valid b) := by
  intro h
  have hbad := h [0x45, 0, 0, 20, 0, 0, 0, 0, 0, 0, 0, 0, 0, 0, 0, 0, 0, 0, 0, 0] (by decide)
  exact absurd hbad (by decide)

-- A wrong version and a header length of four words go unnoticed as well.
example : Unnoticed {} [0x65, 0, 0, 20, 0, 0, 0, 0, 0, 0, 0, 0, 0, 0, 0, 0, 0, 0, 0, 0] ∧
    Unnoticed {} [0x44, 0, 0, 16, 0, 0, 0, 0, 0, 0, 0, 0, 0, 0, 0, 0, 0, 0, 0, 0] := by
  decide

end IPv4Datagram
end Sponge
