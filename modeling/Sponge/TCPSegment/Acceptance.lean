import Sponge.IPv4Datagram
import Sponge.TCPSegment.Wire

/-!
# Which segments are accepted

The format of a segment is stated over the bytes: where its fields stand, and which strings
are valid.  `TCPSegment::parse` checks the checksum itself and drops what
`TCPHeader::parse` returns in favour of the parser's own error.  A string that is too short
for its header leaves such an error behind; a data offset below five does not, so a segment
with one is accepted, and its payload taken from behind the 20 fixed bytes.

Main results:

- Theorem {lit}`TCPHeader.readFields_standsIn`: the fields read are those of the string.
- Theorem {lit}`TCPSegment.parse_eq_noError_iff`: what the parser of segments accepts.
- Theorem {lit}`TCPSegment.segment_parse_exact_iff`: on which strings it does what it should.
-/

namespace Sponge

open Library

namespace TCPHeader

/-! ## The format -/

/-- The fields of a header are those in the first 20 bytes of a string. -/
structure StandsIn (header : TCPHeader) (b : Buffer) : Prop where
  sport_eq : header.sport.toNat = field b 0 2
  dport_eq : header.dport.toNat = field b 2 2
  seqno_eq : header.seqno.rawValue.toNat = field b 4 4
  ackno_eq : header.ackno.rawValue.toNat = field b 8 4
  doff_eq : header.doff.toNat = field b 12 1 / 16
  urg_eq : header.urg = (field b 13 1).testBit 5
  ack_eq : header.ack = (field b 13 1).testBit 4
  psh_eq : header.psh = (field b 13 1).testBit 3
  rst_eq : header.rst = (field b 13 1).testBit 2
  syn_eq : header.syn = (field b 13 1).testBit 1
  fin_eq : header.fin = (field b 13 1).testBit 0
  win_eq : header.win.toNat = field b 14 2
  cksum_eq : header.cksum.toNat = field b 16 2
  uptr_eq : header.uptr.toNat = field b 18 2

/-- The data offset of a string, in words of four bytes. -/
def dataOffset (b : Buffer) : Nat :=
  field b 12 1 / 16

/-! ## What the header parser reads -/

/-- The fields read from a string that is long enough are those that stand in it. -/
theorem readFields_standsIn {b : Buffer} (h : length ≤ b.length) :
    ∃ header : TCPHeader, readFields ⟨b, .noError⟩ = (header, ⟨b.drop length, .noError⟩) ∧
      header.StandsIn b := by
  have hflag : ∀ (mask : UInt8) (i : Nat), mask.toNat = 2 ^ i →
      decide (UInt8.ofNat (field b 13 1) &&& mask ≠ 0) = (field b 13 1).testBit i := by
    intro mask i hmask
    rw [decide_and_flag_eight hmask, toNat_field_one]
  have hstart : (⟨b, .noError⟩ : NetParser) = ⟨b.drop 0, .noError⟩ := by rw [List.drop_zero]
  unfold length at h
  rw [hstart]
  simp (disch := omega) only [readFields, NetParser.u8_drop, NetParser.u16_drop,
    NetParser.u32_drop, Nat.reduceAdd]
  refine ⟨_, rfl, ?_⟩
  constructor
  case doff_eq =>
    rw [UInt8.toNat_shiftRight, toNat_field_one, Nat.shiftRight_eq_div_pow]
    rfl
  case urg_eq => exact hflag 0x20 5 (by decide)
  case ack_eq => exact hflag 0x10 4 (by decide)
  case psh_eq => exact hflag 0x08 3 (by decide)
  case rst_eq => exact hflag 0x04 2 (by decide)
  case syn_eq => exact hflag 0x02 1 (by decide)
  case fin_eq => exact hflag 0x01 0 (by decide)
  all_goals simp only [toNat_field_two, toNat_field_four]

/-- Reading the fields takes 20 bytes. -/
theorem consumes_readFields (p : NetParser) : NetParser.Consumes p (readFields p).2 length := by
  have hports := (NetParser.consumes_u16 p).trans (NetParser.consumes_u16 _)
  have hnumbers := (hports.trans (NetParser.consumes_u32 _)).trans (NetParser.consumes_u32 _)
  have hflags := (hnumbers.trans (NetParser.consumes_u8 _)).trans (NetParser.consumes_u8 _)
  have hrest := ((hflags.trans (NetParser.consumes_u16 _)).trans
    (NetParser.consumes_u16 _)).trans (NetParser.consumes_u16 _)
  simp only [readFields]
  exact hrest

/-- The parser that a header leaves: behind the fixed fields if the data offset is below
five, and otherwise behind the whole header. -/
theorem parse_rest (p : NetParser) :
    (parse p).2 = ((readFields p).1,
      if (readFields p).1.doff < 5 then (readFields p).2
      else (readFields p).2.removePrefix ((readFields p).1.doff.toNat * 4 - length)) := by
  simp only [parse]
  split
  · rfl
  · split <;> rfl

/-- A header without room leaves an error in the parser. -/
theorem length_le_of_parse {b : Buffer} (h : (parse ⟨b, .noError⟩).2.2.error = .noError) :
    length ≤ b.length := by
  have hread := consumes_readFields ⟨b, .noError⟩
  rw [parse_rest] at h
  generalize readFields ⟨b, .noError⟩ = read at h hread
  split at h
  · exact (hread h).2.1
  · exact (hread (NetParser.consumes_removePrefix _ _ h).1).2.1

end TCPHeader

namespace TCPSegment

/-- A valid string: its checksum verifies, it has room for a header, and its data offset is
at least five words and not beyond its end. -/
def Valid (b : Buffer) (initial : Nat) : Prop :=
  Verifies initial b ∧ TCPHeader.length ≤ b.length ∧ 5 ≤ TCPHeader.dataOffset b ∧
    4 * TCPHeader.dataOffset b ≤ b.length

instance (b : Buffer) (initial : Nat) : Decidable (Valid b initial) :=
  inferInstanceAs (Decidable (_ ∧ _ ∧ _ ∧ _))

/-- The defect that goes unnoticed: a data offset below five. -/
def Unnoticed (b : Buffer) (initial : Nat) : Prop :=
  Verifies initial b ∧ TCPHeader.length ≤ b.length ∧ TCPHeader.dataOffset b < 5

instance (b : Buffer) (initial : Nat) : Decidable (Unnoticed b initial) :=
  inferInstanceAs (Decidable (_ ∧ _ ∧ _))

variable {old : TCPSegment} {b : Buffer} {initial : UInt32}

/-- A segment whose checksum does not verify is refused. -/
theorem parse_badChecksum (hinitial : initial.toNat < 2 ^ 19) (hb : b.length ≤ 65535)
    (h : ¬ Verifies initial.toNat b) : old.parse b initial = (.badChecksum, old) := by
  have hlt : initial.toNat < 2 ^ 20 := by omega
  have hvalue := InternetChecksum.value_eq_zero_iff (InternetChecksum.sum_lt hlt hb)
  rw [parse, if_pos (by rw [ne_eq, hvalue]; exact h)]

/-- Behind the checksum, the parser of segments reports the error of its parser. -/
theorem parse_verified (hinitial : initial.toNat < 2 ^ 19) (hb : b.length ≤ 65535)
    (h : Verifies initial.toNat b) :
    old.parse b initial = ((TCPHeader.parse ⟨b, .noError⟩).2.2.error,
      ⟨(TCPHeader.parse ⟨b, .noError⟩).2.1, (TCPHeader.parse ⟨b, .noError⟩).2.2.buffer⟩) := by
  have hlt : initial.toNat < 2 ^ 20 := by omega
  have hvalue := InternetChecksum.value_eq_zero_iff (InternetChecksum.sum_lt hlt hb)
  rw [parse, if_neg (by rw [ne_eq, hvalue]; exact not_not.mpr h)]

/-- The parser that a header with room leaves. -/
theorem error_parse_header (hlen : TCPHeader.length ≤ b.length) :
    (TCPHeader.parse ⟨b, .noError⟩).2.1.StandsIn b ∧
      ((TCPHeader.parse ⟨b, .noError⟩).2.2.error = .noError ↔
        TCPHeader.dataOffset b < 5 ∨ 4 * TCPHeader.dataOffset b ≤ b.length) ∧
      (5 ≤ TCPHeader.dataOffset b → 4 * TCPHeader.dataOffset b ≤ b.length →
        (TCPHeader.parse ⟨b, .noError⟩).2.2.buffer = b.drop (4 * TCPHeader.dataOffset b)) := by
  obtain ⟨header, hread, hstands⟩ := TCPHeader.readFields_standsIn hlen
  have hdoff : header.doff.toNat = TCPHeader.dataOffset b := hstands.doff_eq
  have hshort : header.doff < 5 ↔ TCPHeader.dataOffset b < 5 := by
    rw [UInt8.lt_iff_toNat_lt, hdoff]
    rfl
  rw [TCPHeader.parse_rest, hread]
  simp only [hdoff, hshort]
  refine ⟨hstands, ?_, ?_⟩
  · split
    · rename_i hlow
      simp [hlow]
    · rename_i hhigh
      rw [or_iff_right hhigh]
      constructor
      · intro herror
        have hle := (NetParser.consumes_removePrefix _ _ herror).2.1
        rw [List.length_drop] at hle
        omega
      · intro hle
        rw [NetParser.removePrefix_of_le (by rw [List.length_drop]; omega)]
  · intro hge hle
    have hskip : TCPHeader.length + (TCPHeader.dataOffset b * 4 - TCPHeader.length) =
        4 * TCPHeader.dataOffset b := by
      unfold TCPHeader.length
      omega
    rw [if_neg (Nat.not_lt.mpr hge),
      NetParser.removePrefix_of_le (by rw [List.length_drop]; omega), List.drop_drop, hskip]

/-- What the parser of segments accepts: valid strings, and those with a data offset that
is too small. -/
theorem parse_eq_noError_iff (old : TCPSegment) (hinitial : initial.toNat < 2 ^ 19)
    (hb : b.length ≤ 65535) :
    (old.parse b initial).1 = .noError ↔ Valid b initial.toNat ∨ Unnoticed b initial.toNat := by
  by_cases hverifies : Verifies initial.toNat b
  · rw [parse_verified hinitial hb hverifies]
    by_cases hlen : TCPHeader.length ≤ b.length
    · rw [(error_parse_header hlen).2.1]
      simp only [Valid, Unnoticed, hverifies, hlen, true_and]
      omega
    · simp only [Valid, Unnoticed, hlen, false_and, and_false, or_false, iff_false]
      exact fun herror => hlen (TCPHeader.length_le_of_parse herror)
  · rw [parse_badChecksum hinitial hb hverifies]
    simp [Valid, Unnoticed, hverifies]

/-- A valid string is read with its fields and its payload. -/
theorem parse_valid (hinitial : initial.toNat < 2 ^ 19) (hb : b.length ≤ 65535)
    (h : Valid b initial.toNat) :
    (old.parse b initial).2.header.StandsIn b ∧
      (old.parse b initial).2.payload = b.drop (4 * TCPHeader.dataOffset b) := by
  obtain ⟨hverifies, hlen, hge, hle⟩ := h
  obtain ⟨hstands, -, hpayload⟩ := error_parse_header hlen
  rw [parse_verified hinitial hb hverifies]
  generalize TCPHeader.parse ⟨b, .noError⟩ = out at hstands hpayload ⊢
  exact ⟨hstands, hpayload hge hle⟩

/-- A sum that the layer below supplies: over a pseudo-header, or none. -/
def LayerChecksum (initial : UInt32) : Prop :=
  initial = 0 ∨ ∃ header : IPv4Header, initial = header.pseudoCksum

theorem LayerChecksum.lt (h : LayerChecksum initial) : initial.toNat < 2 ^ 19 := by
  rcases h with rfl | ⟨header, rfl⟩
  · decide
  · exact header.pseudoCksum_lt

/-- On every string of at most 65535 bytes and with every sum over a pseudo-header, the parser
of segments accepts exactly if the string is valid, and then with the fields and the payload
of the string, if and only if the string does not verify with a data offset below five. -/
theorem segment_parse_exact_iff (old : TCPSegment) (b : Buffer) (initial : UInt32)
    (hb : b.length ≤ 65535) (hinitial : LayerChecksum initial) :
    (((old.parse b initial).1 = .noError ↔ Valid b initial.toNat) ∧
      ((old.parse b initial).1 = .noError → (old.parse b initial).2.header.StandsIn b ∧
        (old.parse b initial).2.payload = b.drop (4 * TCPHeader.dataOffset b))) ↔
      ¬ Unnoticed b initial.toNat := by
  have haccepts := parse_eq_noError_iff old hinitial.lt hb
  constructor
  · rintro ⟨hexact, -⟩ hdefect
    obtain ⟨-, -, hge, -⟩ := hexact.mp (haccepts.mpr (Or.inr hdefect))
    exact absurd hge (Nat.not_le.mpr hdefect.2.2)
  · intro hnone
    have hexact : (old.parse b initial).1 = .noError ↔ Valid b initial.toNat := by
      rw [haccepts, or_iff_left hnone]
    exact ⟨hexact, fun haccept => parse_valid hinitial.lt hb (hexact.mp haccept)⟩

/-- A segment with a data offset of six words and one byte of payload. -/
theorem segment_parse_exact_options :
    let b : Buffer := [0, 1, 0, 2, 0, 0, 0, 3, 0, 0, 0, 0, 0x60, 0x02, 0, 9, 0x9e, 0xee, 0, 0, 0, 0,
      0, 0, 1]
    ¬ Unnoticed b 0 ∧ Valid b 0 ∧ (({} : TCPSegment).parse b 0).1 = .noError := by
  intro b
  have hnone : ¬ Unnoticed b 0 := by decide
  have hvalid : Valid b 0 := by decide
  have hexact := (segment_parse_exact_iff {} b 0 (by decide) (Or.inl rfl)).mpr hnone
  exact ⟨hnone, hvalid, hexact.1.mpr hvalid⟩

/-- A segment with a data offset of zero whose checksum is right is accepted. -/
theorem segment_parse_exact_fails :
    ¬ ∀ b : Buffer, b.length ≤ 65535 →
      ((({} : TCPSegment).parse b 0).1 = .noError ↔ Valid b 0) := by
  intro h
  have hbad := h [0, 1, 0, 2, 0, 0, 0, 3, 0, 0, 0, 0, 0, 0, 0, 0, 0xff, 0xf9, 0, 0] (by decide)
  exact absurd hbad (by decide)

end TCPSegment
end Sponge
