import Sponge.TCPSegment.Acceptance

/-!
# Corrupted segments

A segment that was serialised verifies, and a string that verifies stops doing so when one
of its 16-bit words is changed, unless the change is between the two words that stand for
zero in one's complement.  So such a corruption is found by the checksum, wherever it is and
whatever the rest of the segment.

Main results:

- Theorem {lit}`verifies_serialize`: a serialised segment verifies.
- Theorem {lit}`corrupted_word_detected`: a change of one word, and the flip of any bit, is
  detected.
-/

namespace Sponge

open Library

namespace TCPSegment

variable {seg : TCPSegment}

/-- The string of a serialised segment has the length of the segment and verifies. -/
theorem verifies_serialize (hge : 5 ≤ seg.header.doff.toNat)
    (hsize : 4 * seg.header.doff.toNat + seg.payload.length ≤ 65535) {initial : UInt32}
    (hinitial : initial.toNat < 2 ^ 19) {list : BufferList}
    (hlist : seg.serialize initial = .ok list) :
    list.concatenate.length ≤ 65535 ∧ Verifies initial.toNat list.concatenate := by
  have hlength : list.concatenate.length ≤ 65535 := by
    rw [concatenate_serialize hge hlist, length_bytes]
    exact hsize
  refine ⟨hlength, ?_⟩
  have hlt : initial.toNat < 2 ^ 20 := by omega
  rw [← InternetChecksum.value_eq_zero_iff (InternetChecksum.sum_lt hlt hlength),
    concatenate_serialize hge hlist]
  exact value_bytes_cksumOut hge hsize hinitial

/-- Flipping a bit changes a byte. -/
theorem xor_two_pow_ne (x : UInt8) {k : Nat} (hk : k < 8) : x ^^^ UInt8.ofNat (2 ^ k) ≠ x := by
  intro h
  have hzero : UInt8.ofNat (2 ^ k) = 0 := by
    rw [← UInt8.xor_right_inj x, h, UInt8.xor_zero]
  interval_cases k <;> exact absurd hzero (by decide)

/-- A segment with a data offset of at least five words and at most 65535 bytes is
serialised.  Every string of the same length that differs from it inside one 16-bit word
only, other than by an exchange of `0x0000` and `0xffff`, is refused for its checksum; and so
is the string with any single bit flipped. -/
theorem corrupted_word_detected (seg old : TCPSegment) (initial : UInt32)
    (hinitial : LayerChecksum initial) (hge : 5 ≤ seg.header.doff.toNat)
    (hsize : 4 * seg.header.doff.toNat + seg.payload.length ≤ 65535) :
    ∃ list, seg.serialize initial = .ok list ∧
      (∀ (b : Buffer) (i : Nat), b.length = list.concatenate.length →
        (∀ j, j / 2 ≠ i → b[j]? = list.concatenate[j]?) → b ≠ list.concatenate →
        ¬ (wordAt list.concatenate i = 0x0000 ∧ wordAt b i = 0xffff) →
        ¬ (wordAt list.concatenate i = 0xffff ∧ wordAt b i = 0x0000) →
        (old.parse b initial).1 = .badChecksum) ∧
      ∀ j k, j < list.concatenate.length → k < 8 →
        (old.parse (list.concatenate.set j
          (list.concatenate.getD j 0 ^^^ UInt8.ofNat (2 ^ k))) initial).1 = .badChecksum := by
  have hlist := serialize_of_le hge initial
  obtain ⟨hlength, hverifies⟩ := verifies_serialize hge hsize hinitial.lt hlist
  refine ⟨_, hlist, ?_, ?_⟩
  · intro b i hlen hsame hne hzero hones
    have hbad := not_verifies_of_exchange hverifies hlen.symm (fun j hj => (hsame j hj).symm)
      hne.symm hzero hones
    rw [parse_badChecksum hinitial.lt (by omega) hbad]
  · intro j k hj hk
    have hbad := not_verifies_set hverifies hj (xor_two_pow_ne _ hk).symm
    rw [parse_badChecksum hinitial.lt (by rw [List.length_set]; exact hlength) hbad]

/-- A segment with an odd payload, with its last byte changed. -/
theorem corrupted_word_detected_odd :
    let seg : TCPSegment := ⟨{ sport := 1, ack := true }, [1, 2, 3]⟩
    ∃ list, seg.serialize 0 = .ok list ∧
      (({} : TCPSegment).parse (list.concatenate.set 22 7) 0).1 = .badChecksum := by
  intro seg
  obtain ⟨list, hlist, hword, -⟩ := corrupted_word_detected seg {} 0 (Or.inl rfl) (by decide)
    (by decide)
  have hok : seg.serialize 0 = .ok ⟨[[0, 1, 0, 0, 0, 0, 0, 0, 0, 0, 0, 0, 0x50, 0x10, 0, 0, 0xab,
      0xec, 0, 0], [1, 2, 3]]⟩ := by decide
  rw [hok, Except.ok.injEq] at hlist
  subst hlist
  refine ⟨_, hok, hword _ 11 (by decide) ?_ (by decide) (by decide) (by decide)⟩
  intro j hj
  rw [List.getElem?_set_ne (by omega)]

end TCPSegment
end Sponge
