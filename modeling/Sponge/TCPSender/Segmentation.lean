import Sponge.Library.Fragment
import Sponge.TCPSender.Cache
import Sponge.TCPSender.Idle

/-!
# The segmentation law

The segments that `fill_window` creates spell out the outgoing stream: a SYN first,
then the bytes in order, then a FIN once the stream has ended, in tiles without gap or
overlap.  The law needs the sender to start with its SYN, which it does unless a window
of zero is accepted before anything was sent.

Main results:

- Theorem {lit}`Segmented.fillWindow`: `fill_window` keeps the law.
- Theorem {lit}`Segmented.quiet`: acknowledgements and the clock keep it.
- Theorem {lit}`Segmented.tile`: which bytes the tile at a given position carries.
-/

namespace Sponge

open Library

namespace TCPSender

/-- The bytes that a list of segments carries. -/
def payloads (segs : List TCPSegment) : List Byte :=
  segs.flatMap TCPSegment.payload

@[simp]
theorem payloads_nil : payloads [] = [] :=
  rfl

/-- The payload of the first segment and those of the others. -/
@[simp]
theorem payloads_cons (seg : TCPSegment) (segs : List TCPSegment) :
    payloads (seg :: segs) = seg.payload ++ payloads segs :=
  rfl

/-- The payloads of both lists. -/
@[simp]
theorem payloads_append (xs ys : List TCPSegment) :
    payloads (xs ++ ys) = payloads xs ++ payloads ys :=
  List.flatMap_append

/-- The segments `sent` so far spell out the part of `wrote` that was read from the
stream. -/
structure Segmented (wrote : List Byte) (sent : List TCPSegment) (s : TCPSender) : Prop
    extends Tiled sent s where
  wrote_eq : wrote = payloads sent ++ s.stream.contents
  bytesRead_eq : s.stream.bytesRead = (payloads sent).length
  nextSeqno_eq : s.nextSeqno = s.syned.toNat + s.stream.bytesRead + s.fin.toNat
  payload_le : ∀ seg ∈ sent, seg.payload.length ≤ TCPConfig.maxPayloadSize
  rst_eq : ∀ seg ∈ sent, seg.header.rst = false
  syned_iff : s.syned = true ↔ sent ≠ []
  fresh : sent = [] → s.windowSize = 1 ∧ s.windowUsedSize = 0
  syn_iff : ∀ before seg after, sent = before ++ seg :: after →
    (seg.header.syn = true ↔ before = [])
  syn_not_fin : ∀ seg ∈ sent, seg.header.syn = true → seg.header.fin = false
  fin_last : ∀ before seg after, sent = before ++ seg :: after →
    seg.header.fin = true → after = []
  fin_iff : s.fin = true ↔ ∃ seg ∈ sent, seg.header.fin = true
  fin_ended : s.fin = true → s.stream.inputEnded = true ∧ s.stream.contents = []

/-- A fresh sender has sent nothing. -/
theorem segmented_new (capacity : Nat) (retxTimeout : UInt16)
    (fixedIsn : Option WrappingInt32) (random : UInt32) :
    Segmented [] [] (new capacity retxTimeout fixedIsn random) where
  toTiled := tiled_new capacity retxTimeout fixedIsn random
  wrote_eq := by simp [new]
  bytesRead_eq := rfl
  nextSeqno_eq := rfl
  payload_le := by simp
  rst_eq := by simp
  syned_iff := by simp [new]
  fresh := fun _ => ⟨rfl, rfl⟩
  syn_iff := by simp
  syn_not_fin := by simp
  fin_last := by simp
  fin_iff := by simp [new]
  fin_ended := by simp [new]

variable {wrote : List Byte} {sent segs : List TCPSegment} {s s' : TCPSender}

/-! ## Emissions -/

/-- Splitting a list that grew by one element. -/
theorem append_singleton_eq_append_cons {α : Type} {xs before after : List α} {x y : α}
    (h : xs ++ [y] = before ++ x :: after) :
    (after = [] ∧ x = y ∧ before = xs) ∨
      ∃ rest, after = rest ++ [y] ∧ xs = before ++ x :: rest := by
  rcases List.eq_nil_or_concat after with rfl | ⟨rest, z, rfl⟩
  · left
    obtain ⟨hxs, hy⟩ := List.append_inj' h rfl
    exact ⟨rfl, (List.singleton_inj.mp hy).symm, hxs.symm⟩
  · right
    rw [List.concat_eq_append, ← List.cons_append, ← List.append_assoc] at h
    obtain ⟨hxs, hy⟩ := List.append_inj' h rfl
    exact ⟨rest, by rw [List.concat_eq_append, List.singleton_inj.mp hy], hxs⟩

/-- The SYN goes out first and only then. -/
theorem Segmented.syn_iff_of_sendable {seg : TCPSegment} (h : Segmented wrote sent s)
    (hsend : Sendable s seg) : seg.header.syn = true ↔ sent = [] := by
  rw [hsend.syn_iff]
  constructor
  · rintro ⟨hsyned, -⟩
    by_contra hne
    rw [h.syned_iff.mpr hne] at hsyned
    cases hsyned
  · intro hnil
    have hwindow := (h.fresh hnil).1
    refine ⟨?_, by omega⟩
    rw [← Bool.not_eq_true, h.syned_iff]
    exact fun hne => hne hnil

/-- Nothing is sent after the FIN. -/
theorem Segmented.fin_eq_false_of_sendable {seg : TCPSegment} (h : Segmented wrote sent s)
    (hsend : Sendable s seg) : s.fin = false := by
  by_contra hfin
  rw [Bool.not_eq_false] at hfin
  have hpos := hsend.length_pos
  have hpayload := hsend.payload_eq
  rw [(h.fin_ended hfin).2, List.take_nil] at hpayload
  have hsyn : seg.header.syn = false := by
    rw [← Bool.not_eq_true, h.syn_iff_of_sendable hsend]
    rintro rfl
    obtain ⟨seg, hseg, -⟩ := h.fin_iff.mp hfin
    cases hseg
  have hnotfin : seg.header.fin = false := by
    by_contra hseg
    rw [Bool.not_eq_false] at hseg
    have hfree := (hsend.fin_imp hseg).1
    rw [hfin] at hfree
    cases hfree
  simp [TCPSegment.lengthInSequenceSpace, hpayload, hsyn, hnotfin] at hpos

/-- A SYN sent into the initial window has no room for a FIN. -/
theorem Segmented.syn_not_fin_of_sendable {seg : TCPSegment} (h : Segmented wrote sent s)
    (hsend : Sendable s seg) (hsyn : seg.header.syn = true) : seg.header.fin = false := by
  obtain ⟨hwindow, hused⟩ := h.fresh ((h.syn_iff_of_sendable hsend).mp hsyn)
  rcases hsend.fits with hclosed | ⟨-, hfits | hone⟩
  · omega
  · by_contra hfin
    rw [Bool.not_eq_false] at hfin
    rw [TCPSegment.lengthInSequenceSpace, hsyn, hfin] at hfits
    simp at hfits
    omega
  · exact hone.2.1

/-- An emission takes its payload from the front of the stream. -/
theorem Sendable.contents_eq {seg : TCPSegment} (hsend : Sendable s seg) :
    s.stream.contents = seg.payload ++ (s.emit seg).stream.contents ∧
      (s.emit seg).stream.bytesRead = s.stream.bytesRead + seg.payload.length := by
  have hlen : seg.payload.length ≤ s.stream.bufferSize := by
    rw [← ByteStream.length_contents, hsend.payload_eq, List.length_take]
    exact Nat.min_le_right _ _
  constructor
  · change _ = _ ++ (s.stream.popOutput seg.payload.length).contents
    rw [ByteStream.contents_popOutput]
    conv_rhs => rw [hsend.payload_eq]
    rw [List.length_take, ByteStream.length_contents, Nat.min_eq_left hlen,
      List.take_append_drop]
  · change s.stream.bytesRead + min s.stream.bufferSize seg.payload.length = _
    rw [Nat.min_eq_right hlen]

/-- After an emission the SYN is sent, and the FIN if the segment carries it. -/
theorem Segmented.flags_emit {seg : TCPSegment} (h : Segmented wrote sent s)
    (hsend : Sendable s seg) :
    (s.emit seg).syned = true ∧ (s.emit seg).fin = seg.header.fin := by
  constructor
  · change (s.syned || seg.header.syn) = true
    rw [Bool.or_eq_true, h.syned_iff, h.syn_iff_of_sendable hsend]
    tauto
  · change (s.fin || seg.header.fin) = seg.header.fin
    rw [h.fin_eq_false_of_sendable hsend, Bool.false_or]

/-- The SYN is counted once, before the first emission or with it. -/
theorem Segmented.syned_add_syn {seg : TCPSegment} (h : Segmented wrote sent s)
    (hsend : Sendable s seg) :
    s.syned.toNat + (if seg.header.syn then 1 else 0) = 1 := by
  have hsyn := h.syn_iff_of_sendable hsend
  by_cases hnil : sent = []
  · have hsyned : s.syned = false := by
      rw [← Bool.not_eq_true, h.syned_iff]
      exact fun hne => hne hnil
    rw [hsyned, hsyn.mpr hnil]
    rfl
  · rw [h.syned_iff.mpr hnil, if_neg fun hseg => hnil (hsyn.mp hseg)]
    rfl

/-- Before an emission no segment with the FIN has been sent. -/
theorem Segmented.not_fin_of_sendable {seg : TCPSegment} (h : Segmented wrote sent s)
    (hsend : Sendable s seg) : ∀ x ∈ sent, x.header.fin = false := by
  intro x hx
  by_contra hxfin
  rw [Bool.not_eq_false] at hxfin
  have hnofin := h.fin_eq_false_of_sendable hsend
  rw [h.fin_iff.mpr ⟨x, hx, hxfin⟩] at hnofin
  cases hnofin

/-- An emission keeps the law. -/
theorem Segmented.emit {seg : TCPSegment} (h : Segmented wrote sent s)
    (hsend : Sendable s seg) : Segmented wrote (sent ++ [seg]) (s.emit seg) := by
  obtain ⟨hsplit, hread⟩ := hsend.contents_eq
  obtain ⟨hsyned, hfin⟩ := h.flags_emit hsend
  have hno := h.not_fin_of_sendable hsend
  have hlast : payloads (sent ++ [seg]) = payloads sent ++ seg.payload := by
    rw [payloads_append, payloads_cons, payloads_nil, List.append_nil]
  refine ⟨h.toTiled.emit hsend, ?_, ?_, ?_, ?_, ?_, ?_, ?_, ?_, ?_, ?_, ?_, ?_⟩
  · rw [h.wrote_eq, hsplit, hlast, List.append_assoc]
  · rw [hread, h.bytesRead_eq, hlast, List.length_append]
  · rw [hread, hsyned, hfin]
    change s.nextSeqno + seg.lengthInSequenceSpace = _
    have hnext := h.nextSeqno_eq
    have hone := h.syned_add_syn hsend
    rw [h.fin_eq_false_of_sendable hsend] at hnext
    rw [TCPSegment.lengthInSequenceSpace]
    cases hf : seg.header.fin <;> simp at hnext ⊢ <;> omega
  · exact List.forall_mem_append.mpr ⟨h.payload_le, by simpa using hsend.payload_le⟩
  · refine List.forall_mem_append.mpr ⟨h.rst_eq, ?_⟩
    rw [List.forall_mem_singleton, hsend.header_eq]
  · exact iff_of_true hsyned (by simp)
  · intro hnil
    simp at hnil
  · intro before x after hxs
    rcases append_singleton_eq_append_cons hxs with ⟨-, rfl, rfl⟩ | ⟨rest, -, hold⟩
    · exact h.syn_iff_of_sendable hsend
    · exact h.syn_iff before x rest hold
  · refine List.forall_mem_append.mpr ⟨h.syn_not_fin, ?_⟩
    simpa using h.syn_not_fin_of_sendable hsend
  · intro before x after hxs hxfin
    rcases append_singleton_eq_append_cons hxs with ⟨hafter, -, -⟩ | ⟨rest, -, hold⟩
    · exact hafter
    · rw [hno x (by rw [hold]; simp)] at hxfin
      cases hxfin
  · rw [hfin]
    constructor
    · intro hf
      exact ⟨seg, by simp, hf⟩
    · rintro ⟨x, hx, hxfin⟩
      rcases List.mem_append.mp hx with hold | hnew
      · rw [hno x hold] at hxfin
        cases hxfin
      · rw [← List.mem_singleton.mp hnew]
        exact hxfin
  · rw [hfin]
    intro hf
    obtain ⟨-, hended, hall⟩ := hsend.fin_imp hf
    refine ⟨hended, ?_⟩
    rw [hall] at hsplit
    exact List.append_right_eq_self.mp hsplit.symm

/-- `fill_window` keeps the law. -/
theorem Segmented.fillWindow (h : Segmented wrote sent s) :
    Segmented wrote (sent ++ s.newSegments) s.fillWindow := by
  rw [fillWindow_eq_run]
  exact s.admissible_newSegments.history (fun _ _ _ hdone hsend => hdone.emit hsend) h

/-- Once `fill_window` has been called, at least the SYN has been sent. -/
theorem Segmented.sent_ne_nil (h : Segmented wrote sent s) : sent ++ s.newSegments ≠ [] := by
  by_cases hnil : sent = []
  · obtain ⟨hwindow, hused⟩ := h.fresh hnil
    have hsyned : s.syned = false := by
      rw [← Bool.not_eq_true, h.syned_iff]
      exact fun hne => hne hnil
    have hunused := s.windowUnusedSize_eq
    have hne := newSegments_ne_nil hsyned (by omega)
    simp [hne]
  · simp [hnil]

/-! ## The other operations -/

/-- The law depends on what has been sent and on the stream: a step that creates no
segment keeps it if what it does to the stream agrees. -/
theorem Segmented.transfer {wrote' : List Byte} (h : Segmented wrote sent s)
    (htiled : Tiled sent s') (hnext : s'.nextSeqno = s.nextSeqno) (hsyned : s'.syned = s.syned)
    (hfin : s'.fin = s.fin) (hread : s'.stream.bytesRead = s.stream.bytesRead)
    (hwrote : wrote' = payloads sent ++ s'.stream.contents)
    (hended : s.fin = true → s'.stream.inputEnded = true ∧ s'.stream.contents = [])
    (hfresh : sent = [] → s'.windowSize = 1 ∧ s'.windowUsedSize = 0) :
    Segmented wrote' sent s' where
  toTiled := htiled
  wrote_eq := hwrote
  bytesRead_eq := by rw [hread, h.bytesRead_eq]
  nextSeqno_eq := by rw [hnext, hsyned, hread, hfin, h.nextSeqno_eq]
  payload_le := h.payload_le
  rst_eq := h.rst_eq
  syned_iff := by rw [hsyned]; exact h.syned_iff
  fresh := hfresh
  syn_iff := h.syn_iff
  syn_not_fin := h.syn_not_fin
  fin_last := h.fin_last
  fin_iff := by rw [hfin]; exact h.fin_iff
  fin_ended := by rw [hfin]; exact hended

/-- Steps that leave the stream alone keep the law, provided that they do not touch the
window before the SYN. -/
theorem Segmented.quiet (h : Segmented wrote sent s) (hquiet : Quiet s s')
    (hfresh : sent = [] → s'.windowSize = 1 ∧ s'.windowUsedSize = 0) :
    Segmented wrote sent s' := by
  refine h.transfer (h.toTiled.quiet hquiet) hquiet.nextSeqno_eq hquiet.syned_eq hquiet.fin_eq
    ?_ ?_ ?_ hfresh
  all_goals rw [hquiet.stream_eq]
  · exact h.wrote_eq
  · exact h.fin_ended

/-- The stream is another one. -/
theorem Segmented.withStream {wrote' : List Byte} (h : Segmented wrote sent s)
    (stream : ByteStream) (hread : stream.bytesRead = s.stream.bytesRead)
    (hwrote : wrote' = payloads sent ++ stream.contents)
    (hended : s.fin = true → stream.inputEnded = true ∧ stream.contents = []) :
    Segmented wrote' sent { s with stream := stream } :=
  h.transfer ⟨h.extent_eq, h.seqno_eq, h.length_pos⟩ rfl rfl rfl hread hwrote hended h.fresh

/-- The application may write, unless it has ended the stream, and what it writes is
appended. -/
theorem Segmented.write (h : Segmented wrote sent s) (data : List Byte) :
    Segmented (wrote ++ data.take (s.stream.writeLength data)) sent
      { s with stream := (s.stream.write data).1 } := by
  refine h.withStream (s.stream.write data).1 rfl ?_ ?_
  · rw [ByteStream.contents_write, ← List.append_assoc, ← h.wrote_eq]
  · intro hfin
    obtain ⟨hended, hnil⟩ := h.fin_ended hfin
    refine ⟨hended, ?_⟩
    rw [ByteStream.contents_write, hnil, ByteStream.writeLength, hended]
    rfl

/-- Ending the stream, or marking it as failed, keeps the law. -/
theorem Segmented.mark (h : Segmented wrote sent s) (stream : ByteStream)
    (hcontents : stream.contents = s.stream.contents)
    (hread : stream.bytesRead = s.stream.bytesRead)
    (hended : s.stream.inputEnded = true → stream.inputEnded = true) :
    Segmented wrote sent { s with stream := stream } := by
  refine h.withStream stream hread ?_ ?_
  · rw [hcontents]
    exact h.wrote_eq
  · intro hfin
    obtain ⟨hold, hnil⟩ := h.fin_ended hfin
    exact ⟨hended hold, by rw [hcontents, hnil]⟩

/-! ## What a tile carries -/

/-- Segments without flags take the room of their payloads. -/
theorem extent_eq_length_payloads {segs : List TCPSegment}
    (h : ∀ seg ∈ segs, seg.header.syn = false ∧ seg.header.fin = false) :
    extent TCPSegment.lengthInSequenceSpace segs = (payloads segs).length := by
  induction segs with
  | nil => rfl
  | cons seg segs ih =>
      obtain ⟨hsyn, hfin⟩ := h seg List.mem_cons_self
      rw [extent_cons, payloads_cons, List.length_append,
        ih fun x hx => h x (List.mem_cons_of_mem _ hx), TCPSegment.lengthInSequenceSpace, hsyn,
        hfin]
      simp

/-- The first byte of a tile: the SYN takes one position, and nothing else does before
the FIN. -/
theorem Segmented.extent_before (h : Segmented wrote sent s) {before after : List TCPSegment}
    {seg : TCPSegment} (hsent : sent = before ++ seg :: after) :
    extent TCPSegment.lengthInSequenceSpace before =
      (if before = [] then 0 else 1) + (payloads before).length := by
  cases before with
  | nil => rfl
  | cons first rest =>
      have hfirst : first.header.syn = true :=
        (h.syn_iff [] first (rest ++ seg :: after) hsent).mpr rfl
      have hplain : ∀ x ∈ rest, x.header.syn = false ∧ x.header.fin = false := by
        intro x hx
        obtain ⟨front, back, rfl⟩ := List.append_of_mem hx
        have hsplit : sent = (first :: front) ++ x :: (back ++ seg :: after) := by
          rw [hsent]
          simp
        constructor
        · rw [← Bool.not_eq_true, h.syn_iff _ _ _ hsplit]
          simp
        · by_contra hfin
          rw [Bool.not_eq_false] at hfin
          have := h.fin_last _ _ _ hsplit hfin
          simp at this
      have hnofin : first.header.fin = false :=
        h.syn_not_fin first (by rw [hsent]; simp) hfirst
      rw [extent_cons, extent_eq_length_payloads hplain, payloads_cons, List.length_append,
        TCPSegment.lengthInSequenceSpace, hfirst, hnofin]
      simp
      omega

/-- The tile at position `n` carries the bytes of `data` from index `n - 1` on, where the
SYN is at position 0 and the FIN ends where the data ends. -/
structure TileData (data : List Byte) (n : Nat) (seg : TCPSegment) : Prop where
  syn_iff : seg.header.syn = true ↔ n = 0
  excerpt : IsExcerpt data ⟨n - 1, seg.payload⟩
  fin_stop : seg.header.fin = true → n - 1 + seg.payload.length = data.length
  syn_not_fin : n = 0 → seg.header.fin = false

/-- Each segment carries its part of the stream. -/
theorem Segmented.tile (h : Segmented wrote sent s) {p : Nat × TCPSegment}
    (hp : p ∈ place TCPSegment.lengthInSequenceSpace 0 sent) :
    TileData (payloads sent) p.1 p.2 := by
  obtain ⟨before, after, hsent, hplace⟩ := mem_place.mp hp
  have hmem : p.2 ∈ sent := by rw [hsent]; simp
  have hextent := h.extent_before hsent
  rw [Nat.zero_add] at hplace
  have hindex : p.1 - 1 = (payloads before).length := by
    rw [hplace, hextent]
    split
    · rename_i hnil
      simp [hnil]
    · omega
  have hdata : payloads sent = payloads before ++ (p.2.payload ++ payloads after) := by
    rw [hsent, payloads_append, payloads_cons]
  have hsyn : p.2.header.syn = true ↔ p.1 = 0 := by
    rw [h.syn_iff before p.2 after hsent, hplace, hextent]
    constructor
    · rintro rfl
      rfl
    · intro hzero
      by_contra hne
      rw [if_neg hne] at hzero
      omega
  refine ⟨hsyn, ?_, ?_, ?_⟩
  · have hslice := isExcerpt_ofSlice (payloads sent) (p.1 - 1) p.2.payload.length
    rw [Fragment.ofSlice, hindex, hdata, List.drop_left, List.take_left] at hslice
    rw [hindex, hdata]
    exact hslice
  · intro hfin
    have hlast := h.fin_last before p.2 after hsent hfin
    rw [hindex, hdata, hlast]
    simp
  · intro hzero
    exact h.syn_not_fin p.2 hmem (hsyn.mpr hzero)

/-- The tiles take one position more than the bytes they carry, and another one for the
FIN. -/
theorem Segmented.extent_le (h : Segmented wrote sent s) :
    extent TCPSegment.lengthInSequenceSpace sent ≤ (payloads sent).length + 2 := by
  rw [h.extent_eq, h.nextSeqno_eq, h.bytesRead_eq]
  have hsyned := s.syned.toNat_le
  have hfin := s.fin.toNat_le
  omega

/-- The SYN takes a position before the bytes. -/
theorem Segmented.length_lt_extent (h : Segmented wrote sent s) (hne : sent ≠ []) :
    (payloads sent).length < extent TCPSegment.lengthInSequenceSpace sent := by
  rw [h.extent_eq, h.nextSeqno_eq, h.bytesRead_eq, h.syned_iff.mpr hne]
  simp
  omega

/-- What has been sent is a part of what the application has written. -/
theorem Segmented.length_payloads_le (h : Segmented wrote sent s) :
    (payloads sent).length ≤ s.stream.bytesWritten := by
  rw [← h.bytesRead_eq, ByteStream.bytesWritten_eq]
  omega

/-- Only the SYN and the FIN take positions besides the bytes. -/
theorem Segmented.nextSeqno_le (h : Segmented wrote sent s) :
    s.nextSeqno ≤ s.stream.bytesWritten + 2 := by
  have hextent := h.extent_le
  have hlength := h.length_payloads_le
  rw [h.extent_eq] at hextent
  omega

/-- All bytes that were written count. -/
theorem Segmented.length_wrote (h : Segmented wrote sent s) :
    wrote.length = s.stream.bytesWritten := by
  rw [h.wrote_eq, List.length_append, ByteStream.length_contents, ByteStream.bytesWritten_eq,
    h.bytesRead_eq]

/-- Once the FIN is sent, everything written has been sent. -/
theorem Segmented.payloads_eq_wrote (h : Segmented wrote sent s)
    (hfin : ∃ seg ∈ sent, seg.header.fin = true) : payloads sent = wrote := by
  rw [h.wrote_eq, (h.fin_ended (h.fin_iff.mpr hfin)).2, List.append_nil]

/-- The FIN is sent at the end of the stream. -/
theorem Segmented.eof_of_fin (h : Segmented wrote sent s) (hfin : s.fin = true) :
    s.stream.eof = true := by
  obtain ⟨hended, hnil⟩ := h.fin_ended hfin
  rw [ByteStream.eof, hended, s.stream.bufferEmpty_iff.mpr hnil]
  rfl

/-- Nothing is sent behind the FIN. -/
theorem Segmented.eq_nil_of_fin {more : List TCPSegment} (h : Segmented wrote (sent ++ more) s)
    (hfin : ∃ seg ∈ sent, seg.header.fin = true) : more = [] := by
  obtain ⟨seg, hseg, hsegfin⟩ := hfin
  obtain ⟨before, after, hsent⟩ := List.append_of_mem hseg
  have hlast := h.fin_last before seg (after ++ more) (by rw [hsent]; simp) hsegfin
  exact (List.append_eq_nil_iff.mp hlast).2

end TCPSender
end Sponge
