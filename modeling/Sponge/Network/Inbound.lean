import Sponge.Network.Outbound

/-!
# What a host has of its peer's stream

The receiver of a host has seen segments of its peer in some order, each any number of
times.  Their payloads are excerpts of what the peer has sent, and they are cut only
where the peer cut its stream, so that an empty segment never falls inside a waiting
fragment: the reassembler keeps its promise.

Main results:

- Theorem {lit}`Inbound.takes`: a delivered segment is ignored or is a push of an excerpt
  at its place.
- Theorems {lit}`Evolves.inbound` and {lit}`Evolves.advances`: what the receiver has stays
  right and never becomes less.
-/

namespace Sponge

open Library

/-- What a host has of the stream that its peer has sent in the segments `sent`, starting
at `isn`. -/
structure Inbound (sent : List TCPSegment) (isn : WrappingInt32) (r : TCPReceiver)
    (popped : List Byte) : Prop where
  prefixed : StreamReassembler.Prefixed (TCPSender.payloads sent) r.capacity
    ⟨r.reassembler, popped⟩
  capacity_lt : r.capacity < 2 ^ 63
  synced : r.setIsn = true → r.isn = isn ∧ sent ≠ []
  uncut : ∀ c, 0 < c → IsBoundary TCPSegment.lengthInSequenceSpace sent c →
    ∀ e ∈ r.reassembler.auxiliaryCache.toList, ¬ e.Straddles (c - 1)
  eof_fin : r.reassembler.eof = true → ∃ seg ∈ sent, seg.header.fin = true
  ended_eof : r.streamOut.inputEnded = true → r.reassembler.eof = true

variable {sent : List TCPSegment} {isn : WrappingInt32} {r r' : TCPReceiver}
  {popped wrote : List Byte} {s : TCPSender}

theorem inbound_new (isn : WrappingInt32) {capacity : Nat} (h : capacity < 2 ^ 63) :
    Inbound [] isn (TCPReceiver.new capacity) [] where
  prefixed := StreamReassembler.prefixed_new _ capacity
  capacity_lt := h
  synced := by simp [TCPReceiver.new]
  uncut := by simp [TCPReceiver.new, StreamReassembler.new]
  eof_fin := by simp [TCPReceiver.new, StreamReassembler.new]
  ended_eof := by
    simp [TCPReceiver.new, TCPReceiver.streamOut, StreamReassembler.new,
      StreamReassembler.streamOut, ByteStream.new]

theorem Inbound.headIndex_eq (h : Inbound sent isn r popped) :
    r.reassembler.headIndex = r.streamOut.bytesWritten :=
  h.prefixed.wellFormed.head_eq

theorem Inbound.bytesWritten_le (h : Inbound sent isn r popped) :
    r.streamOut.bytesWritten ≤ (TCPSender.payloads sent).length := by
  rw [← h.headIndex_eq]
  exact h.prefixed.head_le

/-- The receiver acknowledges no more than what was sent. -/
theorem Inbound.absoluteAckno_le (h : Inbound sent isn r popped)
    (hlaw : TCPSender.Segmented wrote sent s) : r.absoluteAckno ≤ s.nextSeqno := by
  have hwritten := h.bytesWritten_le
  have hset : r.setIsn.toNat ≤ s.syned.toNat := by
    apply Bool.toNat_le_toNat
    intro hset
    exact hlaw.syned_iff.mpr (h.synced hset).2
  have hended : r.streamOut.inputEnded.toNat ≤ s.fin.toNat := by
    apply Bool.toNat_le_toNat
    intro hended
    exact hlaw.fin_iff.mpr (h.eof_fin (h.ended_eof hended))
  rw [TCPReceiver.absoluteAckno, hlaw.nextSeqno_eq, hlaw.bytesRead_eq]
  omega

/-- More segments are sent: nothing changes for the receiver. -/
theorem Inbound.append (h : Inbound sent isn r popped) (hlaw : TCPSender.Segmented wrote sent s)
    (more : List TCPSegment) : Inbound (sent ++ more) isn r popped where
  prefixed := by
    rw [TCPSender.payloads_append]
    exact h.prefixed.append _
  capacity_lt := h.capacity_lt
  synced := by
    intro hset
    obtain ⟨hisn, hne⟩ := h.synced hset
    exact ⟨hisn, List.append_ne_nil_of_left_ne_nil hne _⟩
  uncut := by
    intro c hc hboundary e he
    rcases hboundary.of_append with hold | hnew
    · exact h.uncut c hc hold e he
    · -- The waiting fragments lie in front of everything that was sent later.
      rintro ⟨hfirst, hstop⟩
      have hne : e.second ≠ [] := by
        intro hnil
        rw [Fragment.stop, hnil, List.length_nil] at hstop
        omega
      have hle := (h.prefixed.agrees e he).stop_le hne
      by_cases hsent : sent = []
      · rw [hsent, TCPSender.payloads_nil, List.length_nil] at hle
        omega
      · have := hlaw.length_lt_extent hsent
        omega
  eof_fin := by
    intro heof
    obtain ⟨seg, hseg, hfin⟩ := h.eof_fin heof
    exact ⟨seg, List.mem_append_left _ hseg, hfin⟩
  ended_eof := h.ended_eof

/-- The application reads. -/
theorem Inbound.read (h : Inbound sent isn r popped) (len : Nat) :
    Inbound sent isn (r.popOutput len) (popped ++ r.streamOut.peekOutput len) where
  prefixed := h.prefixed.read len
  capacity_lt := h.capacity_lt
  synced := h.synced
  uncut := h.uncut
  eof_fin := h.eof_fin
  ended_eof := h.ended_eof

/-- The stream is marked as failed. -/
theorem Inbound.setError (h : Inbound sent isn r popped) :
    Inbound sent isn r.setError popped where
  prefixed := h.prefixed.setError
  capacity_lt := h.capacity_lt
  synced := h.synced
  uncut := h.uncut
  eof_fin := h.eof_fin
  ended_eof := h.ended_eof

/-! ## Deliveries -/

/-- The delivery of a packet is a push of `data` at `index`, an excerpt of what was sent;
one that carries the end of the stream is the payload of the packet itself. -/
structure Takes (sent : List TCPSegment) (isn : WrappingInt32) (p : Packet)
    (r r' : TCPReceiver) (data : List Byte) (index : Nat) (eof : Bool) : Prop where
  reassembler_eq : r'.reassembler = r.reassembler.pushSubstring data index eof
  setIsn_eq : r'.setIsn = true
  isn_eq : r'.isn = isn
  capacity_eq : r'.capacity = r.capacity
  pushable : StreamReassembler.Pushable (TCPSender.payloads sent) r.reassembler data index eof
  size_lt : (TCPSender.payloads sent).length + r.capacity < 2 ^ 64
  position : Position sent p.absSeqno p.seg
  uncut : ∀ c, 0 < c → IsBoundary TCPSegment.lengthInSequenceSpace sent c →
    ¬ Fragment.Straddles (⟨index, data⟩ : E) (c - 1)
  fin : eof = true → r.setIsn = true ∧ p.seg.header.fin = true ∧ index = p.absSeqno - 1 ∧
    data = p.seg.payload

variable {p : Packet}

/-- A push of the payload in front of the position of the packet. -/
theorem takes_payload (hin : Inbound sent isn r popped)
    (hlaw : TCPSender.Segmented wrote sent s) (hpos : Position sent p.absSeqno p.seg)
    (hsize : (TCPSender.payloads sent).length < 2 ^ 62)
    (hfin : p.seg.header.fin = true → r.setIsn = true) (hset : r'.setIsn = true)
    (hisn : r'.isn = isn) (hcap : r'.capacity = r.capacity)
    (hpush : r'.reassembler =
      r.reassembler.pushSubstring p.seg.payload (p.absSeqno - 1) p.seg.header.fin) :
    Takes sent isn p r r' p.seg.payload (p.absSeqno - 1) p.seg.header.fin := by
  have hdata := hpos.data hlaw
  have hextent := hpos.le_extent
  have hle := hlaw.extent_le
  have hcapacity := hin.capacity_lt
  refine ⟨hpush, hset, hisn, hcap, ⟨hdata.excerpt, hdata.fin_stop, ?_, ?_⟩, by omega, hpos,
    fun c hc hboundary => hpos.not_straddles hlaw hc hboundary,
    fun heof => ⟨hfin heof, heof, rfl, rfl⟩⟩
  · by_cases hnil : p.seg.payload = []
    · rw [hnil, List.length_nil]
      omega
    · have := hdata.excerpt.stop_le hnil
      simp only [Fragment.stop] at this
      omega
  · intro _ e he
    by_cases hzero : p.absSeqno = 0
    · rintro ⟨hfirst, -⟩
      omega
    · exact hin.uncut p.absSeqno (by omega) hpos.isBoundary e he

/-- A repeated SYN pushes nothing. -/
theorem takes_nothing (hin : Inbound sent isn r popped) (hpos : Position sent p.absSeqno p.seg)
    (hsize : (TCPSender.payloads sent).length < 2 ^ 62) (hset : r'.setIsn = true)
    (hisn : r'.isn = isn) (hcap : r'.capacity = r.capacity)
    (hpush : r'.reassembler = r.reassembler.pushSubstring [] 0 false) :
    Takes sent isn p r r' [] 0 false := by
  have hcapacity := hin.capacity_lt
  refine ⟨hpush, hset, hisn, hcap, ⟨isExcerpt_nil _ _, by simp, by simp, ?_⟩, by omega, hpos,
    ?_, by simp⟩
  · rintro _ e he ⟨hfirst, -⟩
    omega
  · rintro c hc hboundary ⟨hfirst, hstop⟩
    simp only [Fragment.stop, List.length_nil] at hfirst hstop
    omega

/-- A delivered segment is ignored or is a push of an excerpt. -/
theorem Inbound.takes (hin : Inbound sent isn r popped)
    (hlaw : TCPSender.Segmented wrote sent s) (hcarry : Carries sent isn p.absSeqno p.seg)
    (hsize : (TCPSender.payloads sent).length < 2 ^ 62)
    (hnear : r.setIsn = true ∨ p.seg.header.syn = true →
      Near p.absSeqno r.streamOut.bytesWritten) :
    r.segmentReceived p.seg = r ∨
      ∃ data index eof, Takes sent isn p r (r.segmentReceived p.seg) data index eof := by
  have hpos := hcarry.position
  have hdata := hpos.data hlaw
  have hcap := r.capacity_segmentReceived p.seg
  have hsetIsn := r.setIsn_segmentReceived p.seg
  by_cases hset : r.setIsn = true
  · right
    obtain ⟨hlow, hhigh⟩ := hnear (Or.inl hset)
    have hisn := (hin.synced hset).1
    have hwritten := hin.bytesWritten_le
    rw [hset, Bool.true_or] at hsetIsn
    obtain ⟨hisn', hpush⟩ := TCPReceiver.segmentReceived_at hset
      (by rw [hisn]; exact hcarry.seqno_eq) (by omega) (by omega) hlow hhigh
    rw [hisn] at hisn'
    by_cases hzero : p.absSeqno = 0
    · rw [hzero, hdata.syn_not_fin hzero, StreamReassembler.pushSubstring_wrapped] at hpush
      exact ⟨_, _, _, takes_nothing hin hpos hsize hsetIsn hisn' hcap hpush⟩
    · rw [wordSub_eq_sub (by omega) (by omega)] at hpush
      exact ⟨_, _, _, takes_payload hin hlaw hpos hsize (fun _ => hset) hsetIsn hisn' hcap hpush⟩
  · rw [Bool.not_eq_true] at hset
    by_cases hsyn : p.seg.header.syn = true
    · right
      have hzero := hdata.syn_iff.mp hsyn
      obtain ⟨-, hhigh⟩ := hnear (Or.inr hsyn)
      rw [hsyn, Bool.or_true] at hsetIsn
      obtain ⟨hisn', hpush⟩ := TCPReceiver.segmentReceived_syn hset hsyn (by omega)
      rw [hcarry.seqno_eq, hzero, wrap_zero] at hisn'
      have hindex : p.absSeqno - 1 = 0 := by omega
      rw [← hindex] at hpush
      refine ⟨_, _, _, takes_payload hin hlaw hpos hsize ?_ hsetIsn hisn' hcap hpush⟩
      rw [hdata.syn_not_fin hzero]
      simp
    · rw [Bool.not_eq_true] at hsyn
      exact Or.inl (TCPReceiver.segmentReceived_ignored hset hsyn)

variable {data : List Byte} {index : Nat} {eof : Bool}

theorem Takes.pushed (h : Takes sent isn p r r' data index eof)
    (hin : Inbound sent isn r popped) :
    StreamReassembler.Pushed r.reassembler data index eof r'.reassembler := by
  rw [h.reassembler_eq]
  exact hin.prefixed.pushed h.size_lt h.pushable

/-- What a delivery adds is right. -/
theorem Takes.inbound (h : Takes sent isn p r r' data index eof)
    (hin : Inbound sent isn r popped) : Inbound sent isn r' popped := by
  have hpushed := h.pushed hin
  refine ⟨?_, ?_, ?_, ?_, ?_, ?_⟩
  · rw [h.capacity_eq, h.reassembler_eq]
    exact hin.prefixed.push h.size_lt h.pushable
  · rw [h.capacity_eq]
    exact hin.capacity_lt
  · exact fun _ => ⟨h.isn_eq, h.position.sent_ne_nil⟩
  · intro c hc hboundary
    exact hpushed.not_straddles (c - 1) (hin.uncut c hc hboundary) (h.uncut c hc hboundary)
  · intro heof
    rw [hpushed.eof_eq, Bool.or_eq_true, Bool.and_eq_true] at heof
    rcases heof with hold | ⟨hnew, -⟩
    · exact hin.eof_fin hold
    · exact h.position.exists_fin (h.fin hnew).2.1
  · intro hended
    change r'.reassembler.output.inputEnded = true at hended
    rw [hpushed.inputEnded_eq, Bool.or_eq_true, Bool.and_eq_true] at hended
    rcases hended with hold | ⟨heof, -⟩
    · rw [hpushed.eof_eq, hin.ended_eof hold, Bool.true_or]
    · exact heof

/-! ## Every event -/

/-- What an event can do to the receiver and to the bytes read from it. -/
inductive Evolves (sent : List TCPSegment) (isn : WrappingInt32) (packets : List Packet)
    (ok : Packet → Prop) (r : TCPReceiver) (popped : List Byte) :
    TCPReceiver → List Byte → Prop where
  | same : Evolves sent isn packets ok r popped r popped
  | failed : Evolves sent isn packets ok r popped r.setError popped
  | read (len : Nat) : Evolves sent isn packets ok r popped (r.popOutput len)
      (popped ++ r.streamOut.peekOutput len)
  | takes (p : Packet) (hp : p ∈ packets) (hok : ok p) (hrst : p.seg.header.rst = false)
      (r' : TCPReceiver) (data : List Byte) (index : Nat) (eof : Bool)
      (htakes : Takes sent isn p r r' data index eof) :
      Evolves sent isn packets ok r popped r' popped

variable {packets : List Packet} {ok : Packet → Prop} {h : Host} {o : Outcome}

/-- Every event is one of these, if the peer's packets carry their positions. -/
theorem Moves.evolves (hmove : Moves packets ok h o)
    (hin : Inbound sent isn h.conn.receiver h.popped)
    (hlaw : TCPSender.Segmented wrote sent s)
    (hcarry : ∀ p ∈ packets, p.seg.header.rst = false → Carries sent isn p.absSeqno p.seg)
    (hsize : (TCPSender.payloads sent).length < 2 ^ 62) (hnear : ∀ p, ok p → p.SeqnoNear h) :
    Evolves sent isn packets ok h.conn.receiver h.popped o.receiver o.popped := by
  have hsegment : ∀ p ∈ packets, ok p → p.seg.header.rst = false →
      Evolves sent isn packets ok h.conn.receiver h.popped
        (h.conn.receiver.segmentReceived p.seg) h.popped := by
    intro p hp hok hrst
    rcases hin.takes hlaw (hcarry p hp hrst) hsize (hnear p hok hrst) with
      hsame | ⟨data, index, eof, htakes⟩
    · rw [hsame]
      exact .same
    · exact .takes p hp hok hrst _ data index eof htakes
  cases hmove with
  | feed stream wrote hfeed => exact .same
  | tick ms => exact .same
  | giveUp ms => exact .failed
  | read len => exact .read len
  | stay => exact .same
  | receive p hp hok o hrec =>
      cases hrec with
      | reset hrst => exact .failed
      | close hrst => exact hsegment p hp hok hrst
      | reply hrst => exact hsegment p hp hok hrst

/-- What the receiver has of the stream stays right. -/
theorem Evolves.inbound {popped' : List Byte}
    (h : Evolves sent isn packets ok r popped r' popped') (hin : Inbound sent isn r popped) :
    Inbound sent isn r' popped' := by
  cases h with
  | same => exact hin
  | failed => exact hin.setError
  | read len => exact hin.read len
  | takes p hp hok hrst r' data index eof htakes => exact htakes.inbound hin

/-- A receiver does not forget the SYN, and its ackno does not decrease. -/
structure Advances (r r' : TCPReceiver) : Prop where
  setIsn_eq : r.setIsn = true → r'.setIsn = true ∧ r'.isn = r.isn
  absoluteAckno_le : r.absoluteAckno ≤ r'.absoluteAckno

theorem Takes.advances (h : Takes sent isn p r r' data index eof)
    (hin : Inbound sent isn r popped) : Advances r r' := by
  have hpushed := h.pushed hin
  have hmono := hpushed.head_mono
  have hhead := hin.headIndex_eq
  have hhead' := (h.inbound hin).headIndex_eq
  have hset : r.setIsn.toNat ≤ r'.setIsn.toNat := Bool.toNat_le_toNat fun _ => h.setIsn_eq
  have hended : r.streamOut.inputEnded.toNat ≤ r'.streamOut.inputEnded.toNat := by
    apply Bool.toNat_le_toNat
    intro hended
    change r'.reassembler.output.inputEnded = true
    rw [hpushed.inputEnded_eq, Bool.or_eq_true]
    exact Or.inl hended
  refine ⟨fun hset => ⟨h.setIsn_eq, ?_⟩, ?_⟩
  · rw [h.isn_eq, (hin.synced hset).1]
  · unfold TCPReceiver.absoluteAckno
    omega

/-- What the receiver has of the stream never becomes less. -/
theorem Evolves.advances {popped' : List Byte}
    (h : Evolves sent isn packets ok r popped r' popped') (hin : Inbound sent isn r popped) :
    Advances r r' := by
  cases h with
  | same => exact ⟨fun hset => ⟨hset, rfl⟩, le_rfl⟩
  | failed => exact ⟨fun hset => ⟨hset, rfl⟩, le_rfl⟩
  | read len => exact ⟨fun hset => ⟨hset, rfl⟩, le_rfl⟩
  | takes p hp hok hrst r' data index eof htakes => exact htakes.advances hin

end Sponge
