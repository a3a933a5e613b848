import Sponge.Network.Moves

/-!
# What a host puts on the network

The sender of a host creates segments that spell out what its application has written.
Everything it enqueues is one of them, perhaps sent again, or an empty segment at the
end of what it has sent so far.  Whatever happens at the host keeps this, provided that
no acknowledgement arrives before something was sent.

Main results:

- Theorem {lit}`Moves.sends`: every event keeps the segmentation law and the cache, and
  says what the queue holds and which acknowledgement was accepted.
- Theorem {lit}`Outcome.absSeqno_packet`: the position recorded in a packet is the true
  one.
-/

namespace Sponge

open Library

/-! ## Positions of segments -/

/-- A segment at position `n`: a tile of what was sent, or an empty segment between two
tiles. -/
inductive Position (sent : List TCPSegment) (n : Nat) (seg : TCPSegment) : Prop where
  | tile (t : TCPSegment) (hplace : (n, t) ∈ place TCPSegment.lengthInSequenceSpace 0 sent)
      (hpayload : seg.payload = t.payload) (hsyn : seg.header.syn = t.header.syn)
      (hfin : seg.header.fin = t.header.fin)
  | empty (hlen : seg.lengthInSequenceSpace = 0) (hpos : 0 < n)
      (hboundary : IsBoundary TCPSegment.lengthInSequenceSpace sent n)

/-- A segment that carries its position, relative to `isn`. -/
structure Carries (sent : List TCPSegment) (isn : WrappingInt32) (n : Nat) (seg : TCPSegment) :
    Prop where
  rst_eq : seg.header.rst = false
  seqno_eq : seg.header.seqno = wrap n isn
  position : Position sent n seg

variable {sent more : List TCPSegment} {isn : WrappingInt32} {n : Nat} {seg : TCPSegment}
  {wrote : List Byte} {s : TCPSender} {ack : Nat}

/-- A segment without positions carries nothing. -/
theorem payload_eq_nil_of_length (h : seg.lengthInSequenceSpace = 0) :
    seg.payload = [] ∧ seg.header.syn = false ∧ seg.header.fin = false := by
  unfold TCPSegment.lengthInSequenceSpace at h
  refine ⟨List.length_eq_zero_iff.mp (by omega), ?_, ?_⟩
  · by_contra hsyn
    simp [hsyn] at h
  · by_contra hfin
    simp [hfin] at h

/-- A position stays when more is sent. -/
theorem Position.append (h : Position sent n seg) (more : List TCPSegment) :
    Position (sent ++ more) n seg := by
  cases h with
  | tile t hplace hpayload hsyn hfin =>
      refine .tile t ?_ hpayload hsyn hfin
      rw [place_append]
      exact List.mem_append_left _ hplace
  | empty hlen hpos hboundary => exact .empty hlen hpos (hboundary.append more)

/-- A segment begins at a boundary. -/
theorem Position.isBoundary (h : Position sent n seg) :
    IsBoundary TCPSegment.lengthInSequenceSpace sent n := by
  cases h with
  | tile t hplace hpayload hsyn hfin => exact isBoundary_of_mem_place hplace
  | empty hlen hpos hboundary => exact hboundary

/-- A segment begins within what was sent. -/
theorem Position.le_extent (h : Position sent n seg) :
    n ≤ extent TCPSegment.lengthInSequenceSpace sent := by
  obtain ⟨before, after, hsent, hn⟩ := h.isBoundary
  rw [hsent, extent_append]
  omega

/-- A segment with a position was sent. -/
theorem Position.sent_ne_nil (h : Position sent n seg) : sent ≠ [] := by
  rintro rfl
  cases h with
  | tile t hplace hpayload hsyn hfin => cases hplace
  | empty hlen hpos hboundary =>
      obtain ⟨before, after, hnil, hn⟩ := hboundary
      rw [(List.append_eq_nil_iff.mp hnil.symm).1, extent_nil] at hn
      omega

/-- A FIN is that of a tile. -/
theorem Position.exists_fin (h : Position sent n seg) (hseg : seg.header.fin = true) :
    ∃ t ∈ sent, t.header.fin = true := by
  cases h with
  | tile t hplace hpayload hsyn hfin =>
      obtain ⟨before, after, hsent, -⟩ := mem_place.mp hplace
      exact ⟨t, by rw [hsent]; simp, hfin ▸ hseg⟩
  | empty hlen hpos hboundary =>
      rw [(payload_eq_nil_of_length hlen).2.2] at hseg
      cases hseg

/-- What a segment carries, given its position. -/
theorem Position.data (h : Position sent n seg) (hlaw : TCPSender.Segmented wrote sent s) :
    TCPSender.TileData (TCPSender.payloads sent) n seg := by
  cases h with
  | tile t hplace hpayload hsyn hfin =>
      have htile := hlaw.tile hplace
      refine ⟨?_, ?_, ?_, ?_⟩
      · rw [hsyn]
        exact htile.syn_iff
      · rw [hpayload]
        exact htile.excerpt
      · rw [hpayload, hfin]
        exact htile.fin_stop
      · rw [hfin]
        exact htile.syn_not_fin
  | empty hlen hpos hboundary =>
      obtain ⟨hnil, hsyn, hfin⟩ := payload_eq_nil_of_length hlen
      refine ⟨?_, ?_, ?_, fun _ => hfin⟩
      · simp [hsyn]
        omega
      · rw [hnil]
        exact isExcerpt_nil _ _
      · simp [hfin]

/-- The bytes of a segment are not cut by a boundary of what was sent. -/
theorem Position.not_straddles (h : Position sent n seg)
    (hlaw : TCPSender.Segmented wrote sent s) {c : Nat} (hc : 0 < c)
    (hboundary : IsBoundary TCPSegment.lengthInSequenceSpace sent c) :
    ¬ Fragment.Straddles (⟨n - 1, seg.payload⟩ : E) (c - 1) := by
  rintro ⟨hfirst, hstop⟩
  have hdata := h.data hlaw
  simp only [Fragment.stop] at hfirst hstop
  cases h with
  | tile t hplace hpayload hsyn hfin =>
      have happart := hboundary.apart hplace
      have hzero := hdata.syn_iff
      simp only [TCPSegment.lengthInSequenceSpace, ← hpayload, ← hsyn, ← hfin] at happart
      by_cases hn : n = 0
      · rw [hzero.mpr hn, if_pos rfl] at happart
        omega
      · omega
  | empty hlen hpos hb =>
      rw [(payload_eq_nil_of_length hlen).1, List.length_nil] at hstop
      omega

/-- What a packet carries stays when more is sent. -/
theorem Carries.append (h : Carries sent isn n seg) (more : List TCPSegment) :
    Carries (sent ++ more) isn n seg :=
  ⟨h.rst_eq, h.seqno_eq, h.position.append more⟩

/-- The ackno and the window that the connection fills in do not matter. -/
theorem Carries.stamp (h : Carries sent isn n seg) (r : TCPReceiver) :
    Carries sent isn n (TCPConnection.stamp r seg) := by
  refine ⟨h.rst_eq, h.seqno_eq, ?_⟩
  cases h.position with
  | tile t hplace hpayload hsyn hfin => exact .tile t hplace hpayload hsyn hfin
  | empty hlen hpos hboundary => exact .empty hlen hpos hboundary

/-- A tile carries its own position. -/
theorem carries_of_mem_place (hlaw : TCPSender.Segmented wrote sent s) {p : Nat × TCPSegment}
    (hp : p ∈ place TCPSegment.lengthInSequenceSpace 0 sent) :
    Carries sent s.isn p.1 p.2 := by
  obtain ⟨before, after, hsent, -⟩ := mem_place.mp hp
  exact ⟨hlaw.rst_eq p.2 (by rw [hsent]; simp), hlaw.seqno_eq p hp, .tile p.2 hp rfl rfl rfl⟩

/-! ## The sender's queue -/

/-- What the queue of a sender holds: segments whose position can be told from
`_next_seqno`, empty ones at `_next_seqno` itself, and RSTs. -/
def Queued (sent : List TCPSegment) (s : TCPSender) : Prop :=
  ∀ seg ∈ s.segmentsOut, seg.header.rst = true ∨ ∃ n, Carries sent s.isn n seg ∧
    n ≤ s.nextSeqno ∧ s.nextSeqno < n + 2 ^ 32 ∧
    (seg.lengthInSequenceSpace = 0 → n = s.nextSeqno)

/-- The sender has sent `sent`, accepted the ackno `ack`, and its queue is in order. -/
structure Sending (wrote : List Byte) (sent : List TCPSegment) (ack : Nat) (s : TCPSender) :
    Prop where
  segmented : TCPSender.Segmented wrote sent s
  cached : TCPSender.Cached sent ack s
  queued : Queued sent s

/-- A fresh sender has sent nothing. -/
theorem sending_new (capacity : Nat) (retxTimeout : UInt16) (fixedIsn : Option WrappingInt32)
    (random : UInt32) : Sending [] [] 0 (TCPSender.new capacity retxTimeout fixedIsn random) where
  segmented := TCPSender.segmented_new capacity retxTimeout fixedIsn random
  cached := TCPSender.cached_new capacity retxTimeout fixedIsn random
  queued := by simp [Queued, TCPSender.new]

/-- The queue is emptied, or a RST is put into it. -/
theorem Sending.requeue (h : Sending wrote sent ack s) (stream : ByteStream)
    (queue : List TCPSegment) (hqueue : ∀ seg ∈ queue, seg.header.rst = true)
    (hlaw : TCPSender.Segmented wrote sent { s with stream := stream }) :
    Sending wrote sent ack { s with stream := stream, segmentsOut := queue } where
  segmented := hlaw.quiet ⟨rfl, rfl, rfl, rfl, rfl⟩ hlaw.fresh
  cached := h.cached.withStream stream queue
  queued := fun seg hseg => Or.inl (hqueue seg hseg)

/-- Marking the stream as failed changes nothing that was sent. -/
theorem Sending.segmented_setError (h : Sending wrote sent ack s) :
    TCPSender.Segmented wrote sent { s with stream := s.stream.setError } :=
  h.segmented.mark s.stream.setError rfl rfl id

/-- New segments go into an empty queue. -/
theorem Sending.fillWindow (h : Sending wrote sent ack s) (hempty : s.segmentsOut = [])
    (hflight : s.fillWindow.bytesInFlight < 2 ^ 31)
    (hbound : s.fillWindow.stream.bytesWritten < 2 ^ 62) :
    Sending wrote (sent ++ s.newSegments) ack s.fillWindow := by
  have hlaw := h.segmented.fillWindow
  have hemit := s.fillWindow_emitted
  have hnext : s.fillWindow.nextSeqno < 2 ^ 64 := by
    have := hlaw.nextSeqno_le
    omega
  have hcached := h.cached.fillWindow hflight hnext
  refine ⟨hlaw, hcached, ?_⟩
  intro seg hseg
  rw [hemit.segmentsOut_eq, hempty, List.nil_append] at hseg
  rw [← @map_snd_place _ TCPSegment.lengthInSequenceSpace
    (0 + extent TCPSegment.lengthInSequenceSpace sent) s.newSegments, List.mem_map] at hseg
  obtain ⟨p, hp, rfl⟩ := hseg
  have hplace : p ∈ place TCPSegment.lengthInSequenceSpace 0 (sent ++ s.newSegments) := by
    rw [place_append]
    exact List.mem_append_right _ hp
  have hlow := (bounds_of_mem_place hp).1
  have hhigh := (bounds_of_mem_place hplace).2
  have hack := h.cached.ack_le
  have hlt := hcached.inFlight_lt
  have hlen : 0 < p.2.lengthInSequenceSpace := by
    obtain ⟨before, after, hsent, -⟩ := mem_place.mp hplace
    exact hlaw.length_pos p.2 (by rw [hsent]; simp)
  rw [h.segmented.extent_eq] at hlow
  rw [hlaw.extent_eq] at hhigh
  exact Or.inr ⟨p.1, carries_of_mem_place hlaw hplace, by omega, by omega, by omega⟩

/-- A call that sends nothing keeps the queue. -/
theorem Queued.quiet {s' : TCPSender} (h : Queued sent s) (hquiet : TCPSender.Quiet s s')
    (hqueue : s'.segmentsOut = s.segmentsOut) : Queued sent s' := by
  intro seg hseg
  rw [hqueue] at hseg
  rw [hquiet.isn_eq, hquiet.nextSeqno_eq]
  exact h seg hseg

/-- A segment may carry an acknowledgement, which is accepted or not. -/
theorem Sending.acked (h : Sending wrote sent ack s) (seg : TCPSegment)
    (hne : seg.header.ack = true → sent ≠ []) :
    ∃ ack', Sending wrote sent ack' (TCPConnection.acked s seg) ∧
      TCPSender.Quiet s (TCPConnection.acked s seg) ∧
      (ack' = ack ∨ seg.header.ack = true ∧
        ack' = unwrap seg.header.ackno s.isn s.nextSeqno) := by
  unfold TCPConnection.acked
  split
  · rename_i hack
    have hquiet := s.quiet_ackReceived seg.header.ackno seg.header.win
    refine ⟨s.ackAfter seg.header.ackno ack, ⟨?_, h.cached.ackReceived _ _, ?_⟩, hquiet, ?_⟩
    · exact h.segmented.quiet hquiet fun hnil => absurd hnil (hne hack)
    · exact h.queued.quiet hquiet (s.segmentsOut_ackReceived _ _)
    · unfold TCPSender.ackAfter
      split
      · exact Or.inr ⟨hack, rfl⟩
      · exact Or.inl rfl
  · exact ⟨ack, h, ⟨rfl, rfl, rfl, rfl, rfl⟩, Or.inl rfl⟩

/-- The clock sends again what is not acknowledged, and so is near `_next_seqno`. -/
theorem Sending.tick (h : Sending wrote sent ack s) (hempty : s.segmentsOut = []) (ms : UInt64) :
    Sending wrote sent ack (s.tick ms) ∧ TCPSender.Quiet s (s.tick ms) := by
  obtain ⟨hcached, segs, hticked, holdest⟩ := h.cached.tick ms
  have hlaw : TCPSender.Segmented wrote sent (s.tick ms) := by
    refine h.segmented.quiet hticked.toQuiet ?_
    rw [hticked.windowSize_eq, hticked.windowUsedSize_eq]
    exact h.segmented.fresh
  refine ⟨⟨hlaw, hcached, ?_⟩, hticked.toQuiet⟩
  intro seg hseg
  rw [hticked.segmentsOut_eq, hempty, List.nil_append] at hseg
  obtain ⟨n, hn, hle⟩ := holdest seg hseg
  obtain ⟨hplace, hend⟩ := mem_unfinished.mp hn
  have hmem : seg ∈ sent := by
    obtain ⟨before, after, hsent, -⟩ := mem_place.mp hplace
    rw [hsent]
    simp
  have hlen := TCPSegment.lengthInSequenceSpace_le seg
  have hpayload := hlaw.payload_le seg hmem
  have hpos := hlaw.length_pos seg hmem
  have hack := hcached.ack_le
  have hlt := hcached.inFlight_lt
  unfold TCPConfig.maxPayloadSize at hpayload
  simp only at hend
  exact Or.inr ⟨n, carries_of_mem_place hlaw hplace, by omega, by omega, by omega⟩

/-- An empty segment stands at the end of what was sent. -/
theorem Sending.sendEmptySegment (h : Sending wrote sent ack s) (hne : sent ≠ []) :
    Sending wrote sent ack s.sendEmptySegment := by
  refine ⟨h.segmented.quiet ⟨rfl, rfl, rfl, rfl, rfl⟩ h.segmented.fresh,
    h.cached.withStream s.stream _, ?_⟩
  intro seg hseg
  rcases List.mem_append.mp hseg with hold | hnew
  · exact h.queued seg hold
  · rw [List.mem_singleton] at hnew
    have hpos := h.segmented.length_lt_extent hne
    have hboundary := isBoundary_extent TCPSegment.lengthInSequenceSpace sent
    rw [h.segmented.extent_eq] at hpos hboundary
    refine Or.inr ⟨s.nextSeqno, ⟨?_, ?_, .empty ?_ (by omega) hboundary⟩, le_rfl, ?_, fun _ => rfl⟩
    · rw [hnew]
    · rw [hnew]
      rfl
    · rw [hnew]
      rfl
    · change s.nextSeqno < s.nextSeqno + 2 ^ 32
      omega

/-- The application's calls write to the stream or end it. -/
theorem Sending.feed {h : Host} {stream : ByteStream} (hs : Sending h.wrote sent ack h.conn.sender)
    (hfeed : Feeds h stream wrote) :
    Sending wrote sent ack { h.conn.sender with stream := stream } := by
  have hlaw : TCPSender.Segmented wrote sent { h.conn.sender with stream := stream } := by
    cases hfeed with
    | write data => exact hs.segmented.write data
    | endInput => exact hs.segmented.mark h.conn.sender.stream.endInput rfl rfl fun _ => rfl
    | connect => exact hs.segmented
  exact ⟨hlaw, hs.cached.withStream stream h.conn.sender.segmentsOut, hs.queued⟩

/-- The sender's answer is new data, an empty segment, or nothing. -/
theorem Sending.reply (h : Sending wrote sent ack s) (hempty : s.segmentsOut = [])
    (r : TCPReceiver) (seg : TCPSegment)
    (hflight : (TCPConnection.reply r s seg).bytesInFlight < 2 ^ 31)
    (hbound : (TCPConnection.reply r s seg).stream.bytesWritten < 2 ^ 62) :
    ∃ more, Sending wrote (sent ++ more) ack (TCPConnection.reply r s seg) ∧
      (TCPConnection.reply r s seg).isn = s.isn := by
  have hisn := s.fillWindow_emitted.isn_eq
  simp only [TCPConnection.reply] at hflight hbound ⊢
  by_cases hknown : r.ackno.isSome = true
  · rw [if_pos hknown] at hflight hbound ⊢
    by_cases hanswer : s.fillWindow.segmentsOut = [] ∧
        (seg.lengthInSequenceSpace ≠ 0 ∨ TCPConnection.isKeepAlive r seg = true)
    · rw [if_pos hanswer] at hflight hbound ⊢
      have hfilled := h.fillWindow hempty hflight hbound
      exact ⟨s.newSegments, hfilled.sendEmptySegment h.segmented.sent_ne_nil, hisn⟩
    · rw [if_neg hanswer] at hflight hbound ⊢
      exact ⟨s.newSegments, h.fillWindow hempty hflight hbound, hisn⟩
  · rw [if_neg hknown]
    exact ⟨[], by rw [List.append_nil]; exact h, rfl⟩

/-! ## Every event -/

/-- What an event did to the sender: it created `more`, and its accepted ackno is now
`ack'`, which came from a packet delivered if it is a new one. -/
structure Sends (inbound : List Packet) (ok : Packet → Prop) (h : Host)
    (sent : List TCPSegment) (ack : Nat) (o : Outcome) (more : List TCPSegment) (ack' : Nat) :
    Prop where
  sending : Sending o.wrote (sent ++ more) ack' o.sender
  isn_eq : o.sender.isn = h.conn.sender.isn
  accepted : ack' = ack ∨ ∃ p ∈ inbound, ok p ∧ p.seg.header.rst = false ∧
    p.seg.header.ack = true ∧
    ack' = unwrap p.seg.header.ackno h.conn.sender.isn h.conn.sender.nextSeqno

variable {inbound : List Packet} {ok : Packet → Prop} {h : Host} {o : Outcome}

/-- Events that create nothing and accept nothing. -/
theorem Sends.idle (hsending : Sending o.wrote sent ack o.sender)
    (hisn : o.sender.isn = h.conn.sender.isn) : Sends inbound ok h sent ack o [] ack where
  sending := by rw [List.append_nil]; exact hsending
  isn_eq := hisn
  accepted := Or.inl rfl

/-- A delivery keeps the law, if acknowledgements come only after something was sent. -/
theorem Receives.sends {p : Packet} (hrec : Receives p h o) (hp : p ∈ inbound) (hok : ok p)
    (hs : Sending h.wrote sent ack h.conn.sender) (hempty : h.conn.sender.segmentsOut = [])
    (hne : p.seg.header.rst = false → p.seg.header.ack = true → sent ≠ [])
    (hflight : o.sender.bytesInFlight < 2 ^ 31) (hbound : o.sender.stream.bytesWritten < 2 ^ 62) :
    ∃ more ack', Sends inbound ok h sent ack o more ack' := by
  cases hrec with
  | reset hrst =>
      have hreset := hs.requeue _ h.conn.sender.segmentsOut (by simp [hempty])
        hs.segmented_setError
      exact ⟨[], ack, Sends.idle hreset rfl⟩
  | close hrst =>
      obtain ⟨ack', hacked, hquiet, haccept⟩ := hs.acked p.seg (hne hrst)
      refine ⟨[], ack', ?_, hquiet.isn_eq, ?_⟩
      · rw [List.append_nil]
        exact hacked
      · exact haccept.imp_right fun ⟨hack, heq⟩ => ⟨p, hp, hok, hrst, hack, heq⟩
  | reply hrst =>
      obtain ⟨ack', hacked, hquiet, haccept⟩ := hs.acked p.seg (hne hrst)
      have hqueue : (TCPConnection.acked h.conn.sender p.seg).segmentsOut = [] := by
        rw [TCPConnection.segmentsOut_acked, hempty]
      obtain ⟨more, hreply, hisn⟩ := hacked.reply hqueue _ p.seg hflight hbound
      refine ⟨more, ack', hreply, hisn.trans hquiet.isn_eq, ?_⟩
      exact haccept.imp_right fun ⟨hack, heq⟩ => ⟨p, hp, hok, hrst, hack, heq⟩

/-- Every event keeps the law, if acknowledgements come only after something was sent. -/
theorem Moves.sends (hmove : Moves inbound ok h o)
    (hs : Sending h.wrote sent ack h.conn.sender) (hempty : h.conn.sender.segmentsOut = [])
    (hne : ∀ p ∈ inbound, p.seg.header.rst = false → p.seg.header.ack = true → sent ≠ [])
    (hflight : o.sender.bytesInFlight < 2 ^ 31) (hbound : o.sender.stream.bytesWritten < 2 ^ 62) :
    ∃ more ack', Sends inbound ok h sent ack o more ack' := by
  cases hmove with
  | feed stream wrote hfeed =>
      have hfed := hs.feed hfeed
      exact ⟨_, ack, hfed.fillWindow hempty hflight hbound,
        (TCPSender.fillWindow_emitted _).isn_eq, Or.inl rfl⟩
  | tick ms =>
      obtain ⟨htick, hquiet⟩ := hs.tick hempty ms
      exact ⟨[], ack, Sends.idle htick hquiet.isn_eq⟩
  | giveUp ms =>
      obtain ⟨htick, hquiet⟩ := hs.tick hempty ms
      have habort := htick.requeue _ [TCPConnection.rstSegment (h.conn.sender.tick ms)]
        (by simp [TCPConnection.rstSegment]) htick.segmented_setError
      exact ⟨[], ack, Sends.idle habort hquiet.isn_eq⟩
  | read len => exact ⟨[], ack, Sends.idle hs rfl⟩
  | stay => exact ⟨[], ack, Sends.idle hs rfl⟩
  | receive p hp hok o hrec => exact hrec.sends hp hok hs hempty (hne p hp) hflight hbound

/-! ## Packets -/

/-- The position recorded in a packet is that of its segment. -/
theorem Outcome.absSeqno_packet (hseqno : seg.header.seqno = wrap n o.sender.isn)
    (hle : n ≤ o.sender.nextSeqno) (hnear : o.sender.nextSeqno < n + 2 ^ 32) :
    (o.packet seg).absSeqno = n := by
  have hdistance : ((wrap o.sender.nextSeqno o.sender.isn).rawValue -
      seg.header.seqno.rawValue).toNat = o.sender.nextSeqno - n := by
    rw [hseqno, UInt32.toNat_sub, toNat_wrap, toNat_wrap]
    omega
  simp only [Outcome.packet, hdistance]
  omega

end Sponge
