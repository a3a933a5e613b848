import Sponge.Network.Closing

/-!
# The handshake

What two hosts know of each other while they open their connections, however far apart the
positions on the network are later.  A host that has not seen its peer's SYN has nothing to
say but its own, and a host whose SYN is not acknowledged has sent nothing else; so the first
ackno that arrives is the one behind the SYN, and a FIN never arrives without one.

Main results:

- Theorem {lit}`Moves.advances`: no event takes back what a receiver has.
- Theorem {lit}`Handshake.accepted`: the first acknowledgement is accepted.
- Theorem {lit}`Handshake.moved`: every event keeps the handshake in order, if no segment
  without SYN arrives before the SYN.
-/

namespace Sponge

open Library

variable {sent sent' more : List TCPSegment} {wrote : List Byte} {s : TCPSender} {r : TCPReceiver}
  {inbound : List Packet} {ok : Packet → Prop} {h h' k : Host} {o : Outcome} {p : Packet}
  {e : Event} {seg : TCPSegment} {active linger : Bool}

/-! ## Receivers -/

/-- A segment takes nothing back from a receiver. -/
theorem TCPReceiver.advances_segmentReceived (r : TCPReceiver) (seg : TCPSegment) :
    Advances r (r.segmentReceived seg) := by
  have hset := r.setIsn_segmentReceived seg
  have hstream : r.streamOut.bytesWritten ≤ (r.segmentReceived seg).streamOut.bytesWritten ∧
      (r.streamOut.inputEnded = true → (r.segmentReceived seg).streamOut.inputEnded = true) :=
    segmentReceived_keeps (P := fun stream => r.streamOut.bytesWritten ≤ stream.bytesWritten ∧
        (r.streamOut.inputEnded = true → stream.inputEnded = true))
      (fun _ _ hle => ⟨hle.1.trans (Nat.le_add_right _ _), hle.2⟩)
      (fun _ hle => ⟨hle.1, fun _ => rfl⟩) seg ⟨le_rfl, id⟩
  refine ⟨fun hsyn => ⟨by rw [hset, hsyn, Bool.true_or], ?_⟩, ?_⟩
  · unfold segmentReceived
    rw [if_neg (by simp [hsyn])]
    simp [hsyn]
  · have hended := Bool.toNat_le_toNat hstream.2
    have hisn : r.setIsn.toNat ≤ (r.segmentReceived seg).setIsn.toNat :=
      Bool.toNat_le_toNat fun hsyn => by rw [hset, hsyn, Bool.true_or]
    unfold absoluteAckno
    omega

/-- No event takes anything back from the receiver. -/
theorem Moves.advances (hmove : Moves inbound ok h o) : Advances h.conn.receiver o.receiver :=
  hmove.receiver_cases (P := Advances h.conn.receiver) ⟨fun hset => ⟨hset, rfl⟩, le_rfl⟩
    ⟨fun hset => ⟨hset, rfl⟩, le_rfl⟩ (fun _ => ⟨fun hset => ⟨hset, rfl⟩, le_rfl⟩)
    fun p _ _ _ _ => h.conn.receiver.advances_segmentReceived p.seg

/-- The first SYN tells where the peer's stream starts. -/
theorem TCPReceiver.isn_segmentReceived (hset : r.setIsn = false) (hsyn : seg.header.syn = true) :
    (r.segmentReceived seg).isn = seg.header.seqno := by
  unfold segmentReceived
  rw [if_neg (by simp [hsyn])]
  simp [hset]

/-- A segment without payload and FIN at the start of the stream pushes nothing. -/
theorem TCPReceiver.reassembler_segmentReceived {n : Nat} {isn : WrappingInt32}
    (hseqno : seg.header.seqno = wrap n isn) (hn : n ≤ 1)
    (hpayload : seg.payload = []) (hfin : seg.header.fin = false)
    (hisn : r.setIsn = true → r.isn = isn) (hwritten : r.streamOut.bytesWritten = 0)
    (heof : r.reassembler.eof = false) :
    (r.segmentReceived seg).reassembler = r.reassembler := by
  have hdone : r.reassembler.pushSubstring [] 0 false = r.reassembler := by
    rw [StreamReassembler.pushSubstring_nothing, StreamReassembler.endIfDone, heof,
      Bool.false_and]
    rfl
  by_cases hset : r.setIsn = true
  · obtain ⟨-, hpush⟩ := segmentReceived_at (n := n) hset (by rw [hseqno, hisn hset])
      (by omega) (by omega) (by omega) (by omega)
    rw [hpush, hpayload, hfin]
    rcases Nat.le_one_iff_eq_zero_or_eq_one.mp hn with hzero | hone
    · rw [hzero, StreamReassembler.pushSubstring_wrapped]
      exact hdone
    · rw [hone]
      exact hdone
  · rw [Bool.not_eq_true] at hset
    by_cases hfirst : seg.header.syn = true
    · obtain ⟨-, hpush⟩ := segmentReceived_syn hset hfirst (by omega)
      rw [hpush, hpayload, hfin]
      exact hdone
    · rw [Bool.not_eq_true] at hfirst
      rw [segmentReceived_ignored hset hfirst]

/-! ## Senders -/

/-- While nothing but the SYN has been sent, it fills the window. -/
structure Bare (s : TCPSender) : Prop where
  nextSeqno_eq : s.nextSeqno = s.syned.toNat
  windowSize_eq : s.windowSize = 1
  used_eq : s.windowUsedSize = s.syned.toNat

/-- Nothing but the SYN is sent into the first window. -/
theorem Bare.fillWindow (hbare : Bare s) (hlaw : TCPSender.Segmented wrote sent s)
    (hsilent : s.syned = false → wrote = [] ∧ s.stream.inputEnded = false) :
    Bare s.fillWindow := by
  have hemit := s.fillWindow_emitted
  have hused := hbare.used_eq
  have hwindow := hbare.windowSize_eq
  by_cases hsyned : s.syned = true
  · have hnone : s.newSegments = [] := by
      cases hnew : s.newSegments with
      | nil => rfl
      | cons seg rest =>
          have hadm := s.admissible_newSegments
          rw [hnew] at hadm
          have hfits := hadm.1.fits
          rw [hsyned, Bool.toNat_true] at hused
          unfold TCPSender.Fits at hfits
          omega
    have hsame := s.fillWindow_eq_run
    rw [hnone] at hsame
    rw [hsame]
    exact hbare
  · rw [Bool.not_eq_true] at hsyned
    obtain ⟨hnothing, hrunning⟩ := hsilent hsyned
    have hfill := hlaw.fillWindow
    have hsyned' := hfill.syned_iff.mpr hlaw.sent_ne_nil
    have hread : s.fillWindow.stream.bytesRead = 0 := by
      have hwrote := hfill.wrote_eq
      rw [hnothing] at hwrote
      rw [hfill.bytesRead_eq, (List.append_eq_nil_iff.mp hwrote.symm).1]
      rfl
    have hfin : s.fillWindow.fin = false := by
      by_contra hfin
      rw [Bool.not_eq_false] at hfin
      have hended := (hfill.fin_ended hfin).1
      rw [TCPSender.fillWindow_keeps (P := fun stream => stream.inputEnded = false)
        (fun _ _ hstream => hstream) hrunning] at hended
      cases hended
    have hnext := hfill.nextSeqno_eq
    rw [hsyned', hread, hfin] at hnext
    have hbefore := hbare.nextSeqno_eq
    rw [hsyned] at hbefore hused
    have hnextAdd := hemit.nextSeqno_eq
    have husedAdd := hemit.used_eq
    simp only [Bool.toNat_true, Bool.toNat_false] at hnext hbefore hused
    refine ⟨?_, by rw [hemit.windowSize_eq, hwindow], ?_⟩
    · rw [hnext, hsyned']
      rfl
    · rw [hsyned', Bool.toNat_true]
      omega

theorem Bare.ticked (hbare : Bare s) (ms : UInt64) : Bare (s.tick ms) := by
  obtain ⟨segs, hticked⟩ := s.tick_ticked ms
  refine ⟨?_, ?_, ?_⟩
  · rw [hticked.nextSeqno_eq, hticked.syned_eq, hbare.nextSeqno_eq]
  · rw [hticked.windowSize_eq, hbare.windowSize_eq]
  · rw [hticked.windowUsedSize_eq, hticked.syned_eq, hbare.used_eq]

/-- A sender that has sent nothing but its SYN has no other segment in flight. -/
theorem Bare.position {n : Nat} (hbare : Bare s) (hlaw : TCPSender.Segmented wrote sent s)
    (hpos : Position sent n seg) : seg.payload = [] ∧ seg.header.fin = false ∧ n ≤ 1 := by
  have hnext := hlaw.nextSeqno_eq
  rw [hbare.nextSeqno_eq] at hnext
  have hle := hpos.le_extent
  rw [hlaw.extent_eq, hbare.nextSeqno_eq] at hle
  have hsyned := s.syned.toNat_le
  have hfin : s.fin = false := by
    by_contra hfin
    rw [Bool.not_eq_false] at hfin
    rw [hfin, Bool.toNat_true] at hnext
    omega
  have hnil : TCPSender.payloads sent = [] := by
    have hread := hlaw.bytesRead_eq
    exact List.length_eq_zero_iff.mp (by omega)
  refine ⟨?_, ?_, by omega⟩
  · have hdata := (hpos.data hlaw).excerpt
    rw [hnil] at hdata
    by_contra hne
    have hstop := hdata.stop_le hne
    have hpositive := List.length_pos_of_ne_nil hne
    simp only [Fragment.stop, List.length_nil] at hstop
    omega
  · by_contra hsegfin
    rw [Bool.not_eq_false] at hsegfin
    rw [hlaw.fin_iff.mpr (hpos.exists_fin hsegfin)] at hfin
    cases hfin

/-! ## Two hosts -/

/-- Before the peer's SYN has arrived, the application has said nothing and nothing is
acknowledged; before an acknowledgement has arrived, nothing but the SYN is sent. -/
structure Opening (h : Host) : Prop where
  silent : h.conn.receiver.setIsn = false → h.conn.sender.absoluteAckno = 0 ∧ h.wrote = [] ∧
    h.conn.sender.stream.inputEnded = false
  answered : h.conn.receiver.setIsn = true → h.conn.sender.syned = true
  unacked : h.conn.sender.absoluteAckno = 0 → Bare h.conn.sender
  heard : h.conn.receiver.reassembler.eof = true ∨ h.conn.receiver.streamOut.inputEnded = true →
    h.conn.sender.absoluteAckno ≠ 0
  acks : ∀ p ∈ h.packets, p.seg.header.rst = false →
    (p.seg.header.ack = true → 1 ≤ p.absAckno) ∧ (p.seg.header.fin = true → p.seg.header.ack = true)

/-- What the receiver of `k` has of `h`: its SYN, and nothing else before `h` has an
acknowledgement. -/
structure Greeting (h k : Host) : Prop where
  synced : k.conn.receiver.setIsn = true →
    k.conn.receiver.isn = h.conn.sender.isn ∧ h.conn.sender.syned = true
  unheard : h.conn.sender.absoluteAckno = 0 → k.conn.receiver.streamOut.bytesWritten = 0 ∧
    k.conn.receiver.reassembler.eof = false ∧ k.conn.receiver.streamOut.inputEnded = false

/-- Two hosts that open their connections in order. -/
structure Handshake (sent sent' : List TCPSegment) (h k : Host) : Prop where
  here : Endpoint sent h
  there : Endpoint sent' k
  opening : Opening h
  opening' : Opening k
  greets : Greeting h k
  greeted : Greeting k h

theorem opening_new (cfg : TCPConfig) (random : UInt32) : Opening (Host.new cfg random) where
  silent := fun _ => by
    have hack := (sending_new cfg.sendCapacity cfg.rtTimeout cfg.fixedIsn random).cached
    exact ⟨hack.absoluteAckno_eq, rfl, rfl⟩
  answered := fun hset => by cases hset
  unacked := fun _ => ⟨rfl, rfl, rfl⟩
  heard := fun hended => by rcases hended with heof | hended <;> contradiction
  acks := by simp [Host.new]

theorem greeting_new (cfgA cfgB : TCPConfig) (randomA randomB : UInt32) :
    Greeting (Host.new cfgA randomA) (Host.new cfgB randomB) where
  synced := fun hset => by cases hset
  unheard := fun _ => ⟨rfl, rfl, rfl⟩

theorem handshake_new (cfgA cfgB : TCPConfig) (randomA randomB : UInt32) :
    Handshake [] [] (Host.new cfgA randomA) (Host.new cfgB randomB) where
  here := endpoint_new cfgA randomA
  there := endpoint_new cfgB randomB
  opening := opening_new cfgA randomA
  opening' := opening_new cfgB randomB
  greets := greeting_new cfgA cfgB randomA randomB
  greeted := greeting_new cfgB cfgA randomB randomA

theorem Handshake.symm (hh : Handshake sent sent' h k) : Handshake sent' sent k h :=
  ⟨hh.there, hh.here, hh.opening', hh.opening, hh.greeted, hh.greets⟩

/-- An acknowledgement finds the SYN sent. -/
theorem Handshake.sent_ne_nil (hh : Handshake sent sent' h k) (hp : p ∈ k.packets)
    (hrst : p.seg.header.rst = false) (hack : p.seg.header.ack = true) : sent ≠ [] :=
  hh.here.sending.segmented.syned_iff.mp
    (hh.greets.synced (hh.there.acknowledges p hp hrst hack).setIsn_eq).2

/-- The sender behind the acknowledgement that a packet may carry. -/
theorem Handshake.acked (hh : Handshake sent sent' h k) (hp : p ∈ k.packets)
    (hrst : p.seg.header.rst = false) :
    ∃ ack, Sending h.wrote sent ack (TCPConnection.acked h.conn.sender p.seg) := by
  obtain ⟨ack, hacked, -⟩ := hh.here.sending.acked p.seg (hh.sent_ne_nil hp hrst)
  exact ⟨ack, hacked⟩

/-- The first ackno that a host sees is the one behind its SYN. -/
theorem Handshake.unwrap_ackno (hh : Handshake sent sent' h k)
    (hzero : h.conn.sender.absoluteAckno = 0) (hp : p ∈ k.packets)
    (hrst : p.seg.header.rst = false) (hack : p.seg.header.ack = true) :
    unwrap p.seg.header.ackno h.conn.sender.isn h.conn.sender.nextSeqno = 1 ∧
      h.conn.sender.nextSeqno = 1 := by
  obtain ⟨hset, hackno, hle⟩ := hh.there.acknowledges p hp hrst hack
  obtain ⟨hisn, hsyned⟩ := hh.greets.synced hset
  obtain ⟨hwritten, -, hended⟩ := hh.greets.unheard hzero
  have hge := (hh.opening'.acks p hp hrst).1 hack
  have hone : p.absAckno = 1 := by
    rw [TCPReceiver.absoluteAckno, hset, hwritten, hended] at hle
    simp only [Bool.toNat_true, Bool.toNat_false] at hle
    omega
  have hnext := (hh.opening.unacked hzero).nextSeqno_eq
  rw [hsyned, Bool.toNat_true] at hnext
  rw [hackno, hone, hisn, hnext]
  exact ⟨unwrap_wrap _ (by omega) (by omega) (by omega) (by omega), rfl⟩

/-- A host that receives an acknowledgement has accepted one. -/
theorem Handshake.accepted (hh : Handshake sent sent' h k) (hrec : Receives p h o)
    (hflight : o.sender.bytesInFlight < 2 ^ 31) (hnext : o.sender.nextSeqno < 2 ^ 64)
    (hp : p ∈ k.packets) (hrst : p.seg.header.rst = false) (hack : p.seg.header.ack = true) :
    o.sender.absoluteAckno ≠ 0 := by
  obtain ⟨hmono, haccepts⟩ := hrec.absoluteAckno_le hh.here.sending.cached hflight hnext
  by_cases hzero : h.conn.sender.absoluteAckno = 0
  · obtain ⟨hunwrap, hone⟩ := hh.unwrap_ackno hzero hp hrst hack
    have hle := haccepts hrst hack
    rw [hunwrap, hone] at hle
    have := hle le_rfl
    omega
  · omega

/-- Before a host has an acknowledgement, its segments change nothing in the streams of its
peer. -/
theorem Handshake.reassembler_eq (hh : Handshake sent sent' h k)
    (hzero : k.conn.sender.absoluteAckno = 0) (hp : p ∈ k.packets)
    (hrst : p.seg.header.rst = false) :
    (h.conn.receiver.segmentReceived p.seg).reassembler = h.conn.receiver.reassembler := by
  obtain ⟨hwritten, heof, -⟩ := hh.greeted.unheard hzero
  have hcarries := hh.there.carries p hp hrst
  obtain ⟨hpayload, hfin, hn⟩ := (hh.opening'.unacked hzero).position
    hh.there.sending.segmented hcarries.position
  exact TCPReceiver.reassembler_segmentReceived hcarries.seqno_eq hn hpayload hfin
    (fun hset => (hh.greeted.synced hset).1) hwritten heof

/-! ## One event -/

/-- A packet that is no RST finds the SYN seen, or brings it. -/
def Packet.Introduced (p : Packet) (h : Host) : Prop :=
  p.seg.header.rst = false → h.conn.receiver.setIsn = false → p.seg.header.syn = true

instance (p : Packet) (h : Host) : Decidable (p.Introduced h) :=
  inferInstanceAs (Decidable (_ → _ → _))

/-- Behind such a packet the SYN has been seen. -/
theorem Packet.Introduced.setIsn_eq (hin : p.Introduced h) (hrst : p.seg.header.rst = false) :
    (h.conn.receiver.segmentReceived p.seg).setIsn = true := by
  rw [TCPReceiver.setIsn_segmentReceived]
  by_cases hset : h.conn.receiver.setIsn = true
  · rw [hset, Bool.true_or]
  · rw [Bool.not_eq_true] at hset
    rw [hin hrst hset, Bool.or_true]

/-- The answer to such a packet fills the window. -/
theorem Packet.Introduced.reply_fills (hin : p.Introduced h) (hrst : p.seg.header.rst = false)
    (s : TCPSender) :
    ∃ queue, TCPConnection.reply (h.conn.receiver.segmentReceived p.seg) s p.seg =
      { s.fillWindow with segmentsOut := queue } := by
  refine TCPConnection.reply_fills ?_ s p.seg
  rw [TCPReceiver.ackno, if_pos (hin.setIsn_eq hrst)]
  rfl

/-- A host that knows the end of the peer's stream has accepted an acknowledgement. -/
theorem Handshake.heard_moved (hh : Handshake sent sent' h k) (hmove : Moves k.packets ok h o)
    (hflight : o.sender.bytesInFlight < 2 ^ 31) (hnext : o.sender.nextSeqno < 2 ^ 64) :
    o.receiver.reassembler.eof = true ∨ o.receiver.streamOut.inputEnded = true →
      o.sender.absoluteAckno ≠ 0 := by
  have hmono := hmove.absoluteAckno_le hh.here.sending.cached hflight hnext
  have hkeep : h.conn.receiver.reassembler.eof = true ∨
      h.conn.receiver.streamOut.inputEnded = true → o.sender.absoluteAckno ≠ 0 := by
    intro hbefore
    have := hh.opening.heard hbefore
    omega
  refine hmove.receiver_cases (P := fun r => r.reassembler.eof = true ∨
      r.streamOut.inputEnded = true → o.sender.absoluteAckno ≠ 0) hkeep hkeep (fun _ => hkeep) ?_
  intro p hp _ hrst hrec hended
  have heof : (h.conn.receiver.segmentReceived p.seg).reassembler.eof = true →
      o.sender.absoluteAckno ≠ 0 := by
    intro heof
    rcases TCPReceiver.eof_of_segmentReceived heof with hold | hfin
    · exact hkeep (Or.inl hold)
    · -- A FIN comes with an acknowledgement.
      exact hh.accepted hrec hflight hnext hp hrst ((hh.opening'.acks p hp hrst).2 hfin)
  rcases hended with hknown | hended
  · exact heof hknown
  · rcases TCPReceiver.inputEnded_of_segmentReceived hended with hold | hknown
    · exact hkeep (Or.inr hold)
    · exact heof hknown

/-- The SYN that a receiver has seen is that of the peer. -/
theorem Handshake.synced_moved (hh : Handshake sent sent' h k) (hmove : Moves k.packets ok h o) :
    o.receiver.setIsn = true →
      o.receiver.isn = k.conn.sender.isn ∧ k.conn.sender.syned = true := by
  have hsynced := hh.greeted.synced
  refine hmove.receiver_cases (P := fun r => r.setIsn = true → r.isn = k.conn.sender.isn ∧
    k.conn.sender.syned = true) hsynced hsynced (fun _ => hsynced) ?_
  intro p hp _ hrst _ hset
  by_cases hbefore : h.conn.receiver.setIsn = true
  · rw [((h.conn.receiver.advances_segmentReceived p.seg).setIsn_eq hbefore).2]
    exact hsynced hbefore
  · rw [Bool.not_eq_true] at hbefore
    rw [TCPReceiver.setIsn_segmentReceived, hbefore, Bool.false_or] at hset
    have hcarries := hh.there.carries p hp hrst
    have hlaw := hh.there.sending.segmented
    refine ⟨?_, hlaw.syned_iff.mpr hcarries.position.sent_ne_nil⟩
    rw [TCPReceiver.isn_segmentReceived hbefore hset, hcarries.seqno_eq,
      (hcarries.position.data hlaw).syn_iff.mp hset, wrap_zero]

/-- Before the peer has an acknowledgement, nothing of its stream has arrived. -/
theorem Handshake.unheard_moved (hh : Handshake sent sent' h k) (hmove : Moves k.packets ok h o)
    (hzero : k.conn.sender.absoluteAckno = 0) :
    o.receiver.streamOut.bytesWritten = 0 ∧ o.receiver.reassembler.eof = false ∧
      o.receiver.streamOut.inputEnded = false := by
  have hunheard := hh.greeted.unheard hzero
  refine hmove.receiver_cases (P := fun r => r.streamOut.bytesWritten = 0 ∧
    r.reassembler.eof = false ∧ r.streamOut.inputEnded = false) hunheard hunheard
    (fun _ => hunheard) ?_
  intro p hp _ hrst _
  rw [TCPReceiver.streamOut, hh.reassembler_eq hzero hp hrst]
  exact hunheard

/-- A packet that a host emits acknowledges at least a SYN if it acknowledges anything, and all
of them do once the SYN has been seen. -/
theorem Becomes.acks (hbecomes : Becomes h o h') (hend : Endpoint sent h)
    (hseg : seg ∈ o.sender.segmentsOut) (hrst : (o.packet seg).seg.header.rst = false) :
    ((o.packet seg).seg.header.ack = true → 1 ≤ (o.packet seg).absAckno) ∧
      (o.receiver.setIsn = true → (o.packet seg).seg.header.ack = true) := by
  have hactive := hbecomes.active (Or.inl (List.ne_nil_of_mem hseg))
  rcases hbecomes.error with hsame | ⟨-, hresets⟩
  · have herror := hsame.trans (hend.healthy hactive)
    refine ⟨fun hack => ?_, fun hset => ack_packet hset herror⟩
    have hset := (acknowledges_packet herror hack).setIsn_eq
    change 1 ≤ o.receiver.absoluteAckno
    rw [TCPReceiver.absoluteAckno, hset, Bool.toNat_true]
    omega
  · change seg.header.rst = false at hrst
    rw [hresets seg hseg] at hrst
    cases hrst

/-- A turn at one of two hosts that open their connections in order: the application speaks and
segments without SYN arrive only behind the peer's SYN. -/
structure Orderly (sent sent' : List TCPSegment) (h k : Host) (e : Event) (o : Outcome)
    (active linger : Bool) : Prop where
  handshake : Handshake sent sent' h k
  turn : Turn k.packets h e o active linger
  inFlight_lt : o.sender.bytesInFlight < 2 ^ 31
  nextSeqno_lt : o.sender.nextSeqno < 2 ^ 64
  spoken : e.Speaks → h.conn.receiver.setIsn = true
  introduced : e.Delivers (fun p => p.Introduced h) k.packets

/-- A host that still waits for the SYN has said nothing. -/
theorem Orderly.silent (horderly : Orderly sent sent' h k e o active linger)
    (hset : o.receiver.setIsn = false) :
    o.sender.absoluteAckno = 0 ∧ o.wrote = [] ∧ o.sender.stream.inputEnded = false := by
  obtain ⟨hh, hturn, hflight, hnext, hspeaks, hintroduced⟩ := horderly
  have hcached := hh.here.sending.cached
  have hsilent := hh.opening.silent
  cases hturn with
  | feed e stream wrote hfeed hspoken =>
      obtain ⟨hack, hwrote, hended⟩ := hsilent hset
      rcases hspoken with hloud | ⟨-, rfl, rfl⟩
      · rw [hspeaks hloud] at hset
        cases hset
      · refine ⟨?_, hwrote, ?_⟩
        · rw [((hcached.withStream _ _).fillWindow hflight hnext).absoluteAckno_eq, hack]
        · exact TCPSender.fillWindow_keeps (P := fun stream => stream.inputEnded = false)
            (fun _ _ hstream => hstream) hended
  | tick ms active =>
      obtain ⟨hack, hwrote, hended⟩ := hsilent hset
      obtain ⟨segs, hticked⟩ := h.conn.sender.tick_ticked ms
      exact ⟨by rw [(hcached.tick ms).1.absoluteAckno_eq, hack], hwrote,
        by rw [hticked.stream_eq, hended]⟩
  | giveUp ms =>
      obtain ⟨hack, hwrote, hended⟩ := hsilent hset
      obtain ⟨segs, hticked⟩ := h.conn.sender.tick_ticked ms
      refine ⟨by rw [((hcached.tick ms).1.withStream _ _).absoluteAckno_eq, hack], hwrote, ?_⟩
      change (h.conn.sender.tick ms).stream.inputEnded = false
      rw [hticked.stream_eq, hended]
  | read len => exact hsilent hset
  | lose i hnone => exact hsilent hset
  | reset i p hget hrst => exact hsilent hset
  | close i p hget hrst hfinished hlinger =>
      rw [(hintroduced p hget).setIsn_eq hrst] at hset
      cases hset
  | answer i p hget hrst hopen =>
      rw [(hintroduced p hget).setIsn_eq hrst] at hset
      cases hset

/-- A host that has seen the SYN has sent its own. -/
theorem Orderly.answered (horderly : Orderly sent sent' h k e o active linger)
    (hset : o.receiver.setIsn = true) : o.sender.syned = true := by
  obtain ⟨hh, hturn, -, -, -, hintroduced⟩ := horderly
  have hanswered := hh.opening.answered
  have hsending := hh.here.sending
  have hfills : ∀ {s : TCPSender} {wrote : List Byte}, TCPSender.Segmented wrote sent s →
      s.fillWindow.syned = true := fun hlaw =>
    hlaw.fillWindow.syned_iff.mpr hlaw.sent_ne_nil
  cases hturn with
  | feed e stream wrote hfeed hspoken => exact hfills (hsending.feed hfeed).segmented
  | tick ms active =>
      obtain ⟨segs, hticked⟩ := h.conn.sender.tick_ticked ms
      rw [hticked.syned_eq, hanswered hset]
  | giveUp ms =>
      obtain ⟨segs, hticked⟩ := h.conn.sender.tick_ticked ms
      change (h.conn.sender.tick ms).syned = true
      rw [hticked.syned_eq, hanswered hset]
  | read len => exact hanswered hset
  | lose i hnone => exact hanswered hset
  | reset i p hget hrst => exact hanswered hset
  | close i p hget hrst hfinished hlinger =>
      -- The streams have finished, so much more than the SYN has been sent.
      obtain ⟨ack, hacked⟩ := hh.acked (List.mem_of_getElem? hget) hrst
      have hlaw := hacked.segmented
      rw [TCPConnection.finished, decide_eq_true_eq] at hfinished
      have hsent := (TCPSender.sent_of_finAcked hfinished.2).1
      rw [hlaw.syned_iff]
      rintro rfl
      have hnone := hlaw.extent_eq
      rw [extent_nil] at hnone
      omega
  | answer i p hget hrst hopen =>
      obtain ⟨ack, hacked⟩ := hh.acked (List.mem_of_getElem? hget) hrst
      obtain ⟨queue, hreply⟩ := (hintroduced p hget).reply_fills hrst
        (TCPConnection.acked h.conn.sender p.seg)
      change (TCPConnection.reply _ _ _).syned = true
      rw [hreply]
      exact hfills hacked.segmented

/-- A host without an acknowledgement has sent nothing but its SYN. -/
theorem Orderly.unacked (horderly : Orderly sent sent' h k e o active linger)
    (hzero : o.sender.absoluteAckno = 0) : Bare o.sender := by
  obtain ⟨hh, hturn, hflight, hnext, hspeaks, hintroduced⟩ := horderly
  have hmove : Moves k.packets (fun p => p.Introduced h) h o := hturn.moves hintroduced
  have hbefore : h.conn.sender.absoluteAckno = 0 :=
    Nat.eq_zero_of_le_zero (hzero ▸ hmove.absoluteAckno_le hh.here.sending.cached hflight hnext)
  have hbare := hh.opening.unacked hbefore
  -- Before the SYN is sent, nothing has arrived, so nothing has been written.
  have hearly : h.conn.sender.syned = false → h.conn.receiver.setIsn = false := by
    intro hsyned
    by_contra hset
    rw [Bool.not_eq_false] at hset
    rw [hh.opening.answered hset] at hsyned
    cases hsyned
  -- A segment with an acknowledgement would have been accepted.
  have hnone : ∀ p ∈ k.packets, p.seg.header.rst = false → Receives p h o →
      TCPConnection.acked h.conn.sender p.seg = h.conn.sender := by
    intro p hp hrst hrec
    refine if_neg fun hack => ?_
    exact hh.accepted hrec hflight hnext hp hrst hack hzero
  cases hturn with
  | feed e stream wrote hfeed hspoken =>
      refine Bare.fillWindow ⟨hbare.nextSeqno_eq, hbare.windowSize_eq, hbare.used_eq⟩
        (hh.here.sending.feed hfeed).segmented fun hsyned => ?_
      have hset := hearly hsyned
      rcases hspoken with hloud | ⟨-, rfl, rfl⟩
      · rw [hspeaks hloud] at hset
        cases hset
      · exact (hh.opening.silent hset).2
  | tick ms active => exact hbare.ticked ms
  | giveUp ms =>
      obtain ⟨hsame, hwindow, hused⟩ := hbare.ticked ms
      exact ⟨hsame, hwindow, hused⟩
  | read len => exact hbare
  | lose i hnone => exact hbare
  | reset i p hget hrst => exact ⟨hbare.nextSeqno_eq, hbare.windowSize_eq, hbare.used_eq⟩
  | close i p hget hrst hfinished hlinger =>
      change Bare (TCPConnection.acked _ _)
      rw [hnone p (List.mem_of_getElem? hget) hrst (.close hrst)]
      exact hbare
  | answer i p hget hrst hopen =>
      change Bare (TCPConnection.reply _ (TCPConnection.acked _ _) _)
      rw [hnone p (List.mem_of_getElem? hget) hrst (.reply hrst)]
      obtain ⟨queue, hreply⟩ := (hintroduced p hget).reply_fills hrst h.conn.sender
      rw [hreply]
      obtain ⟨hsame, hwindow, hused⟩ := hbare.fillWindow hh.here.sending.segmented
        fun hsyned => (hh.opening.silent (hearly hsyned)).2
      exact ⟨hsame, hwindow, hused⟩

/-- What a host knows of its own opening stays in order. -/
theorem Orderly.opening (horderly : Orderly sent sent' h k e o active linger)
    (hbecomes : Becomes h o h') (hend : Endpoint (sent ++ more) h') : Opening h' := by
  have hh := horderly.handshake
  have hreceiver := hbecomes.receiver_eq
  have hsender := hbecomes.sender_eq
  have hstream : h'.conn.sender.stream = o.sender.stream := by rw [hsender]
  have hack : h'.conn.sender.absoluteAckno = o.sender.absoluteAckno := by
    rw [hsender]
    rfl
  have hsilent := horderly.silent
  refine ⟨?_, ?_, ?_, ?_, ?_⟩
  · rw [hreceiver, hack, hbecomes.wrote_eq, hstream]
    exact hsilent
  · rw [hreceiver, hsender]
    exact horderly.answered
  · intro hzero
    rw [hack] at hzero
    obtain ⟨hsame, hwindow, hused⟩ := horderly.unacked hzero
    rw [hsender]
    exact ⟨hsame, hwindow, hused⟩
  · rw [hreceiver, hack]
    exact hh.heard_moved (horderly.turn.moves horderly.introduced) horderly.inFlight_lt
      horderly.nextSeqno_lt
  · intro p hp hrst
    have hcarries := hend.carries p hp hrst
    rw [hbecomes.packets_eq, List.mem_append, List.mem_map] at hp
    rcases hp with hold | ⟨seg, hseg, rfl⟩
    · exact hh.opening.acks p hold hrst
    · obtain ⟨hpositive, hall⟩ := hbecomes.acks hh.here hseg hrst
      refine ⟨hpositive, fun hfin => hall ?_⟩
      -- The FIN ends a stream that the application has ended, so the SYN has been seen.
      by_contra hset
      rw [Bool.not_eq_true] at hset
      have hlaw := hend.sending.segmented
      have hended := (hlaw.fin_ended (hlaw.fin_iff.mpr (hcarries.position.exists_fin hfin))).1
      rw [hstream, (hsilent hset).2.2] at hended
      cases hended

/-- Every event keeps the handshake in order, if the application speaks and segments without
SYN arrive only behind the peer's SYN. -/
theorem Handshake.moved (hh : Handshake sent sent' h k) (hturn : Turn k.packets h e o active linger)
    (hbecomes : Becomes h o h') (hbounded : h'.Bounded)
    (hspeaks : e.Speaks → h.conn.receiver.setIsn = true)
    (hintroduced : e.Delivers (fun p => p.Introduced h) k.packets) :
    ∃ more, Handshake (sent ++ more) sent' h' k := by
  have hmove := hturn.moves hintroduced
  have hsender := hbecomes.sender_eq
  obtain ⟨hflight, hbound⟩ := hbounded
  rw [TCPConnection.bytesInFlight, hsender] at hflight
  rw [hsender] at hbound
  obtain ⟨more, ack, hsends⟩ := hmove.sends hh.here.sending hh.here.queue_eq
    (fun p hp => hh.sent_ne_nil hp) hflight hbound
  have hnext := hsends.sending.cached.nextSeqno_lt
  have hend : Endpoint (sent ++ more) h' := hh.here.moved hbecomes hsends hmove.advances hbound
  have horderly : Orderly sent sent' h k e o active linger :=
    ⟨hh, hturn, hflight, hnext, hspeaks, hintroduced⟩
  refine ⟨more, hend, hh.there, horderly.opening hbecomes hend, hh.opening', ⟨?_, ?_⟩, ⟨?_, ?_⟩⟩
  · intro hset
    obtain ⟨hisn, hsyned⟩ := hh.greets.synced hset
    refine ⟨?_, ?_⟩
    · rw [hisn, hsender]
      exact hsends.isn_eq.symm
    · rw [hend.sending.segmented.syned_iff]
      exact List.append_ne_nil_of_left_ne_nil (hh.here.sending.segmented.syned_iff.mp hsyned) _
  · intro hzero
    have hmono := hmove.absoluteAckno_le hh.here.sending.cached hflight hnext
    have hack : h'.conn.sender.absoluteAckno = o.sender.absoluteAckno := by
      rw [hsender]
      rfl
    exact hh.greets.unheard (by omega)
  · rw [hbecomes.receiver_eq]
    exact hh.synced_moved hmove
  · rw [hbecomes.receiver_eq]
    exact hh.unheard_moved hmove

end Sponge
