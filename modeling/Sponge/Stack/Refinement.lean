import Sponge.Library.Simulation
import Sponge.Network.Link
import Sponge.Stack.Model
import Sponge.TCPSender.Size

/-!
# Connections on a channel behave as connections on a network

Two hosts on a channel refine the network of their connections: forget the channel, and take
what waits in `segments_out()` as sent.  An operation of a connection does not look at what is
in its queue, and a segment that arrives is a copy of one that the peer has emitted, so every
event on a channel is an event of the network, or does not show there.

Main results:

- Theorem {lit}`Host.settled_enqueue`: an operation commutes with the queue.
- Theorem {lit}`Stack.Sound.step`: an event on the channel is matched by the network.
- Theorem {lit}`Stack.sound_run`: the same for runs.
- Theorem {lit}`Stack.received_isPrefix_wrote`: a host on a channel receives what its peer writes.
-/

namespace Sponge

open Library

/-! ## Operations and the queue -/

namespace TCPConnection

/-- The connection with segments in front of its queue. -/
def withFront (queue : List TCPSegment) (c : TCPConnection) : TCPConnection :=
  { c with segmentsOut := queue ++ c.segmentsOut }

/-- The operation appends to the queue and does not look at it. -/
def Appends (f : TCPConnection → TCPConnection) : Prop :=
  ∀ queue c, f (c.withFront queue) = (f c).withFront queue

/-- Segments of the sender are put behind those that are queued. -/
theorem appends_sendWithAcknoAndWin : Appends sendWithAcknoAndWin := by
  intro queue c
  simp only [sendWithAcknoAndWin, withFront, List.append_assoc]

/-- A change of the sender, and what it enqueued goes out. -/
theorem appends_sender (g : TCPSender → TCPSender) :
    Appends fun c => { c with sender := g c.sender }.sendWithAcknoAndWin :=
  fun queue c => appends_sendWithAcknoAndWin queue { c with sender := g c.sender }

/-- `connect()` only appends to the queue. -/
theorem appends_connect : Appends connect :=
  appends_sender fun s => s.fillWindow

/-- `write(data)` only appends to the queue. -/
theorem appends_write (data : List Byte) : Appends fun c => (c.write data).1 :=
  appends_sender fun s => TCPSender.fillWindow { s with stream := (s.stream.write data).1 }

/-- `end_input_stream()` only appends to the queue. -/
theorem appends_endInputStream : Appends endInputStream :=
  appends_sender fun s => TCPSender.fillWindow { s with stream := s.stream.endInput }

/-- The branches of an operation, which do not depend on the queue. -/
theorem withFront_ite (queue : List TCPSegment) (p : Prop) [Decidable p] (c d : TCPConnection) :
    withFront queue (if p then c else d) = if p then withFront queue c else withFront queue d :=
  apply_ite _ _ _ _

/-- `segment_received(seg)` only appends to the queue. -/
theorem appends_segmentReceived (seg : TCPSegment) : Appends fun c => c.segmentReceived seg := by
  intro queue c
  let passed := { c with segReceivedTimeMs := c.nowTimeMs }.passOn seg
  have hreply := appends_sender (fun s => reply passed.receiver s seg) queue passed
  simp only [segmentReceived, withFront_ite]
  exact ite_congr rfl (fun _ => rfl) fun _ => ite_congr rfl (fun _ => rfl) fun _ => hreply

/-- One after the other. -/
theorem Appends.comp {f g : TCPConnection → TCPConnection} (hg : Appends g) (hf : Appends f) :
    Appends (g ∘ f) :=
  fun queue c => (congrArg g (hf queue c)).trans (hg queue (f c))

/-- Giving up only appends to the queue. -/
theorem appends_giveUp : Appends giveUp := by
  intro queue c
  simp only [giveUp, withFront_ite]
  exact ite_congr rfl (fun _ => rfl) fun _ => rfl

/-- The end of `tick()`: a connection that has lingered long enough is closed. -/
def expire (c : TCPConnection) : TCPConnection :=
  if finished c.receiver c.sender && c.lingerAfterStreamsFinish &&
      decide (c.nowTimeMs - c.segReceivedTimeMs ≥ UInt64.ofNat (10 * c.cfg.rtTimeout.toNat)) then
    { c with active := false }
  else c

/-- The end of lingering only appends to the queue. -/
theorem appends_expire : Appends expire := by
  intro queue c
  simp only [expire, withFront_ite]
  exact ite_congr rfl (fun _ => rfl) fun _ => rfl

/-- `tick(ms)` only appends to the queue. -/
theorem appends_tick (ms : UInt64) : Appends fun c => c.tick ms := by
  let clock : TCPConnection → TCPConnection := fun c => { c with
    nowTimeMs := c.nowTimeMs + ms
    sender := c.sender.tick ms }
  have hclock : Appends clock := fun _ _ => rfl
  exact appends_expire.comp (appends_sendWithAcknoAndWin.comp (appends_giveUp.comp hclock))

/-- A connection does not look at what an adapter fills in. -/
theorem segmentReceived_bare (c : TCPConnection) (seg : TCPSegment) :
    c.segmentReceived seg.bare = c.segmentReceived seg := rfl

end TCPConnection

namespace Host

variable {h : Host}

/-- An operation at a host, where what is sent waits or goes out at once. -/
theorem settled_enqueue {f : TCPConnection → TCPConnection} (hf : TCPConnection.Appends f) :
    (h.enqueue (f h.conn)).settled = h.settled.launch (f h.settled.conn) := by
  have happends := hf h.conn.segmentsOut { h.conn with segmentsOut := [] }
  simp only [TCPConnection.withFront, List.append_nil] at happends
  have hdrop : (f h.conn).segmentsOut.drop h.conn.segmentsOut.length =
      (f h.settled.conn).segmentsOut := by
    rw [happends]
    exact List.drop_left
  have hpacket : Packet.ofSegment (f h.conn) = Packet.ofSegment (f h.settled.conn) := by
    rw [happends]
    rfl
  have hconn : { f h.conn with segmentsOut := [] } =
      { f h.settled.conn with segmentsOut := [] } := by
    rw [happends]
    rfl
  simp only [settled, enqueue, launch, hdrop, hpacket, hconn]

/-- What an operation enqueues was in the queue before or is recorded. -/
theorem mem_enqueue {f : TCPConnection → TCPConnection} (hf : TCPConnection.Appends f)
    {seg : TCPSegment} (hseg : seg ∈ (f h.conn).segmentsOut) :
    seg ∈ h.conn.segmentsOut ∨ ∃ p ∈ (h.enqueue (f h.conn)).packets, p.seg = seg := by
  have happends := congrArg TCPConnection.segmentsOut
    (hf h.conn.segmentsOut { h.conn with segmentsOut := [] })
  simp only [TCPConnection.withFront, List.append_nil] at happends
  have hnew : (f h.conn).segmentsOut.drop h.conn.segmentsOut.length =
      (f { h.conn with segmentsOut := [] }).segmentsOut := by
    rw [happends, List.drop_left]
  rw [happends, List.mem_append, ← hnew] at hseg
  refine hseg.imp_right fun hseg => ⟨Packet.ofSegment (f h.conn) seg, ?_, rfl⟩
  exact List.mem_append_right _ (List.mem_map_of_mem hseg)

end Host

/-! ## Segments -/

section Segments

variable {inbound : List Packet} {ok : Packet → Prop} {h h' : Host} {o : Outcome} {e : Event}
  {active linger : Bool}

/-- What a sender with its own segments puts out. -/
theorem TCPSender.Modest.emits {s : TCPSender} (hmodest : s.Modest) (active : Bool) :
    (∀ seg ∈ s.tcpSegCache.map Prod.snd, seg.Fresh) ∧
      ∀ seg ∈ s.segmentsOut, seg.Plain ∧ (seg.header.rst = true → active = false) := by
  refine ⟨hmodest.cache, fun seg hseg => ⟨(hmodest.queue seg hseg).toPlain, fun hrst => ?_⟩⟩
  rw [(hmodest.queue seg hseg).rst_eq] at hrst
  cases hrst

/-- Every event leaves plain segments in the queue of the sender; with a RST among them the
connection is closed. -/
theorem Turn.emits (hturn : Turn inbound h e o active linger) (hmodest : h.conn.sender.Modest) :
    (∀ seg ∈ o.sender.tcpSegCache.map Prod.snd, seg.Fresh) ∧
      ∀ seg ∈ o.sender.segmentsOut, seg.Plain ∧ (seg.header.rst = true → active = false) := by
  cases hturn with
  | feed e stream wrote hfeed hspoken => exact (hmodest.withStream stream).fillWindow.emits _
  | tick ms active => exact (hmodest.tick ms).emits active
  | giveUp ms =>
      refine ⟨(hmodest.tick ms).cache, fun seg hseg => ⟨?_, fun _ => rfl⟩⟩
      rw [List.mem_singleton.mp hseg]
      exact TCPConnection.plain_rstSegment _
  | read len => exact hmodest.emits _
  | lose i hnone => exact hmodest.emits _
  | reset i p hget hrst => exact (hmodest.withStream _).emits false
  | close i p hget hrst hfinished hlinger => exact (hmodest.acked p.seg).emits false
  | answer i p hget hrst hopen => exact ((hmodest.acked p.seg).reply _ p.seg).emits _

/-- The inbound stream fails only with a RST, sent or received. -/
theorem Turn.error (hturn : Turn inbound h e o active linger)
    (herror : o.receiver.streamOut.error = true) : h.conn.receiver.streamOut.error = true ∨
      (∃ seg ∈ o.sender.segmentsOut, seg.header.rst = true) ∨
        ∃ p ∈ inbound, p.seg.header.rst = true := by
  have hsegment (seg : TCPSegment)
      (hfailed : (h.conn.receiver.segmentReceived seg).streamOut.error = true) :
      h.conn.receiver.streamOut.error = true :=
    (TCPReceiver.error_segmentReceived h.conn.receiver seg).symm.trans hfailed
  cases hturn with
  | feed e stream wrote hfeed hspoken => exact Or.inl herror
  | tick ms active => exact Or.inl herror
  | giveUp ms => exact Or.inr (Or.inl ⟨_, List.mem_singleton.mpr rfl, rfl⟩)
  | read len => exact Or.inl herror
  | lose i hnone => exact Or.inl herror
  | reset i p hget hrst => exact Or.inr (Or.inr ⟨p, List.mem_of_getElem? hget, hrst⟩)
  | close i p hget hrst hfinished hlinger => exact Or.inl (hsegment p.seg herror)
  | answer i p hget hrst hopen => exact Or.inl (hsegment p.seg herror)

/-- The segments that a host keeps are those of its sender, and those that it has emitted are
plain; with a RST among them the connection is closed. -/
structure Host.Modest (h : Host) : Prop where
  sender : h.conn.sender.Modest
  packets : ∀ p ∈ h.packets, p.seg.Plain
  resets : ∀ p ∈ h.packets, p.seg.header.rst = true → h.conn.active = false

/-- A turn keeps a host modest. -/
theorem Host.Modest.becomes (hmodest : h.Modest) (hturn : Turn inbound h e o h'.conn.active linger)
    (hbecomes : Becomes h o h') : h'.Modest := by
  obtain ⟨hcache, hqueue⟩ := hturn.emits hmodest.sender
  refine ⟨?_, ?_, ?_⟩
  · rw [hbecomes.sender_eq]
    exact ⟨hcache, fun _ hseg => absurd hseg List.not_mem_nil⟩
  · intro p hp
    rw [hbecomes.packets_eq, List.mem_append, List.mem_map] at hp
    rcases hp with hp | ⟨seg, hseg, rfl⟩
    · exact hmodest.packets p hp
    · exact (hqueue seg hseg).1.stamp o.receiver
  · intro p hp hrst
    rw [hbecomes.packets_eq, List.mem_append, List.mem_map] at hp
    rcases hp with hp | ⟨seg, hseg, rfl⟩
    · by_contra hactive
      have hwas := hbecomes.active (Or.inr (Bool.eq_true_of_not_eq_false hactive))
      rw [hmodest.resets p hp hrst] at hwas
      cases hwas
    · exact (hqueue seg hseg).2 hrst

end Segments

/-! ## The simulation -/

namespace Stack

variable {c : Channel} {s : Stack c} {side : Side}

/-- A host whose queue and whose written segments are packets of its connection. -/
structure Steady (written : List TCPSegment) (h : Host) : Prop where
  quiet : h.conn.sender.segmentsOut = []
  modest : h.Modest
  bounded : h.Bounded
  queued : ∀ seg ∈ h.conn.segmentsOut, ∃ p ∈ h.packets, p.seg = seg
  written : ∀ seg ∈ written, ∃ p ∈ h.packets, p.seg = seg

/-- The channel is ready for two steady hosts, and a host that has failed was reset by its peer or
has reset it. -/
structure Sound (s : Stack c) : Prop where
  ready : c.Ready s.channel
  steady : ∀ side, Steady (c.written s.channel side) (s.host side)
  reset : ∀ side, (s.host side).conn.receiver.streamOut.error = true →
    (∃ p ∈ (s.host side).packets, p.seg.header.rst = true) ∨
      ∃ p ∈ (s.host side.other).packets, p.seg.header.rst = true

/-- Two fresh hosts are sound. -/
theorem sound_new {channel : c.State} (hready : c.Ready channel)
    (hwritten : ∀ side, c.written channel side = []) (cfg : Side → TCPConfig)
    (random : Side → UInt32) : (new channel cfg random).Sound where
  ready := hready
  steady side := by
    have hend := endpoint_new (cfg side) (random side)
    have hflight := hend.sending.cached.bytesInFlight_eq
    refine ⟨rfl, ⟨TCPSender.modest_new _ _ _ _, fun _ hp => absurd hp List.not_mem_nil,
      fun _ hp => absurd hp List.not_mem_nil⟩, ⟨?_, hend.bytesWritten_lt⟩,
      fun _ hseg => absurd hseg List.not_mem_nil, ?_⟩
    · change (Host.new (cfg side) (random side)).conn.sender.bytesInFlight < 2 ^ 31
      rw [hflight]
      exact (Nat.sub_le _ _).trans_lt (Nat.two_pow_pos 31)
    · intro seg hseg
      change seg ∈ c.written channel side at hseg
      rw [hwritten side] at hseg
      cases hseg
  reset side herror := by cases herror

/-- The channel becomes another one. -/
theorem Sound.withChannel (hs : s.Sound) {channel : c.State} (hready : c.Ready channel)
    (hwritten : c.written channel = c.written s.channel) :
    Sound { s with channel := channel } where
  ready := hready
  steady side := by
    change Steady (c.written channel side) (s.host side)
    rw [hwritten]
    exact hs.steady side
  reset := hs.reset

theorem host_become (s : Stack c) (side : Side) (h : Host) :
    (s.become side h).host side = h :=
  Function.update_self ..

/-- The other host stays as it is. -/
theorem host_become_other (s : Stack c) (side : Side) (h : Host) :
    (s.become side h).host side.other = s.host side.other :=
  Function.update_of_ne (Side.other_ne side) ..

/-- A host becomes another one. -/
theorem Sound.become (hs : s.Sound) {h' : Host}
    (hsteady : Steady (c.written s.channel side) h')
    (hmore : ∀ p ∈ (s.host side).packets, p ∈ h'.packets)
    (hreset : h'.conn.receiver.streamOut.error = true →
      (s.host side).conn.receiver.streamOut.error = true ∨
      (∃ p ∈ h'.packets, p.seg.header.rst = true) ∨
        ∃ p ∈ (s.host side.other).packets, p.seg.header.rst = true) :
    (s.become side h').Sound where
  ready := hs.ready
  steady side' := by
    by_cases hside : side' = side
    · subst hside
      simpa only [Stack.become, Function.update_self] using hsteady
    · simpa only [Stack.become, Function.update_of_ne hside] using hs.steady side'
  reset side' herror := by
    by_cases hside : side' = side
    · subst hside
      rw [host_become] at herror ⊢
      rw [host_become_other]
      rcases hreset herror with hold | hnew
      · exact (hs.reset side' hold).imp_left fun ⟨p, hp, hrst⟩ => ⟨p, hmore p hp, hrst⟩
      · exact hnew
    · obtain rfl : side' = side.other := Side.eq_other_of_ne hside
      rw [host_become_other] at herror ⊢
      rw [Side.other_other, host_become]
      have hold := hs.reset side.other herror
      rw [Side.other_other] at hold
      exact hold.imp_right fun ⟨p, hp, hrst⟩ => ⟨p, hmore p hp, hrst⟩

/-- A turn of a host is an event of the network. -/
theorem network_become {h' : Host} {e : Sponge.Event}
    (hmatch : h'.settled = (s.host side).settled.step (s.host side.other).packets e) :
    (s.become side h').network = s.network.step (side, e) := by
  cases side with
  | a =>
      simp only [network, Stack.become, Function.update_self, Network.step, hmatch]
      rfl
  | b =>
      simp only [network, Stack.become, Function.update_self, Network.step, hmatch]
      rfl

/-- The queue of a host does not show on the network. -/
theorem network_become_popped (rest : List TCPSegment) :
    (s.become side { s.host side with
      conn := { (s.host side).conn with segmentsOut := rest } }).network = s.network := by
  cases side with
  | a => simp [network, Stack.become, Host.settled]
  | b => simp [network, Stack.become, Host.settled]

/-- The network that a step of a host leads to. -/
abbrev Leads (s s' : Stack c) : Prop :=
  Reaches Network.step (Network.Allows Event.SeqnoOk) s.network s'.network

/-- An event at a host that the network has too. -/
theorem Sound.act (hs : s.Sound) {h' : Host} {e : Sponge.Event}
    (hmatch : h'.settled = (s.host side).settled.step (s.host side.other).packets e)
    (hallowed : e.Allowed (s.host side).settled) (hbounded : h'.Bounded)
    (hdelivers : e.Delivers (fun p => p.SeqnoNear (s.host side)) (s.host side.other).packets)
    (hqueue : ∀ seg ∈ h'.conn.segmentsOut, seg ∈ (s.host side).conn.segmentsOut ∨
      ∃ p ∈ h'.packets, p.seg = seg) :
    (s.become side h').Sound ∧ Leads s (s.become side h') := by
  have hsteady := hs.steady side
  obtain ⟨o, hturn, hbecomes⟩ : ∃ o, Turn (s.host side.other).packets (s.host side).settled e o
        h'.settled.conn.active h'.settled.conn.lingerAfterStreamsFinish ∧
      Becomes (s.host side).settled o h'.settled := by
    rw [hmatch]
    exact Host.step_turn (h := (s.host side).settled) rfl hsteady.quiet e hallowed
  have hold : (s.host side).settled.Modest :=
    ⟨hsteady.modest.sender, hsteady.modest.packets, hsteady.modest.resets⟩
  have hmodest := hold.becomes hturn hbecomes
  have hmore : ∀ p ∈ (s.host side).packets, p ∈ h'.packets := by
    intro p hp
    change p ∈ h'.settled.packets
    rw [hbecomes.packets_eq]
    exact List.mem_append_left _ hp
  have hkept : ∀ seg, (∃ p ∈ (s.host side).packets, p.seg = seg) →
      ∃ p ∈ h'.packets, p.seg = seg := fun seg ⟨p, hp, hpseg⟩ => ⟨p, hmore p hp, hpseg⟩
  refine ⟨hs.become ⟨?_, ⟨hmodest.sender, hmodest.packets, hmodest.resets⟩, hbounded, ?_, ?_⟩ hmore
    ?_, ?_⟩
  · exact congrArg TCPSender.segmentsOut hbecomes.sender_eq
  · intro seg hseg
    exact (hqueue seg hseg).elim (fun hseg => hkept seg (hsteady.queued seg hseg)) id
  · exact fun seg hseg => hkept seg (hsteady.written seg hseg)
  · intro herror
    change h'.settled.conn.receiver.streamOut.error = true at herror
    rw [hbecomes.receiver_eq] at herror
    refine (hturn.error herror).imp_right fun hnew => hnew.imp_left fun ⟨seg, hseg, hrst⟩ => ?_
    refine ⟨o.packet seg, ?_, hrst⟩
    change o.packet seg ∈ h'.settled.packets
    rw [hbecomes.packets_eq]
    exact List.mem_append_right _ (List.mem_map_of_mem hseg)
  · rw [Leads, network_become hmatch]
    have hsettled : Host.Bounded ((s.host side).settled.step (s.host side.other).packets e) := by
      rw [← hmatch]
      exact hbounded
    refine Reaches.single ?_
    cases side with
    | a => exact ⟨hallowed, hsettled, hdelivers⟩
    | b => exact ⟨hallowed, hsettled, hdelivers⟩

/-- An operation of the application, or a tick, at an active host. -/
theorem Sound.operate (hs : s.Sound) {f : TCPConnection → TCPConnection}
    (hf : TCPConnection.Appends f) {e : Sponge.Event}
    (hstep : (s.host side).settled.step (s.host side.other).packets e =
      (s.host side).settled.launch (f (s.host side).settled.conn))
    (hallowed : e.Allowed (s.host side).settled)
    (hdelivers : e.Delivers (fun p => p.SeqnoNear (s.host side)) (s.host side.other).packets)
    (hbounded : ((s.host side).enqueue (f (s.host side).conn)).Bounded) :
    (s.become side ((s.host side).enqueue (f (s.host side).conn))).Sound ∧
      Leads s (s.become side ((s.host side).enqueue (f (s.host side).conn))) :=
  hs.act ((Host.settled_enqueue hf).trans hstep.symm) hallowed hbounded hdelivers
    fun _ hseg => Host.mem_enqueue hf hseg

/-- A segment that arrives is one of the packets of the peer. -/
theorem Sound.arrive (hs : s.Sound) {x : c.Input} {seg : TCPSegment}
    (hinput : c.InputOk s.channel side x) (hread : (c.read s.channel side x).1 = some seg)
    (hactive : (s.host side).conn.active = true)
    (hbounded : ((s.host side).enqueue ((s.host side).conn.segmentReceived seg)).Bounded)
    (htimely : Timely (s.host side) (s.host side.other) seg) :
    (s.become side ((s.host side).enqueue ((s.host side).conn.segmentReceived seg))).Sound ∧
      Leads s (s.become side
        ((s.host side).enqueue ((s.host side).conn.segmentReceived seg))) := by
  obtain ⟨original, horiginal, hbare⟩ := c.authentic _ _ _ _ hs.ready hinput hread
  obtain ⟨p, hp, rfl⟩ := (hs.steady side.other).written original horiginal
  obtain ⟨q, hq, hcopy, hnear⟩ := htimely ⟨p, hp, hbare⟩
  obtain ⟨i, hi⟩ := List.getElem?_of_mem hq
  have hsame : ∀ conn : TCPConnection, conn.segmentReceived seg = conn.segmentReceived q.seg := by
    intro conn
    rw [← conn.segmentReceived_bare seg, hcopy, conn.segmentReceived_bare]
  refine hs.operate (e := .deliver i) (TCPConnection.appends_segmentReceived seg) ?_ hactive ?_
    hbounded
  · simp only [Host.step, hi, hsame]
  · intro q' hq'
    rw [hi] at hq'
    cases hq'
    exact hnear

/-- A host reads from the channel, and what is returned arrives. -/
theorem Sound.receive (hs : s.Sound) {x : c.Input} (hok : Event.Ok s (.arrive side x)) :
    (s.step (.arrive side x)).Sound ∧ Leads s (s.step (.arrive side x)) := by
  obtain ⟨hinput, hsegment⟩ := hok
  have hready := c.ready_read _ _ _ hs.ready hinput
  have hwritten := c.written_read s.channel side x
  cases hread : c.read s.channel side x with
  | mk returned channel =>
      rw [hread] at hready hwritten
      cases returned with
      | none =>
          simp only [Stack.step, hread]
          exact ⟨hs.withChannel hready hwritten, Reaches.refl _⟩
      | some seg =>
          have hfirst : (c.read s.channel side x).1 = some seg := by rw [hread]
          obtain ⟨hactive, hbounded, htimely⟩ := hsegment seg hfirst
          simp only [Stack.step, hread] at hbounded ⊢
          change (Stack.host (s.become side _) side).Bounded at hbounded
          rw [host_become] at hbounded
          obtain ⟨hsound, hleads⟩ := hs.arrive hinput hfirst hactive hbounded htimely
          exact ⟨hsound.withChannel hready hwritten, hleads⟩

/-- One of the packets of a side is written to the channel. -/
theorem Sound.written (hs : s.Sound) {p : Packet} (hp : p ∈ (s.host side).packets) :
    Sound { s with channel := c.write s.channel side p.seg } where
  ready := c.ready_write _ _ _ hs.ready ((hs.steady side).modest.packets p hp).sized
  steady side' := by
    change Steady (c.written (c.write s.channel side p.seg) side') (s.host side')
    have hsteady := hs.steady side'
    rw [c.written_write]
    split
    · rename_i hside
      subst hside
      refine ⟨hsteady.quiet, hsteady.modest, hsteady.bounded, hsteady.queued, ?_⟩
      intro seg hseg
      rcases List.mem_append.mp hseg with hseg | hseg
      · exact hsteady.written seg hseg
      · exact ⟨p, hp, (List.mem_singleton.mp hseg).symm⟩
    · exact hsteady
  reset := hs.reset

/-- The first segment of the queue is written to the channel. -/
theorem Sound.transmit (hs : s.Sound) {seg : TCPSegment} {rest : List TCPSegment}
    (hqueue : (s.host side).conn.segmentsOut = seg :: rest) :
    Sound { s.become side { s.host side with
        conn := { (s.host side).conn with segmentsOut := rest } } with
      channel := c.write s.channel side seg } := by
  have hsteady := hs.steady side
  obtain ⟨p, hp, rfl⟩ := hsteady.queued seg (by rw [hqueue]; exact List.mem_cons_self)
  have hpopped : (s.become side { s.host side with
      conn := { (s.host side).conn with segmentsOut := rest } }).Sound := by
    refine hs.become ⟨hsteady.quiet,
      ⟨hsteady.modest.sender, hsteady.modest.packets, hsteady.modest.resets⟩, hsteady.bounded, ?_,
      hsteady.written⟩ (fun _ hp => hp) Or.inl
    intro seg hseg
    refine hsteady.queued seg ?_
    rw [hqueue]
    exact List.mem_cons_of_mem _ hseg
  refine hpopped.written ?_
  rw [host_become]
  exact hp

/-- An event on the channel is an event of the network, or does not show there. -/
theorem Sound.step (hs : s.Sound) {e : Event c} (hok : e.Ok s) :
    (s.step e).Sound ∧ Leads s (s.step e) := by
  cases e with
  | connect side =>
      obtain ⟨hactive, hbounded⟩ := hok
      rw [Stack.step, host_become] at hbounded
      exact hs.operate (e := .connect) TCPConnection.appends_connect rfl hactive trivial hbounded
  | write side data =>
      obtain ⟨hactive, hbounded⟩ := hok
      rw [Stack.step, host_become] at hbounded
      have hmatch := Host.settled_enqueue (h := s.host side) (TCPConnection.appends_write data)
      refine hs.act (e := .write data) ?_ hactive hbounded trivial fun seg hseg =>
        Host.mem_enqueue (TCPConnection.appends_write data) hseg
      exact congrArg (fun h : Host => { h with
        wrote := (s.host side).wrote ++ data.take ((s.host side).conn.write data).2 }) hmatch
  | endInputStream side =>
      obtain ⟨hactive, hbounded⟩ := hok
      rw [Stack.step, host_become] at hbounded
      exact hs.operate (e := .endInputStream) TCPConnection.appends_endInputStream rfl hactive
        trivial hbounded
  | read side len =>
      exact hs.act (e := .read len) rfl trivial (hs.steady side).bounded trivial
        fun _ hseg => Or.inl hseg
  | tick side ms =>
      obtain ⟨hactive, hbounded⟩ := hok
      have hhost := host_become s side ((s.host side).enqueue ((s.host side).conn.tick ms))
      change (Stack.host (s.become side _) side).Bounded at hbounded
      rw [hhost] at hbounded
      obtain ⟨hsound, hleads⟩ := hs.operate (e := .tick ms) (TCPConnection.appends_tick ms) rfl
        hactive trivial hbounded
      exact ⟨hsound.withChannel (c.ready_tick _ _ _ hs.ready) (c.written_tick _ _ _), hleads⟩
  | arrive side x => exact hs.receive hok
  | drop side x =>
      exact ⟨hs.withChannel (c.ready_read _ _ _ hs.ready hok) (c.written_read _ _ _),
        Reaches.refl _⟩
  | transmit side =>
      cases hqueue : (s.host side).conn.segmentsOut with
      | nil =>
          simp only [Stack.step, hqueue]
          exact ⟨hs, Reaches.refl _⟩
      | cons seg rest =>
          simp only [Stack.step, hqueue]
          refine ⟨hs.transmit hqueue, ?_⟩
          change Reaches _ _ s.network (network (s.become side _))
          rw [network_become_popped]
          exact Reaches.refl _
  | other e =>
      exact ⟨hs.withChannel (c.ready_other _ _ hs.ready hok) (c.written_other _ _ hok),
        Reaches.refl _⟩

/-! ## Runs -/

/-- What a host of a network has received is a part of what its peer has written. -/
theorem isPrefix_of_linked (hlinked : Linked s.network.a s.network.b) (side : Side) :
    (s.host side).received <+: (s.host side.other).wrote := by
  cases side with
  | a =>
      obtain ⟨_, _, hlink⟩ := hlinked.symm
      exact hlink.received_isPrefix_wrote
  | b =>
      obtain ⟨_, _, hlink⟩ := hlinked
      exact hlink.received_isPrefix_wrote

section Runs

variable {channel : c.State} {cfg : Side → TCPConfig} {random : Side → UInt32}
  {events : List (Event c)}

/-- Every run on a channel is a run of the network. -/
theorem sound_run (hs : s.Sound) (hrun : Admissible step Event.Ok s events) :
    (run step s events).Sound ∧ Leads s (run step s events) :=
  hrun.simulated (fun _ _ hs hok => hs.step hok) hs

/-- Two hosts on a channel are linked as two hosts of a network are. -/
theorem linked_run (hready : c.Ready channel) (hwritten : ∀ side, c.written channel side = [])
    (hcapacity : ∀ side, (cfg side).recvCapacity < 2 ^ 63)
    (hrun : Admissible step Event.Ok (new channel cfg random) events) :
    Linked (run step (new channel cfg random) events).network.a
      (run step (new channel cfg random) events).network.b := by
  obtain ⟨trace, hadm, hend⟩ := (sound_run (sound_new hready hwritten cfg random) hrun).2
  rw [← hend]
  exact Network.invariant (I := Linked) (fun _ _ h => h.symm) (fun _ _ _ h hok => h.step hok)
    ⟨[], [], link_new _ _ _ _ (hcapacity .a) (hcapacity .b)⟩ hadm

/-- What a host on a channel has received is the beginning of what its peer has written. -/
theorem received_isPrefix_wrote (hready : c.Ready channel)
    (hwritten : ∀ side, c.written channel side = [])
    (hcapacity : ∀ side, (cfg side).recvCapacity < 2 ^ 63)
    (hrun : Admissible step Event.Ok (new channel cfg random) events) (side : Side) :
    ((run step (new channel cfg random) events).host side).received <+:
      ((run step (new channel cfg random) events).host side.other).wrote :=
  isPrefix_of_linked (linked_run hready hwritten hcapacity hrun) side

end Runs

end Stack
end Sponge
