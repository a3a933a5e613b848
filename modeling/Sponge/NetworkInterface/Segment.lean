import Sponge.Library.Execution
import Sponge.NetworkInterface.Runs

/-!
# Interfaces on one segment

Any number of interfaces share a segment.  Every frame ever emitted may arrive at any of
the interfaces, any number of times and in any order, with its payload gathered into one
buffer.

An interface cannot tell a true ARP message from a forged one, so nothing can be said
about one interface alone.  The invariant is about all of them: every mapping that an
interface has learned, and every ARP message on the segment, names the Ethernet address of
the interface that owns the IP address.

Main results:

- Theorems {lit}`Truthful.sendDatagram` and {lit}`Truthful.recvFrame`: the calls keep the
  mappings of an interface true.
- Theorem {lit}`Segment.Sound.step`: an event keeps the segment sound.
- Theorem {lit}`no_misdelivery`: an interface only returns datagrams that were submitted with its
  own IP address as the next hop.
-/

namespace Sponge
namespace NetworkInterface

open Library

/-- The frame as it arrives, with its payload in one buffer. -/
def gathered (frame : EthernetFrame) : EthernetFrame :=
  { frame with payload := BufferList.ofBuffer frame.payload.concatenate }

/-! ## One interface among honest frames -/

section Truthful

-- who owns an IP address, and which datagrams were submitted for it
variable {owner : UInt32 → EthernetAddress → Prop} {sent : UInt32 → IPv4Datagram → Prop}

/-- A frame as interfaces with true mappings emit it. -/
inductive Honest (owner : UInt32 → EthernetAddress → Prop)
    (sent : UInt32 → IPv4Datagram → Prop) (frame : EthernetFrame) : Prop where
  | datagram (ip : UInt32) (dgram : IPv4Datagram)
      (htype : frame.header.type = EthernetHeader.typeIPv4)
      (howner : owner ip frame.header.dst) (hsent : sent ip dgram)
      (hpayload : dgram.serialize = .ok frame.payload)
  | arp (message : ARPMessage) (htype : frame.header.type = EthernetHeader.typeARP)
      (howner : owner message.senderIpAddress message.senderEthernetAddress)
      (hsupported : message.supported = true)
      (hpayload : frame.payload = BufferList.ofBuffer message.fields)

/-- The interface with the Ethernet address `address`, whose mappings are true. -/
structure Truthful (owner : UInt32 → EthernetAddress → Prop)
    (sent : UInt32 → IPv4Datagram → Prop) (address : EthernetAddress) (n : NetworkInterface) :
    Prop where
  address_eq : n.ethernetAddress = address
  owns : owner n.ipAddress.ipv4Numeric n.ethernetAddress
  mapped : ∀ ip time, n.cacheTime ip = some time → owner ip (n.ipToEthernetCache ip)
  waiting : ∀ ip, ∀ dgram ∈ n.unsentDatagram ip, sent ip dgram
  honest : ∀ frame ∈ n.framesOut, Honest owner sent frame

variable {address : EthernetAddress} {n : NetworkInterface}

theorem Honest.mono {sent' : UInt32 → IPv4Datagram → Prop}
    (hsent : ∀ ip dgram, sent ip dgram → sent' ip dgram) {frame : EthernetFrame}
    (h : Honest owner sent frame) : Honest owner sent' frame := by
  cases h with
  | datagram ip dgram htype howner hdgram hpayload =>
      exact .datagram ip dgram htype howner (hsent ip dgram hdgram) hpayload
  | arp message htype howner hsupported hpayload =>
      exact .arp message htype howner hsupported hpayload

theorem Truthful.mono {sent' : UInt32 → IPv4Datagram → Prop}
    (hsent : ∀ ip dgram, sent ip dgram → sent' ip dgram) (h : Truthful owner sent address n) :
    Truthful owner sent' address n where
  address_eq := h.address_eq
  owns := h.owns
  mapped := h.mapped
  waiting ip dgram hdgram := hsent ip dgram (h.waiting ip dgram hdgram)
  honest frame hframe := (h.honest frame hframe).mono hsent

/-- The frames are taken away. -/
theorem Truthful.drained (h : Truthful owner sent address n) :
    Truthful owner sent address { n with framesOut := [] } where
  address_eq := h.address_eq
  owns := h.owns
  mapped := h.mapped
  waiting := h.waiting
  honest _ hframe := absurd hframe List.not_mem_nil

/-- What an honest ARP message says is true. -/
theorem Honest.heard {frame : EthernetFrame} {message : ARPMessage}
    (h : Honest owner sent frame) (hheard : heard (gathered frame) = some message) :
    owner message.senderIpAddress message.senderEthernetAddress := by
  cases h with
  | datagram ip dgram htype howner hsent hpayload =>
      have hother : (gathered frame).header.type ≠ EthernetHeader.typeARP := by
        change frame.header.type ≠ _
        rw [htype]
        decide
      rw [NetworkInterface.heard, if_neg hother] at hheard
      cases hheard
  | arp original htype howner hsupported hpayload =>
      have hparse := ARPMessage.parse_serialize hsupported {}
      have hbuffer : (gathered frame).payload.toBuffer = .ok original.fields := by
        simp [gathered, hpayload]
      have htype' : (gathered frame).header.type = EthernetHeader.typeARP := htype
      simp only [NetworkInterface.heard, if_pos htype', hbuffer, hparse, if_true,
        Option.some.injEq] at hheard
      rwa [← hheard]

/-- The frame of a datagram is honest. -/
theorem honest_datagramFrame {ip : UInt32} {dst src : EthernetAddress} {dgram : IPv4Datagram}
    {payload : BufferList} (howner : owner ip dst) (hsent : sent ip dgram)
    (hpayload : dgram.serialize = .ok payload) :
    Honest owner sent ⟨⟨dst, src, EthernetHeader.typeIPv4⟩, payload⟩ :=
  .datagram ip dgram rfl howner hsent hpayload

/-- A mapping that is current is true. -/
theorem Truthful.cached (h : Truthful owner sent address n) {ip : UInt32}
    (hcached : n.cached ip = true) : owner ip (n.ipToEthernetCache ip) := by
  unfold NetworkInterface.cached at hcached
  split at hcached
  · rename_i time htime
    exact h.mapped ip time htime
  · cases hcached

/-- A submitted datagram goes to the owner of its next hop, or waits. -/
theorem Truthful.sendDatagram (h : Truthful owner sent address n) {dgram : IPv4Datagram}
    {nextHop : Address} (hdgram : dgram.WellFormed) (hsent : sent nextHop.ipv4Numeric dgram) :
    Truthful owner sent address (n.sendDatagram dgram nextHop).2 := by
  cases hcached : n.cached nextHop.ipv4Numeric with
  | true =>
      have hpayload := IPv4Datagram.serialize_wellFormed hdgram
      rw [sendDatagram_cached hcached hpayload]
      refine ⟨h.address_eq, h.owns, h.mapped, h.waiting, ?_⟩
      intro frame hframe
      rcases List.mem_append.mp hframe with hframe | hframe
      · exact h.honest frame hframe
      · rw [List.mem_singleton.mp hframe]
        exact honest_datagramFrame (h.cached hcached) hsent hpayload
  | false =>
      rw [sendDatagram_queued dgram nextHop hcached]
      refine ⟨h.address_eq, h.owns, h.mapped, ?_, ?_⟩
      · intro ip d hd
        rw [unsentDatagram_queued, List.mem_append] at hd
        rcases hd with hd | hd
        · exact h.waiting ip d hd
        · split at hd
          · rename_i hip
            rw [List.mem_singleton.mp hd, ← hip]
            exact hsent
          · cases hd
      · intro frame hframe
        rcases List.mem_append.mp hframe with hframe | hframe
        · exact h.honest frame hframe
        · split at hframe
          · rw [List.mem_singleton.mp hframe]
            exact .arp (n.arpRequest nextHop.ipv4Numeric) rfl h.owns (supported_arpRequest n _) rfl
          · cases hframe

/-- A true ARP message is learned, and the datagrams that waited for it go to its sender. -/
theorem Truthful.answered (h : Truthful owner sent address n) {message : ARPMessage}
    (howner : owner message.senderIpAddress message.senderEthernetAddress)
    {payloads : List BufferList}
    (hpayloads : (n.unsentDatagram message.senderIpAddress).map IPv4Datagram.serialize =
      payloads.map Except.ok) :
    Truthful owner sent address (n.answered message payloads) := by
  refine ⟨h.address_eq, h.owns, ?_, ?_, ?_⟩
  · intro ip time htime
    by_cases hip : ip = message.senderIpAddress
    · subst hip
      simpa [NetworkInterface.answered, learn] using howner
    · simp only [NetworkInterface.answered, learn, Function.update_of_ne hip] at htime ⊢
      exact h.mapped ip time htime
  · intro ip dgram hdgram
    rw [unsentDatagram_answered] at hdgram
    split at hdgram
    · cases hdgram
    · exact h.waiting ip dgram hdgram
  · intro frame hframe
    simp only [NetworkInterface.answered, List.mem_append, List.mem_map] at hframe
    rcases hframe with (hframe | ⟨payload, hpayload, rfl⟩) | hframe
    · exact h.honest frame hframe
    · -- the payload is that of a datagram that was waiting
      have hmem : (Except.ok payload : Except String BufferList) ∈ payloads.map Except.ok :=
        List.mem_map_of_mem hpayload
      rw [← hpayloads, List.mem_map] at hmem
      obtain ⟨dgram, hdgram, hserialize⟩ := hmem
      exact honest_datagramFrame howner (h.waiting _ dgram hdgram) hserialize
    · split at hframe
      · rw [List.mem_singleton.mp hframe]
        exact .arp (n.arpReply message) rfl h.owns (supported_arpReply n message) rfl
      · cases hframe

/-- An honest frame leaves the mappings true. -/
theorem Truthful.recvFrame (h : Truthful owner sent address n)
    (hgood : ∀ ip dgram, sent ip dgram → dgram.WellFormed) {frame : EthernetFrame}
    (hframe : Honest owner sent frame) :
    Truthful owner sent address (n.recvFrame (gathered frame)).2 := by
  cases hheard : NetworkInterface.heard (gathered frame) with
  | none =>
      rw [recvFrame_unheard hheard]
      exact h
  | some message =>
      obtain ⟨payloads, hpayloads⟩ := IPv4Datagram.exists_payloads fun dgram hdgram =>
        (hgood _ dgram (h.waiting message.senderIpAddress dgram hdgram)).serializable
      rw [recvFrame_heard hheard, recvArp_eq message payloads hpayloads]
      exact h.answered (hframe.heard hheard) hpayloads

/-- A datagram taken from an honest frame was submitted for this interface. -/
theorem Honest.received {frame : EthernetFrame} {dgram : IPv4Datagram}
    (h : Honest owner sent frame)
    (hgood : ∀ ip dgram, sent ip dgram →
      dgram.WellFormed ∧ dgram.header.offset.toNat < 2 ^ 13)
    (hrecv : (n.recvFrame (gathered frame)).1 = .ok (some dgram)) :
    ∃ ip original, owner ip n.ethernetAddress ∧ sent ip original ∧
      dgram = ⟨original.headerOut, BufferList.ofBuffer original.payload.concatenate⟩ := by
  obtain ⟨htype, hdst, buffer, hbuffer, hparse⟩ := recvFrame_datagram hrecv
  cases h with
  | datagram ip original _ howner hsent hpayload =>
      obtain ⟨hwell, hoffset⟩ := hgood ip original hsent
      have hback := IPv4Datagram.parse_serialize hwell hoffset hpayload {}
      have hsame : frame.payload.concatenate = buffer := by
        simpa [gathered] using hbuffer
      rw [← hsame, hback, Prod.mk.injEq] at hparse
      exact ⟨ip, original, hdst ▸ howner, hsent, hparse.2.symm⟩
  | arp message htype' =>
      change frame.header.type = _ at htype
      rw [htype] at htype'
      exact absurd htype' (by decide)

end Truthful

/-! ## The segment -/

/-- Interfaces, every frame they have emitted, and the datagrams submitted to them with
their next hops. -/
structure Segment (ι : Type) where
  interface : ι → NetworkInterface
  wire : List EthernetFrame
  submitted : List (Address × IPv4Datagram)

namespace Segment

variable {ι : Type}

/-- What happens at an interface. -/
inductive Event (ι : Type) where
  | sendDatagram (i : ι) (dgram : IPv4Datagram) (nextHop : Address)
  | tick (i : ι) (msSinceLastTick : UInt64)
  | deliver (i : ι) (index : Nat)
deriving DecidableEq, Repr

/-- Fresh interfaces. -/
def new (ethernetAddress : ι → EthernetAddress) (ipAddress : ι → Address) : Segment ι where
  interface i := NetworkInterface.new (ethernetAddress i) (ipAddress i)
  wire := []
  submitted := []

/-- Interface `i` becomes `n`, whose frames go onto the wire. -/
def become [DecidableEq ι] (s : Segment ι) (i : ι) (n : NetworkInterface) : Segment ι :=
  { s with
    interface := Function.update s.interface i { n with framesOut := [] }
    wire := s.wire ++ n.framesOut }

/-- An event at an interface. -/
def step [DecidableEq ι] (s : Segment ι) : Event ι → Segment ι
  | .sendDatagram i dgram nextHop =>
      { s.become i ((s.interface i).sendDatagram dgram nextHop).2 with
        submitted := s.submitted ++ [(nextHop, dgram)] }
  | .tick i ms => s.become i ((s.interface i).tick ms)
  | .deliver i index =>
      match s.wire[index]? with
      | some frame => s.become i ((s.interface i).recvFrame (gathered frame)).2
      | none => s

/-- Datagrams are well formed, with an offset that fits its field. -/
def Event.Legal : Event ι → Prop
  | .sendDatagram _ dgram _ => dgram.WellFormed ∧ dgram.header.offset.toNat < 2 ^ 13
  | .tick _ _ => True
  | .deliver _ _ => True

instance : ∀ e : Event ι, Decidable e.Legal
  | .sendDatagram _ _ _ => inferInstanceAs (Decidable (_ ∧ _))
  | .tick _ _ => inferInstanceAs (Decidable True)
  | .deliver _ _ => inferInstanceAs (Decidable True)

variable (ethernetAddress : ι → EthernetAddress) (ipAddress : ι → Address)

/-- The IP address and the Ethernet address belong to one interface. -/
def Owner (ip : UInt32) (address : EthernetAddress) : Prop :=
  ∃ i, (ipAddress i).ipv4Numeric = ip ∧ ethernetAddress i = address

/-- The datagram was submitted with the next hop `ip`. -/
def Sent (s : Segment ι) (ip : UInt32) (dgram : IPv4Datagram) : Prop :=
  ∃ nextHop, nextHop.ipv4Numeric = ip ∧ (nextHop, dgram) ∈ s.submitted

/-- Interfaces keep their addresses, their mappings are true, and the wire is honest. -/
structure Sound (s : Segment ι) : Prop where
  truthful : ∀ i,
    Truthful (Owner ethernetAddress ipAddress) s.Sent (ethernetAddress i) (s.interface i)
  honest : ∀ frame ∈ s.wire, Honest (Owner ethernetAddress ipAddress) s.Sent frame
  good : ∀ ip dgram, s.Sent ip dgram →
    dgram.WellFormed ∧ dgram.header.offset.toNat < 2 ^ 13

variable {ethernetAddress ipAddress}

theorem sound_new : Sound ethernetAddress ipAddress (new ethernetAddress ipAddress) where
  truthful i :=
    { address_eq := rfl
      owns := ⟨i, rfl, rfl⟩
      mapped := fun _ _ h => by cases h
      waiting := fun _ _ h => absurd h List.not_mem_nil
      honest := fun _ h => absurd h List.not_mem_nil }
  honest _ h := absurd h List.not_mem_nil
  good _ _ h := by
    obtain ⟨_, _, h⟩ := h
    exact absurd h List.not_mem_nil

variable {s : Segment ι}

/-- One more datagram is submitted. -/
theorem Sound.submit (h : Sound ethernetAddress ipAddress s) {dgram : IPv4Datagram}
    (nextHop : Address) (hdgram : dgram.WellFormed ∧ dgram.header.offset.toNat < 2 ^ 13) :
    Sound ethernetAddress ipAddress { s with submitted := s.submitted ++ [(nextHop, dgram)] } := by
  have hmono : ∀ ip d, s.Sent ip d →
      Sent { s with submitted := s.submitted ++ [(nextHop, dgram)] } ip d := by
    rintro ip d ⟨hop, hip, hmem⟩
    exact ⟨hop, hip, List.mem_append_left _ hmem⟩
  refine ⟨fun i => (h.truthful i).mono hmono,
    fun frame hframe => (h.honest frame hframe).mono hmono, ?_⟩
  rintro ip d ⟨hop, hip, hmem⟩
  rcases List.mem_append.mp hmem with hmem | hmem
  · exact h.good ip d ⟨hop, hip, hmem⟩
  · rw [List.mem_singleton, Prod.mk.injEq] at hmem
    rw [hmem.2]
    exact hdgram

variable [DecidableEq ι]

/-- An interface may become another with true mappings. -/
theorem Sound.become (h : Sound ethernetAddress ipAddress s) {i : ι} {n : NetworkInterface}
    (hn : Truthful (Owner ethernetAddress ipAddress) s.Sent (ethernetAddress i) n) :
    Sound ethernetAddress ipAddress (s.become i n) := by
  refine ⟨?_, ?_, h.good⟩
  · intro j
    change Truthful _ s.Sent _ (Function.update s.interface i _ j)
    by_cases hj : j = i
    · subst hj
      rw [Function.update_self]
      exact hn.drained
    · rw [Function.update_of_ne hj]
      exact h.truthful j
  · intro frame hframe
    rcases List.mem_append.mp hframe with hframe | hframe
    · exact h.honest frame hframe
    · exact hn.honest frame hframe

/-- An event keeps the segment sound. -/
theorem Sound.step (h : Sound ethernetAddress ipAddress s) {e : Event ι} (he : e.Legal) :
    Sound ethernetAddress ipAddress (s.step e) := by
  cases e with
  | sendDatagram i dgram nextHop =>
      have hs := h.submit nextHop he
      exact hs.become ((hs.truthful i).sendDatagram he.1
        ⟨nextHop, rfl, List.mem_append_right _ (List.mem_singleton_self _)⟩)
  | tick i ms =>
      have hi := h.truthful i
      exact h.become ⟨hi.address_eq, hi.owns, hi.mapped, hi.waiting, hi.honest⟩
  | deliver i index =>
      cases hframe : s.wire[index]? with
      | none => simpa [Segment.step, hframe] using h
      | some frame =>
          simp only [Segment.step, hframe]
          exact h.become ((h.truthful i).recvFrame (fun ip d hd => (h.good ip d hd).1)
            (h.honest frame (List.mem_of_getElem? hframe)))

end Segment

/-- A datagram that an interface returns was submitted with the address of this interface as
its next hop, and has arrived with its header, up to the checksum, and its payload. -/
theorem no_misdelivery {ι : Type} [DecidableEq ι] (ethernetAddress : ι → EthernetAddress)
    (ipAddress : ι → Address) (hethernet : Function.Injective ethernetAddress)
    (events : List (Segment.Event ι))
    (hevents : Admissible Segment.step (fun _ e => e.Legal)
      (Segment.new ethernetAddress ipAddress) events) (i : ι) (frame : EthernetFrame)
    (dgram : IPv4Datagram) :
    let s := run Segment.step (Segment.new ethernetAddress ipAddress) events
    frame ∈ s.wire → ((s.interface i).recvFrame (gathered frame)).1 = .ok (some dgram) →
    ∃ nextHop original, (nextHop, original) ∈ s.submitted ∧
      nextHop.ipv4Numeric = (ipAddress i).ipv4Numeric ∧
      dgram.header.withCksum 0 = original.header.withCksum 0 ∧
      dgram.payload.concatenate = original.payload.concatenate := by
  intro s hframe hrecv
  have h : Segment.Sound ethernetAddress ipAddress s :=
    hevents.invariant (fun _ _ hs he => hs.step he) Segment.sound_new
  obtain ⟨ip, original, ⟨j, hip, haddress⟩, ⟨nextHop, hhop, hmem⟩, rfl⟩ :=
    (h.honest frame hframe).received h.good hrecv
  rw [(h.truthful i).address_eq] at haddress
  rw [hethernet haddress] at hip
  exact ⟨nextHop, original, hmem, hhop.trans hip.symm, rfl, by simp⟩

/-- A datagram crosses the segment after a request and a reply. -/
theorem no_misdelivery_two :
    let address : Bool → EthernetAddress := fun i =>
      if i then ⟨[2, 0, 0, 0, 0, 1], rfl⟩ else ⟨[2, 0, 0, 0, 0, 2], rfl⟩
    let ip : Bool → Address := fun i => if i then ⟨5, 0⟩ else ⟨9, 0⟩
    let original : IPv4Datagram := ⟨{ len := 21 }, .ofBuffer [7]⟩
    let events : List (Segment.Event Bool) :=
      [.sendDatagram true original ⟨9, 0⟩, .deliver false 0, .deliver true 1]
    let s := run Segment.step (Segment.new address ip) events
    let frame : EthernetFrame := ⟨⟨address false, address true, EthernetHeader.typeIPv4⟩,
      ⟨[original.headerOut.fields, [7]]⟩⟩
    let dgram : IPv4Datagram := ⟨original.headerOut, .ofBuffer [7]⟩
    frame ∈ s.wire ∧ ((s.interface false).recvFrame (gathered frame)).1 = .ok (some dgram) ∧
      ∃ nextHop original, (nextHop, original) ∈ s.submitted ∧
        nextHop.ipv4Numeric = (ip false).ipv4Numeric ∧
        dgram.header.withCksum 0 = original.header.withCksum 0 ∧
        dgram.payload.concatenate = original.payload.concatenate := by
  intro address ip original events s frame dgram
  have hframe : frame ∈ s.wire := by decide +kernel
  have hrecv : ((s.interface false).recvFrame (gathered frame)).1 = .ok (some dgram) := by
    decide +kernel
  have hs : run Segment.step (Segment.new address ip) events = s := rfl
  have hall := no_misdelivery address ip (by decide) events (by decide +kernel) false frame dgram
  rw [hs] at hall
  clear_value s frame dgram
  exact ⟨hframe, hrecv, hall hframe hrecv⟩

end NetworkInterface
end Sponge
