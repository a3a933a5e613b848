import Sponge.Library.Execution
import Sponge.Router.Forwarding

/-!
# Exceptions of the router

Frames arrive at the interfaces of a router, time passes, and `route()` is called.  A call
throws only where a datagram is serialised: in `send_datagram` when there is a current
mapping, and otherwise in the `recv_frame` that brings the mapping.  `IPv4Datagram::parse`
does not look at the result of `IPv4Header::parse`, so it accepts a version or a header length
that `IPv4Header::serialize` refuses.

Main results:

- Theorem {lit}`serializable_of_parse`: which accepted datagrams can be serialised again.
- Theorem {lit}`Calm.call`: a call on acceptable frames throws nothing.
- Theorem {lit}`no_call_throws`: the same for every run.
- Theorem {lit}`unsound_datagram_throws`: a frame that makes the router throw.
-/

namespace Sponge
namespace Router

open Library

/-! ## Calls -/

/-- What happens at a router. -/
inductive Event where
  | recvFrame (i : Nat) (frame : EthernetFrame)
  | tick (i : Nat) (msSinceLastTick : UInt64)
  | route
deriving DecidableEq, Repr

/-- `interface(i).recv_frame(frame)`; `vector::at` throws when there is no interface `i`. -/
def recvFrameAt (r : Router) (i : Nat) (frame : EthernetFrame) : Except String Unit × Router :=
  match r.interfaces[i]? with
  | none => (.error "vector::_M_range_check", r)
  | some n =>
      let (result, n) := n.recvFrame frame
      (result, { r with interfaces := r.interfaces.set i n })

/-- `interface(i).tick(ms_since_last_tick)`. -/
def tickAt (r : Router) (i : Nat) (ms : UInt64) : Except String Unit × Router :=
  match r.interfaces[i]? with
  | none => (.error "vector::_M_range_check", r)
  | some n => (.ok (), { r with interfaces := r.interfaces.set i (n.tick ms) })

/-- The call of an event. -/
def call (shift32 : UInt32 → UInt32) (r : Router) : Event → Except String Unit × Router
  | .recvFrame i frame => r.recvFrameAt i frame
  | .tick i ms => r.tickAt i ms
  | .route => r.route shift32

/-- The router behind a call. -/
def step (shift32 : UInt32 → UInt32) (r : Router) (e : Event) : Router :=
  (r.call shift32 e).2

/-- The interface exists, and the frame is in one buffer. -/
def Event.Legal (r : Router) : Event → Prop
  | .recvFrame i frame => i < r.interfaces.length ∧ frame.payload.buffers.length = 1
  | .tick i _ => i < r.interfaces.length
  | .route => True

instance (r : Router) : ∀ e, Decidable (Event.Legal r e)
  | .recvFrame _ _ => inferInstanceAs (Decidable (_ ∧ _))
  | .tick _ _ => inferInstanceAs (Decidable (_ < _))
  | .route => inferInstanceAs (Decidable True)

/-- A datagram that the router drops or can serialise again. -/
def Passable (rules : List Rule) (dgram : IPv4Datagram) : Prop :=
  dgram.header.ttl.toNat ≤ 1 ∨ (∀ rule ∈ rules, ¬ rule.Matches dgram.header.dst) ∨
    dgram.header.Sound

instance (rules : List Rule) (dgram : IPv4Datagram) : Decidable (Passable rules dgram) :=
  inferInstanceAs (Decidable (_ ∨ _ ∨ _))

/-- If the frame is an IPv4 frame for the interface and its payload parses, the datagram in it is
passable. -/
def Event.Brings (rules : List Rule) (r : Router) : Event → Prop
  | .recvFrame i frame =>
      ∀ n ∈ r.interfaces[i]?, frame.header.type = EthernetHeader.typeIPv4 →
        frame.header.dst = n.ethernetAddress → ∀ buffer ∈ frame.payload.toBuffer.toOption,
          (({} : IPv4Datagram).parse buffer).1 = .noError →
            Passable rules (({} : IPv4Datagram).parse buffer).2
  | _ => True

instance (rules : List Rule) (r : Router) : ∀ e, Decidable (Event.Brings rules r e)
  | .recvFrame _ _ => inferInstanceAs (Decidable (∀ _ ∈ _, _ → _ → ∀ _ ∈ _, _ → _))
  | .tick _ _ => inferInstanceAs (Decidable True)
  | .route => inferInstanceAs (Decidable True)

/-! ## What can be serialised -/

/-- The time to live does not matter for serialisation. -/
theorem serializable_decrementTtl (dgram : IPv4Datagram) :
    (decrementTtl dgram).Serializable ↔ dgram.Serializable := by
  rw [IPv4Datagram.serializable_iff, IPv4Datagram.serializable_iff]
  rfl

/-- An accepted datagram can be serialised again if and only if its version and its header
length are sound. -/
theorem serializable_of_parse {old dgram : IPv4Datagram} {buffer : Buffer}
    (h : old.parse buffer = (.noError, dgram)) :
    (decrementTtl dgram).Serializable ↔ dgram.header.Sound := by
  rw [serializable_decrementTtl, IPv4Datagram.serializable_iff]
  exact and_iff_right (IPv4Datagram.size_of_parse h)

/-! ## The invariant -/

/-- A queued datagram is dropped or can be serialised. -/
def Harmless (rules : List Rule) (dgram : IPv4Datagram) : Prop :=
  dgram.header.ttl.toNat ≤ 1 ∨ (∀ rule ∈ rules, ¬ rule.Matches dgram.header.dst) ∨
    (decrementTtl dgram).Serializable

/-- An interface at which no call throws. -/
structure CalmInterface (rules : List Rule) (n : AsyncNetworkInterface) : Prop where
  waiting : ∀ ip, ∀ dgram ∈ n.unsentDatagram ip, dgram.Serializable
  queued : ∀ dgram ∈ n.datagramsOut, Harmless rules dgram

/-- A router at which no call throws. -/
structure Calm (rules : List Rule) (r : Router) : Prop where
  obeys : Obeys rules r
  calm : ∀ n ∈ r.interfaces, CalmInterface rules n

variable {rules : List Rule} {r : Router}

/-- One interface is exchanged for a calm one. -/
theorem Calm.set (h : Calm rules r) (i : Nat) {n : AsyncNetworkInterface}
    (hn : CalmInterface rules n) :
    Calm rules { r with interfaces := r.interfaces.set i n } where
  obeys :=
    { table := h.obeys.table
      valid := fun rule hrule => by
        rw [List.length_set]
        exact h.obeys.valid rule hrule }
  calm m hm := by
    rcases List.mem_or_eq_of_mem_set hm with hm | rfl
    · exact h.calm m hm
    · exact hn

/-- A queue is exchanged for a harmless one. -/
theorem Calm.setQueue (h : Calm rules r) (i : Nat) {queue : List IPv4Datagram}
    (hqueue : ∀ dgram ∈ queue, Harmless rules dgram) : Calm rules (r.setQueue i queue) where
  obeys := h.obeys.setQueue i queue
  calm m hm := by
    obtain ⟨k, hk⟩ := List.getElem?_of_mem hm
    simp only [Router.setQueue, List.getElem?_modify, Option.map_eq_map,
      Option.map_eq_some_iff] at hk
    obtain ⟨n, hn, rfl⟩ := hk
    have hcalm := h.calm n (List.mem_of_getElem? hn)
    split
    · exact ⟨hcalm.waiting, hqueue⟩
    · exact hcalm

theorem Calm.harmless_queue (h : Calm rules r) (i : Nat) :
    ∀ dgram ∈ r.queue i, Harmless rules dgram := by
  intro dgram hdgram
  unfold queue at hdgram
  split at hdgram
  · rename_i n hn
    exact (h.calm n (List.mem_of_getElem? hn)).queued dgram hdgram
  · cases hdgram

/-- A datagram that waits joins those that wait for its next hop. -/
theorem CalmInterface.sendDatagram {n : AsyncNetworkInterface} (h : CalmInterface rules n)
    {dgram : IPv4Datagram} (hdgram : dgram.Serializable) (nextHop : Address) :
    CalmInterface rules (n.sendDatagram dgram nextHop).2 := by
  refine ⟨?_, h.queued⟩
  intro ip d hd
  change d ∈ (n.toNetworkInterface.sendDatagram dgram nextHop).2.unsentDatagram ip at hd
  cases hcached : n.toNetworkInterface.cached nextHop.ipv4Numeric with
  | true =>
      obtain ⟨payload, hpayload⟩ := hdgram
      rw [NetworkInterface.sendDatagram_cached hcached hpayload] at hd
      exact h.waiting ip d hd
  | false =>
      rw [NetworkInterface.sendDatagram_queued dgram nextHop hcached] at hd
      by_cases hip : ip = nextHop.ipv4Numeric
      · subst hip
        simp only [NetworkInterface.queued, Function.update_self, List.mem_append,
          List.mem_singleton] at hd
        rcases hd with hd | rfl
        · exact h.waiting _ d hd
        · exact hdgram
      · simp only [NetworkInterface.queued, Function.update_of_ne hip] at hd
        exact h.waiting ip d hd

/-- A frame in one buffer throws nothing. -/
theorem CalmInterface.recvFrame_ok {n : AsyncNetworkInterface} (h : CalmInterface rules n)
    {frame : EthernetFrame} (hframe : frame.payload.buffers.length = 1) :
    ∃ result, (n.toNetworkInterface.recvFrame frame).1 = .ok result ∧
      ∀ ip, ∀ dgram ∈ (n.toNetworkInterface.recvFrame frame).2.unsentDatagram ip,
        dgram.Serializable := by
  cases hheard : NetworkInterface.heard frame with
  | none =>
      rw [NetworkInterface.recvFrame_unheard hheard]
      obtain ⟨result, hresult⟩ := NetworkInterface.recvFrame_unheard_ok hheard hframe
      exact ⟨result, hresult, h.waiting⟩
  | some message =>
      obtain ⟨payloads, hpayloads⟩ :=
        IPv4Datagram.exists_payloads (h.waiting message.senderIpAddress)
      rw [NetworkInterface.recvFrame_heard hheard,
        NetworkInterface.recvArp_eq message payloads hpayloads]
      refine ⟨none, rfl, ?_⟩
      intro ip dgram hdgram
      by_cases hip : ip = message.senderIpAddress
      · simp [NetworkInterface.answered, hip] at hdgram
      · simp only [andThen_ok, NetworkInterface.answered, Function.update_of_ne hip] at hdgram
        exact h.waiting ip dgram hdgram

/-! ## Calls on a calm router -/

/-- A legal frame that brings a passable datagram, or none, throws nothing. -/
theorem Calm.recvFrameAt (h : Calm rules r) {i : Nat} {frame : EthernetFrame}
    (hlegal : (Event.recvFrame i frame).Legal r)
    (hbrings : (Event.recvFrame i frame).Brings rules r) :
    (r.recvFrameAt i frame).1 = .ok () ∧ Calm rules (r.recvFrameAt i frame).2 := by
  obtain ⟨hi, hframe⟩ := hlegal
  have hget := List.getElem?_eq_getElem hi
  have hn := h.calm _ (List.getElem_mem hi)
  simp only [Router.recvFrameAt, hget]
  obtain ⟨result, hresult, hwaiting⟩ := hn.recvFrame_ok hframe
  cases hcall : r.interfaces[i].toNetworkInterface.recvFrame frame with
  | mk result' base =>
      rw [hcall] at hresult hwaiting
      subst hresult
      simp only [AsyncNetworkInterface.recvFrame, hcall]
      cases result with
      | none => exact ⟨rfl, h.set i ⟨hwaiting, hn.queued⟩⟩
      | some dgram =>
          refine ⟨rfl, h.set i ⟨hwaiting, ?_⟩⟩
          intro d hd
          rcases List.mem_append.mp hd with hd | hd
          · exact hn.queued d hd
          · rw [List.mem_singleton.mp hd]
            have hfirst : (r.interfaces[i].toNetworkInterface.recvFrame frame).1 =
                .ok (some dgram) := by rw [hcall]
            obtain ⟨htype, hdst, buffer, hbuffer, hparse⟩ :=
              NetworkInterface.recvFrame_datagram hfirst
            have hpass := hbrings r.interfaces[i] hget htype hdst buffer (by rw [hbuffer]; rfl)
              (by rw [hparse])
            rw [hparse] at hpass
            exact hpass.imp_right (Or.imp_right (serializable_of_parse hparse).mpr)

/-- A datagram that is sent on joins an interface. -/
theorem Calm.sendOn (h : Calm rules r) {i : Nat} (hi : i < r.interfaces.length)
    {dgram : IPv4Datagram} (hdgram : dgram.Serializable) (nextHop : Address) :
    (r.sendOn i dgram nextHop).1 = .ok () ∧ Calm rules (r.sendOn i dgram nextHop).2 := by
  refine ⟨sendOn_ok hi hdgram nextHop, ?_⟩
  rw [Router.sendOn, List.getElem?_eq_getElem hi]
  exact h.set i ((h.calm _ (List.getElem_mem hi)).sendDatagram hdgram nextHop)

/-- A harmless datagram throws nothing. -/
theorem Calm.routeOneDatagram (shift32 : UInt32 → UInt32) (h : Calm rules r)
    {dgram : IPv4Datagram} (hdgram : Harmless rules dgram) :
    (r.routeOneDatagram shift32 dgram).1 = .ok () ∧
      Calm rules (r.routeOneDatagram shift32 dgram).2.2 := by
  unfold Router.routeOneDatagram
  by_cases hexpired : dgram.header.ttl = 0 ∨ dgram.header.ttl = 1
  · rw [if_pos hexpired]
    exact ⟨rfl, h⟩
  · rw [if_neg hexpired]
    have httl := (not_expired_iff _).mp hexpired
    rcases findRoute_spec shift32 h.obeys.table (decrementTtl dgram).header.dst with
      ⟨hnone, -⟩ | ⟨rule, hsome, hbest⟩
    · simp only [hnone]
      exact ⟨trivial, h⟩
    · simp only [hsome]
      rcases hdgram with hle | hunreachable | hserializable
      · omega
      · exact absurd hbest.matches (hunreachable rule hbest.mem)
      · exact h.sendOn (h.obeys.valid rule hbest.mem) hserializable _

/-- The loop over a queue throws nothing. -/
theorem Calm.routeQueue (shift32 : UInt32 → UInt32) (i : Nat) (queue : List IPv4Datagram)
    (hqueue : ∀ dgram ∈ queue, Harmless rules dgram) (h : Calm rules r) :
    (routeQueue shift32 i queue r).1 = .ok () ∧
      Calm rules (routeQueue shift32 i queue r).2 := by
  induction queue generalizing r with
  | nil => exact ⟨rfl, h⟩
  | cons dgram queue ih =>
      have hrest := fun d hd => hqueue d (List.mem_cons_of_mem _ hd)
      obtain ⟨hok, hcalm⟩ := h.routeOneDatagram shift32 (hqueue dgram List.mem_cons_self)
      rw [Router.routeQueue]
      generalize r.routeOneDatagram shift32 dgram = one at hok hcalm ⊢
      obtain ⟨result, dgram', r'⟩ := one
      subst hok
      exact ih hrest (hcalm.setQueue i hrest)

/-- The loop over the interfaces throws nothing. -/
theorem Calm.routeInterfaces (shift32 : UInt32 → UInt32) (is : List Nat) (h : Calm rules r) :
    (routeInterfaces shift32 is r).1 = .ok () ∧ Calm rules (routeInterfaces shift32 is r).2 := by
  induction is generalizing r with
  | nil => exact ⟨rfl, h⟩
  | cons i is ih =>
      obtain ⟨hok, hcalm⟩ := h.routeQueue shift32 i (r.queue i) (h.harmless_queue i)
      rw [Router.routeInterfaces]
      generalize Router.routeQueue shift32 i (r.queue i) r = one at hok hcalm ⊢
      obtain ⟨result, r'⟩ := one
      subst hok
      exact ih hcalm

/-- A call throws nothing and leaves the router calm. -/
theorem Calm.call (shift32 : UInt32 → UInt32) (h : Calm rules r) {e : Event} (hlegal : e.Legal r)
    (hbrings : e.Brings rules r) :
    (r.call shift32 e).1 = .ok () ∧ Calm rules (r.call shift32 e).2 := by
  cases e with
  | recvFrame i frame => exact h.recvFrameAt hlegal hbrings
  | tick i ms =>
      simp only [Router.call, tickAt, List.getElem?_eq_getElem hlegal]
      have hn := h.calm _ (List.getElem_mem hlegal)
      exact ⟨trivial, h.set i ⟨hn.waiting, hn.queued⟩⟩
  | route => exact h.routeInterfaces shift32 _

/-- A router of fresh interfaces. -/
def fresh (addresses : List (EthernetAddress × Address)) (rules : List Rule) : Router :=
  rules.foldl addRule ⟨addresses.map fun a => AsyncNetworkInterface.new a.1 a.2, []⟩

theorem calm_fresh (addresses : List (EthernetAddress × Address))
    (hnum : ∀ rule ∈ rules, rule.interfaceNum < addresses.length) :
    Calm rules (fresh addresses rules) := by
  rw [fresh, foldl_addRule]
  refine ⟨⟨rfl, ?_⟩, ?_⟩
  · intro rule hrule
    rw [List.length_map]
    exact hnum rule hrule
  · intro n hn
    obtain ⟨address, -, rfl⟩ := List.mem_map.mp hn
    exact ⟨fun _ _ h => absurd h List.not_mem_nil, fun _ h => absurd h List.not_mem_nil⟩

/-- No call throws in a run in which every accepted datagram is sound, or is dropped by the
router; and an accepted datagram can be serialised again, after the time to live is decremented,
exactly when its version and header length are sound. -/
theorem no_call_throws (shift32 : UInt32 → UInt32) (addresses : List (EthernetAddress × Address))
    (rules : List Rule) (hnum : ∀ rule ∈ rules, rule.interfaceNum < addresses.length)
    (events : List Event) (e : Event)
    (hevents : Admissible (step shift32) (fun r e => e.Legal r ∧ e.Brings rules r)
      (fresh addresses rules) (events ++ [e])) :
    ((run (step shift32) (fresh addresses rules) events).call shift32 e).1 = .ok () ∧
      ∀ old buffer dgram, IPv4Datagram.parse old buffer = (.noError, dgram) →
        ((∃ list, (decrementTtl dgram).serialize = .ok list) ↔ dgram.header.Sound) := by
  obtain ⟨hevents, hlegal, hbrings⟩ := hevents.concat
  have hcalm : Calm rules (run (step shift32) (fresh addresses rules) events) :=
    hevents.invariant (fun r e hr he => (hr.call shift32 he.1 he.2).2) (calm_fresh addresses hnum)
  exact ⟨(hcalm.call shift32 hlegal hbrings).1,
    fun old buffer dgram hparse => serializable_of_parse hparse⟩

/-- A sound datagram is routed after its next hop answered. -/
theorem no_call_throws_sound :
    let here : EthernetAddress := ⟨[2, 0, 0, 0, 0, 1], rfl⟩
    let there : EthernetAddress := ⟨[2, 0, 0, 0, 0, 2], rfl⟩
    let reply : ARPMessage := ⟨1, 2048, 6, 4, 2, there, 9, here, 5⟩
    let arp : EthernetFrame := ⟨⟨here, there, EthernetHeader.typeARP⟩, .ofBuffer reply.fields⟩
    let sound : EthernetFrame := ⟨⟨here, there, EthernetHeader.typeIPv4⟩, .ofBuffer
      [0x45, 0, 0, 20, 0, 0, 0, 0, 64, 0, 0, 0, 0, 0, 0, 0, 0, 0, 0, 7]⟩
    let rules : List Rule := [⟨0, 0, some ⟨9, 0⟩, 0⟩]
    let r := run (step id) (fresh [(here, ⟨5, 0⟩)] rules) [.recvFrame 0 arp, .recvFrame 0 sound]
    (r.queue 0).length = 1 ∧ (r.call id .route).1 = .ok () := by
  intro here there reply arp sound rules r
  exact ⟨by decide +kernel, (no_call_throws id [(here, ⟨5, 0⟩)] rules (by decide)
    [.recvFrame 0 arp, .recvFrame 0 sound] .route (by decide +kernel)).1⟩

/-- A datagram of version 6 is accepted and routed, and `route()` throws. -/
theorem unsound_datagram_throws :
    ¬ ∀ (shift32 : UInt32 → UInt32) (addresses : List (EthernetAddress × Address))
      (rules : List Rule), (∀ rule ∈ rules, rule.interfaceNum < addresses.length) →
      ∀ (events : List Event) (e : Event),
        Admissible (step shift32) (fun r e => e.Legal r) (fresh addresses rules) (events ++ [e]) →
        ((run (step shift32) (fresh addresses rules) events).call shift32 e).1 = .ok () := by
  intro h
  let here : EthernetAddress := ⟨[2, 0, 0, 0, 0, 1], rfl⟩
  let there : EthernetAddress := ⟨[2, 0, 0, 0, 0, 2], rfl⟩
  let reply : ARPMessage := ⟨1, 2048, 6, 4, 2, there, 9, here, 5⟩
  let arp : EthernetFrame := ⟨⟨here, there, EthernetHeader.typeARP⟩, .ofBuffer reply.fields⟩
  let unsound : EthernetFrame := ⟨⟨here, there, EthernetHeader.typeIPv4⟩, .ofBuffer
    [0x65, 0, 0, 20, 0, 0, 0, 0, 64, 0, 0, 0, 0, 0, 0, 0, 0, 0, 0, 7]⟩
  let rules : List Rule := [⟨0, 0, some ⟨9, 0⟩, 0⟩]
  have hthrows : ((run (step id) (fresh [(here, ⟨5, 0⟩)] rules)
      [.recvFrame 0 arp, .recvFrame 0 unsound]).call id .route).1 =
      .error "wrong IP version" := by decide +kernel
  have hok := h id [(here, ⟨5, 0⟩)] rules (by decide)
    [.recvFrame 0 arp, .recvFrame 0 unsound] .route (by decide +kernel)
  rw [hthrows] at hok
  cases hok

end Router
end Sponge
