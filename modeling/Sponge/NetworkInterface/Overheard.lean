import Sponge.NetworkInterface.Effect

/-!
# Frames for other stations

`recv_frame` compares the destination of a frame with the address of the interface only
for frames with datagrams.  An ARP message is taken in whatever the destination of its
frame is: the mapping is learned, the waiting datagrams go out, and a request for the
address of the interface is answered.

Whether a frame is ignored is said by what the owner of the interface can see, now and in
any later sequence of calls.

Main results:

- Theorem {lit}`Ignores.of_same`: a message that tells nothing new is ignored.
- Theorem {lit}`address_shown`: sending a datagram shows whether there is a current mapping,
  and its address.
- Theorem {lit}`overheard_ignored_iff`: a frame for another station is ignored exactly if it
  carries no ARP message or one that tells nothing new.
-/

namespace Sponge
namespace NetworkInterface

open Library

/-! ## What the owner sees -/

/-- What a call returns. -/
def result (n : NetworkInterface) : Call → Except String (Option IPv4Datagram)
  | .sendDatagram dgram nextHop => (n.sendDatagram dgram nextHop).1.map fun _ => none
  | .recvFrame frame => (n.recvFrame frame).1
  | .tick _ => .ok none

/-- What a call shows to the owner: what it returns, and the frames in `frames_out()`. -/
def shown (n : NetworkInterface) (c : Call) :
    Except String (Option IPv4Datagram) × List EthernetFrame :=
  (n.result c, (n.call c).framesOut)

/-- The interface behind a call, when the owner has taken the frames. -/
def taken (n : NetworkInterface) (c : Call) : NetworkInterface :=
  { n.call c with framesOut := [] }

/-- The frame is neither for this interface nor for all. -/
def ForOthers (n : NetworkInterface) (frame : EthernetFrame) : Prop :=
  frame.header.dst ≠ n.ethernetAddress ∧ frame.header.dst ≠ ethernetBroadcast

instance (n : NetworkInterface) (frame : EthernetFrame) : Decidable (n.ForOthers frame) :=
  inferInstanceAs (Decidable (_ ∧ _))

/-- The frame is ignored: nothing is returned and nothing emitted, and no later calls show that
the frame arrived. -/
structure Ignores (n : NetworkInterface) (frame : EthernetFrame) : Prop where
  result_eq : (n.recvFrame frame).1 = .ok none
  framesOut_eq : (n.recvFrame frame).2.framesOut = n.framesOut
  later : ∀ calls, outputs taken shown (n.recvFrame frame).2 calls = outputs taken shown n calls

/-- The message tells nothing new: the mapping was learned at this very time, no datagram waits
for it, and it does not ask for the address of this interface. -/
def Redundant (n : NetworkInterface) (message : ARPMessage) : Prop :=
  n.cacheTime message.senderIpAddress = some n.nowTimeMs ∧
    n.ipToEthernetCache message.senderIpAddress = message.senderEthernetAddress ∧
    n.unsentDatagram message.senderIpAddress = [] ∧ n.asksFor message = false

instance (n : NetworkInterface) (message : ARPMessage) : Decidable (n.Redundant message) :=
  inferInstanceAs (Decidable (_ ∧ _ ∧ _ ∧ _))

variable {n : NetworkInterface} {message : ARPMessage}

/-- Only the mapping changes, if no datagram waits and there is nothing to answer. -/
theorem answered_nil (hunsent : n.unsentDatagram message.senderIpAddress = [])
    (hasks : n.asksFor message = false) : n.answered message [] = n.learn message := by
  have hupdate : Function.update n.unsentDatagram message.senderIpAddress [] =
      n.unsentDatagram := by
    rw [← hunsent, Function.update_eq_self]
  simp [answered, learn, hasks, hupdate]

/-- A redundant message teaches nothing. -/
theorem Redundant.learn_eq (h : n.Redundant message) : n.learn message = n := by
  obtain ⟨htime, haddress, -, -⟩ := h
  have htimes : Function.update n.cacheTime message.senderIpAddress (some n.nowTimeMs) =
      n.cacheTime := by
    rw [← htime, Function.update_eq_self]
  have haddresses : Function.update n.ipToEthernetCache message.senderIpAddress
      message.senderEthernetAddress = n.ipToEthernetCache := by
    rw [← haddress, Function.update_eq_self]
  simp [learn, htimes, haddresses]

/-- A redundant message changes nothing. -/
theorem Redundant.recvFrame_eq (h : n.Redundant message) {frame : EthernetFrame}
    (hheard : heard frame = some message) : n.recvFrame frame = (.ok none, n) := by
  have hunsent := h.2.2.1
  rw [recvFrame_heard hheard, recvArp_eq message [] (by rw [hunsent]; rfl),
    answered_nil hunsent h.2.2.2, h.learn_eq]
  rfl

/-- A frame that leaves the interface as it was is ignored. -/
theorem Ignores.of_same {frame : EthernetFrame} (h : n.recvFrame frame = (.ok none, n)) :
    n.Ignores frame where
  result_eq := by rw [h]
  framesOut_eq := by rw [h]
  later := by
    intro calls
    rw [h]

/-! ## What later calls show -/

/-- A frame for another station that carries no ARP message leaves the interface as it was. -/
theorem recvFrame_others {frame : EthernetFrame} (hframe : frame.payload.buffers.length = 1)
    (hdst : frame.header.dst ≠ n.ethernetAddress) (hheard : heard frame = none) :
    n.recvFrame frame = (.ok none, n) := by
  obtain ⟨result, hresult⟩ := recvFrame_unheard_ok (n := n) hheard hframe
  cases result with
  | none => exact Prod.ext hresult (recvFrame_unheard hheard)
  | some dgram => exact absurd (recvFrame_datagram hresult).2.1 hdst

/-- A well-formed datagram. -/
def probe : IPv4Datagram :=
  ⟨{ len := 21 }, .ofBuffer [0]⟩

theorem probe_serializable : probe.Serializable :=
  IPv4Datagram.WellFormed.serializable (by decide)

/-- Sending a datagram shows whether there is a current mapping, and its address. -/
theorem address_shown {n' : NetworkInterface} {ip : UInt32} (hcached : n'.cached ip = true)
    (h : n'.shown (.sendDatagram probe ⟨ip, 0⟩) = n.shown (.sendDatagram probe ⟨ip, 0⟩))
    (hframes : n'.framesOut = n.framesOut) :
    n.cached ip = true ∧ n.ipToEthernetCache ip = n'.ipToEthernetCache ip := by
  obtain ⟨payload, hpayload⟩ := probe_serializable
  have hsent : ∀ x : NetworkInterface, x.cached ip = true →
      (x.call (.sendDatagram probe ⟨ip, 0⟩)).framesOut =
        x.framesOut ++ [x.carrier (x.ipToEthernetCache ip) payload] := by
    intro x hx
    change (x.sendDatagram probe ⟨ip, 0⟩).2.framesOut = _
    rw [sendDatagram_cached (show x.cached (Address.mk ip 0).ipv4Numeric = true from hx) hpayload]
    rfl
  have hemitted : (n'.call (.sendDatagram probe ⟨ip, 0⟩)).framesOut =
      (n.call (.sendDatagram probe ⟨ip, 0⟩)).framesOut := congrArg Prod.snd h
  rw [hsent n' hcached, hframes] at hemitted
  cases hn : n.cached ip with
  | true =>
      rw [hsent n hn, List.append_cancel_left_eq, List.cons.injEq] at hemitted
      have haddress := congrArg (fun frame => frame.header.dst) hemitted.1
      exact ⟨rfl, haddress.symm⟩
  | false =>
      -- what goes out is a request, if anything
      change _ = (n.sendDatagram probe ⟨ip, 0⟩).2.framesOut at hemitted
      rw [sendDatagram_queued probe ⟨ip, 0⟩ hn] at hemitted
      simp only [queued, List.append_cancel_left_eq] at hemitted
      split at hemitted
      · have htype := congrArg (fun frame => frame.header.type) (List.cons.inj hemitted).1
        exact absurd htype (show EthernetHeader.typeIPv4 ≠ EthernetHeader.typeARP by decide)
      · cases hemitted

/-- The mapping is current for as long after a tick as its age allows. -/
theorem cached_tick {ip : UInt32} {time : UInt64} (htime : n.cacheTime ip = some time)
    (ms : UInt64) :
    (n.taken (.tick ms)).cached ip = decide (n.nowTimeMs + ms - time < arpCacheTimeout) := by
  have hkept : (n.taken (.tick ms)).cacheTime ip = some time := htime
  unfold cached
  rw [hkept]
  rfl

/-- Waiting shows when a mapping was learned. -/
theorem time_shown {n' : NetworkInterface} {ip : UInt32} {time : UInt64}
    (hlearned : n'.cacheTime ip = some n.nowTimeMs) (htime : n.cacheTime ip = some time)
    (hfresh : n.nowTimeMs - time < arpCacheTimeout)
    (h : ∀ ms, (n'.taken (.tick ms)).shown (.sendDatagram probe ⟨ip, 0⟩) =
      (n.taken (.tick ms)).shown (.sendDatagram probe ⟨ip, 0⟩))
    (hnow : n'.nowTimeMs = n.nowTimeMs) : time = n.nowTimeMs := by
  by_contra hne
  -- when the mapping of `n` times out, that of `n'` is still current
  have hlimit : arpCacheTimeout.toNat = 30000 := rfl
  have hpos : (n.nowTimeMs - time).toNat ≠ 0 := by
    intro hzero
    have hsub : n.nowTimeMs - time = 0 := UInt64.toNat_inj.mp hzero
    exact hne (sub_eq_zero.mp hsub).symm
  have hms : (arpCacheTimeout - (n.nowTimeMs - time)).toNat =
      30000 - (n.nowTimeMs - time).toNat :=
    UInt64.toNat_sub_of_le _ _ (UInt64.le_of_lt hfresh)
  generalize hwait : arpCacheTimeout - (n.nowTimeMs - time) = ms at hms
  have hcurrent : (n'.taken (.tick ms)).cached ip = true := by
    rw [cached_tick hlearned, hnow, decide_eq_true_eq, UInt64.add_comm, UInt64.add_sub_cancel,
      UInt64.lt_iff_toNat_lt, hms, hlimit]
    omega
  have hexpired := (address_shown hcurrent (h ms) rfl).1
  rw [cached_tick htime, decide_eq_true_eq] at hexpired
  have hsum : n.nowTimeMs + ms - time = arpCacheTimeout := by
    rw [← hwait]
    grind
  rw [hsum] at hexpired
  exact absurd hexpired (UInt64.lt_irrefl _)

/-! ## Overheard frames -/

/-- A frame with an ARP message is ignored only if the message is redundant. -/
theorem Ignores.redundant {frame : EthernetFrame} (h : n.Ignores frame)
    (hheard : heard frame = some message) : n.Redundant message := by
  obtain ⟨sent, payloads, hpayloads, ⟨hunsent, hanswered⟩ | ⟨dgram, rest, e, -, -, hfailed⟩⟩ :=
    recvFrame_heard_cases (n := n) hheard
  · -- nothing goes out, so nothing waited and nothing is answered
    have hframes := h.framesOut_eq
    rw [hanswered] at hframes
    simp only [answered, List.append_assoc, List.append_right_eq_self, List.append_eq_nil_iff,
      List.map_eq_nil_iff] at hframes
    obtain ⟨rfl, hreply⟩ := hframes
    have hasks : n.asksFor message = false := by
      by_contra hasks
      rw [Bool.not_eq_false] at hasks
      rw [if_pos hasks] at hreply
      cases hreply
    have hempty : n.unsentDatagram message.senderIpAddress = [] := by
      rw [hunsent, ← List.map_eq_nil_iff, hpayloads, List.map_nil]
    have hlater := h.later
    rw [hanswered, answered_nil hempty hasks] at hlater
    -- sending at once shows the address, sending later the time
    have hlearned : (n.learn message).cacheTime message.senderIpAddress = some n.nowTimeMs :=
      Function.update_self ..
    have hcached : (n.learn message).cached message.senderIpAddress = true := by
      simp [cached, learn, arpCacheTimeout]
    obtain ⟨hfresh, haddress⟩ := address_shown hcached
      (List.cons.inj (hlater [.sendDatagram probe ⟨message.senderIpAddress, 0⟩])).1 rfl
    have hnew : (n.learn message).ipToEthernetCache message.senderIpAddress =
        message.senderEthernetAddress := Function.update_self ..
    refine ⟨?_, haddress.trans hnew, hempty, hasks⟩
    cases htime : n.cacheTime message.senderIpAddress with
    | none => simp [cached, htime] at hfresh
    | some time =>
        rw [cached, htime, decide_eq_true_eq] at hfresh
        have hsame := time_shown hlearned htime hfresh (fun ms => (List.cons.inj (List.cons.inj
          (hlater [.tick ms, .sendDatagram probe ⟨message.senderIpAddress, 0⟩])).2).1) rfl
        rw [hsame]
  · have hresult := h.result_eq
    rw [hfailed] at hresult
    cases hresult

/-- A frame for another station, in one buffer, is ignored exactly if it carries no ARP message
or one that tells nothing new. -/
theorem overheard_ignored_iff (n : NetworkInterface) (frame : EthernetFrame)
    (hframe : frame.payload.buffers.length = 1) (hothers : n.ForOthers frame) :
    n.Ignores frame ↔ ∀ message, heard frame = some message → n.Redundant message := by
  refine ⟨fun h message hheard => h.redundant hheard, fun h => Ignores.of_same ?_⟩
  cases hheard : heard frame with
  | none => exact recvFrame_others hframe hothers.1 hheard
  | some message => exact (h message hheard).recvFrame_eq hheard

/-- A reply to another station that repeats the mapping just learned, and a datagram to another
station. -/
theorem overheard_ignored_repeated :
    let here : EthernetAddress := ⟨[2, 0, 0, 0, 0, 1], rfl⟩
    let there : EthernetAddress := ⟨[2, 0, 0, 0, 0, 2], rfl⟩
    let reply : ARPMessage := ⟨1, 2048, 6, 4, 2, there, 9, there, 7⟩
    let frame : EthernetFrame := ⟨⟨there, there, EthernetHeader.typeARP⟩, .ofBuffer reply.fields⟩
    let n := (NetworkInterface.new here ⟨5, 0⟩).learn reply
    n.ForOthers frame ∧ n.Ignores frame := by
  intro here there reply frame n
  have hothers : n.ForOthers frame := by decide
  refine ⟨hothers, (overheard_ignored_iff n frame rfl hothers).mpr ?_⟩
  intro message hheard
  have hreply : heard frame = some reply := heard_arp rfl there there
  rw [hreply, Option.some.injEq] at hheard
  rw [← hheard]
  exact ⟨rfl, rfl, rfl, rfl⟩

/-- A reply to another station teaches a mapping: the next datagram to its sender goes out at
once, where a request would go out if the reply had not been overheard. -/
theorem overheard_learned :
    let here : EthernetAddress := ⟨[2, 0, 0, 0, 0, 1], rfl⟩
    let there : EthernetAddress := ⟨[2, 0, 0, 0, 0, 2], rfl⟩
    let reply : ARPMessage := ⟨1, 2048, 6, 4, 2, there, 9, there, 7⟩
    let frame : EthernetFrame := ⟨⟨there, there, EthernetHeader.typeARP⟩, .ofBuffer reply.fields⟩
    let n := NetworkInterface.new here ⟨5, 0⟩
    n.ForOthers frame ∧ frame.payload.buffers.length = 1 ∧ ¬ n.Ignores frame := by
  intro here there reply frame n
  refine ⟨by decide, rfl, ?_⟩
  intro hignores
  have hsame := hignores.later [.sendDatagram probe ⟨9, 0⟩]
  have htypes := congrArg (fun shown => shown.map fun entry => entry.2.map carriesDatagram) hsame
  exact absurd htypes (by decide +kernel)

end NetworkInterface
end Sponge
