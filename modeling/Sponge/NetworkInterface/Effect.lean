import Sponge.NetworkInterface.Runs

/-!
# What the calls of a network interface can do

All effects of a call in one relation, with arbitrary datagrams and frames and also where
the call throws, and from it what a call does to each table of the interface and which ARP
frames it emits.

Main results:

- Theorem {lit}`effect_call`: what a call can do, and all it can do.
- Theorems {lit}`mapping_call` and {lit}`arpRequestHis_call`: the tables behind a call.
- Theorem {lit}`requests_call`: the requests that a call emits.
- Theorem {lit}`arp_round_trip`: what is accepted as an ARP message, and that anything else
  changes nothing.
-/

namespace Sponge
namespace NetworkInterface

/-- A frame to `dst` with a datagram that was serialised as `payload`. -/
def carrier (n : NetworkInterface) (dst : EthernetAddress) (payload : BufferList) :
    EthernetFrame :=
  ⟨⟨dst, n.ethernetAddress, EthernetHeader.typeIPv4⟩, payload⟩

/-- What a call can do: it sends a datagram at once, if that can be serialised; lets a datagram
wait; takes in an ARP message; looks at another frame; or lets time pass. -/
inductive Effect (n : NetworkInterface) : Call → NetworkInterface → Prop where
  | sent (dgram : IPv4Datagram) (nextHop : Address) (payloads : List BufferList)
      (hcached : n.cached nextHop.ipv4Numeric = true) :
      Effect n (.sendDatagram dgram nextHop) { n with
        framesOut := n.framesOut ++
          payloads.map (n.carrier (n.ipToEthernetCache nextHop.ipv4Numeric)) }
  | queued (dgram : IPv4Datagram) (nextHop : Address)
      (hcached : n.cached nextHop.ipv4Numeric = false) :
      Effect n (.sendDatagram dgram nextHop) (n.queued dgram nextHop.ipv4Numeric)
  | told (frame : EthernetFrame) (message : ARPMessage) (payloads : List BufferList)
      (replies : List EthernetFrame) (unsent : UInt32 → List IPv4Datagram)
      (hheard : heard frame = some message)
      (hreplies : ∀ reply ∈ replies, reply = n.replyFrame message) :
      Effect n (.recvFrame frame) { n.learn message with
        framesOut := n.framesOut ++ payloads.map (n.carrier message.senderEthernetAddress) ++
          replies
        unsentDatagram := unsent }
  | unheard (frame : EthernetFrame) (hheard : heard frame = none) : Effect n (.recvFrame frame) n
  | tick (ms : UInt64) : Effect n (.tick ms) (n.tick ms)

/-- A datagram for which there is a current mapping goes out, or `serialize()` throws. -/
theorem effect_sent {n : NetworkInterface} (dgram : IPv4Datagram) (nextHop : Address)
    (hcached : n.cached nextHop.ipv4Numeric = true) :
    Effect n (.sendDatagram dgram nextHop) (n.sendDatagram dgram nextHop).2 := by
  cases hpayload : dgram.serialize with
  | ok payload =>
      rw [sendDatagram_cached hcached hpayload]
      exact Effect.sent dgram nextHop [payload] hcached
  | error e =>
      rw [sendDatagram_failed hcached hpayload]
      have hsent := Effect.sent dgram nextHop [] hcached
      rwa [List.map_nil, List.append_nil] at hsent

/-- What a call can do, and all it can do. -/
theorem effect_call (n : NetworkInterface) (c : Call) : Effect n c (n.call c) := by
  cases c with
  | sendDatagram dgram nextHop =>
      cases hcached : n.cached nextHop.ipv4Numeric with
      | true => exact effect_sent dgram nextHop hcached
      | false =>
          rw [call, sendDatagram_queued dgram nextHop hcached]
          exact Effect.queued dgram nextHop hcached
  | recvFrame frame =>
      rw [call]
      cases hheard : heard frame with
      | none =>
          rw [recvFrame_unheard hheard]
          exact Effect.unheard frame hheard
      | some message =>
          obtain ⟨sent, payloads, -, hall | ⟨dgram, rest, e, -, -, hfailed⟩⟩ :=
            recvFrame_heard_cases (n := n) hheard
          · rw [hall.2]
            refine Effect.told frame message payloads _ _ hheard ?_
            intro reply hreply
            split at hreply
            · exact List.mem_singleton.mp hreply
            · cases hreply
          · rw [hfailed]
            have htold := Effect.told (n := n) frame message payloads [] n.unsentDatagram hheard
              (fun reply hreply => absurd hreply List.not_mem_nil)
            rwa [List.append_nil] at htold
  | tick ms => exact Effect.tick ms

/-- The message from `ip` that a call delivers. -/
def Call.tells (ip : UInt32) : Call → Option ARPMessage
  | .sendDatagram _ _ => none
  | .recvFrame frame => (heard frame).filter fun message => message.senderIpAddress == ip
  | .tick _ => none

/-- An ARP message that is heard tells its sender's address. -/
theorem Call.tells_eq {frame : EthernetFrame} {message : ARPMessage}
    (h : heard frame = some message) (ip : UInt32) :
    Call.tells ip (.recvFrame frame) =
      if message.senderIpAddress = ip then some message else none := by
  simp [tells, h, Option.filter_some]

/-- A frame that is not heard tells nothing. -/
theorem Call.tells_eq_none {frame : EthernetFrame} (h : heard frame = none) (ip : UInt32) :
    Call.tells ip (.recvFrame frame) = none := by
  simp [tells, h]

section Fields

variable (n : NetworkInterface) (c : Call)

/-- No call changes the Ethernet address. -/
theorem ethernetAddress_call : (n.call c).ethernetAddress = n.ethernetAddress := by
  have heffect := effect_call n c
  generalize n.call c = n' at heffect ⊢
  cases heffect <;> rfl

/-- Only `tick` moves the clock. -/
theorem nowTimeMs_call :
    (n.call c).nowTimeMs = n.nowTimeMs + UInt64.ofNat c.duration := by
  have heffect := effect_call n c
  generalize n.call c = n' at heffect ⊢
  cases heffect with
  | tick ms => simp [tick, Call.duration]
  | _ => exact (UInt64.add_zero _).symm

/-- A message from a host replaces its mapping; nothing else changes it. -/
theorem mapping_call (ip : UInt32) :
    (∀ message, c.tells ip = some message →
      (n.call c).cacheTime ip = some n.nowTimeMs ∧
        (n.call c).ipToEthernetCache ip = message.senderEthernetAddress) ∧
    (c.tells ip = none →
      (n.call c).cacheTime ip = n.cacheTime ip ∧
        (n.call c).ipToEthernetCache ip = n.ipToEthernetCache ip) := by
  have heffect := effect_call n c
  generalize n.call c = n' at heffect ⊢
  cases heffect with
  | told frame message payloads replies unsent hheard hreplies =>
      rw [Call.tells_eq hheard]
      by_cases hip : message.senderIpAddress = ip
      · rw [if_pos hip, ← hip]
        refine ⟨?_, fun h => (nomatch h)⟩
        rintro message' ⟨⟩
        exact ⟨Function.update_self .., Function.update_self ..⟩
      · rw [if_neg hip]
        refine ⟨fun _ h => (nomatch h), fun _ => ⟨?_, ?_⟩⟩
        · exact Function.update_of_ne (Ne.symm hip) ..
        · exact Function.update_of_ne (Ne.symm hip) ..
  | unheard frame hheard =>
      rw [Call.tells_eq_none hheard]
      exact ⟨fun _ h => (nomatch h), fun _ => ⟨rfl, rfl⟩⟩
  | _ => exact ⟨fun _ h => (nomatch h), fun _ => ⟨rfl, rfl⟩⟩

end Fields

/-! ## Messages in frames -/

/-- A frame that this interface builds from a supported message is understood. -/
theorem heard_arp {message : ARPMessage} (h : message.supported = true)
    (dst src : EthernetAddress) :
    heard ⟨⟨dst, src, EthernetHeader.typeARP⟩, BufferList.ofBuffer message.fields⟩ =
      some message := by
  simp [heard, BufferList.toBuffer_ofBuffer, ARPMessage.parse_serialize h]

/-- A string in an ARP frame that is not valid changes nothing. -/
theorem recvFrame_invalid (n : NetworkInterface) (dst src : EthernetAddress) {b : Buffer}
    (h : ¬ ARPMessage.Valid b) :
    n.recvFrame ⟨⟨dst, src, EthernetHeader.typeARP⟩, BufferList.ofBuffer b⟩ = (.ok none, n) := by
  have hrefused : (({} : ARPMessage).parse b).1 ≠ .noError :=
    fun haccepted => h ((ARPMessage.parse_eq_noError_iff {} b).mp haccepted)
  have htype : EthernetHeader.typeARP ≠ EthernetHeader.typeIPv4 := by decide
  simp [recvFrame, htype, BufferList.toBuffer_ofBuffer, hrefused]

/-- A supported message is read back from its serialisation.  A string is accepted exactly if
it is long enough and has the supported type, size and opcode fields; then its message is
serialised as the first 28 bytes of the string.  Otherwise an interface that receives the
string in an ARP frame is left as it was. -/
theorem arp_round_trip (old : ARPMessage) :
    (∀ m : ARPMessage, m.supported = true →
      ∃ bytes, m.serialize = .ok bytes ∧ old.parse bytes = (.noError, m)) ∧
    ∀ b : Buffer,
      ((old.parse b).1 = .noError ↔ ARPMessage.Valid b) ∧
      ((old.parse b).1 = .noError →
        (old.parse b).2.serialize = .ok (b.take ARPMessage.length)) ∧
      ((old.parse b).1 ≠ .noError → ∀ (n : NetworkInterface) (dst src : EthernetAddress),
        n.recvFrame ⟨⟨dst, src, EthernetHeader.typeARP⟩, BufferList.ofBuffer b⟩ =
          (.ok none, n)) := by
  refine ⟨fun m hm => ⟨m.fields, ?_, ARPMessage.parse_serialize hm old⟩, fun b => ?_⟩
  · rw [ARPMessage.serialize, hm]
    rfl
  · have hiff := ARPMessage.parse_eq_noError_iff old b
    refine ⟨hiff, fun haccepted => ?_, fun hrefused n dst src => ?_⟩
    · exact ARPMessage.serialize_parse old (hiff.mp haccepted)
    · exact recvFrame_invalid n dst src (mt hiff.mpr hrefused)

/-- A reply with padding behind it. -/
theorem arp_round_trip_padded :
    let there : EthernetAddress := ⟨[2, 0, 0, 0, 0, 2], rfl⟩
    let reply : ARPMessage := ⟨1, 2048, 6, 4, 2, there, 9, there, 5⟩
    let padded : Buffer := reply.fields ++ [0, 0, 0]
    ARPMessage.Valid padded ∧
      (({} : ARPMessage).parse padded).2.serialize = .ok reply.fields ∧
      ∃ bytes, reply.serialize = .ok bytes ∧
        ({} : ARPMessage).parse bytes = (.noError, reply) := by
  intro there reply padded
  have hvalid : ARPMessage.Valid padded := by decide +kernel
  have hall := arp_round_trip {}
  refine ⟨hvalid, ?_, hall.1 reply (by decide)⟩
  rw [(hall.2 padded).2.1 ((hall.2 padded).1.mpr hvalid)]
  rfl

/-! ## Requests -/

/-- The frame is an ARP request for the address of `ip`. -/
def isRequest (ip : UInt32) (frame : EthernetFrame) : Bool :=
  match heard frame with
  | some message =>
      message.opcode == ARPMessage.opcodeRequest && message.targetIpAddress == ip
  | none => false

/-- A request asks for its target. -/
theorem isRequest_requestFrame (n : NetworkInterface) (target ip : UInt32) :
    isRequest ip (n.requestFrame target) = decide (target = ip) := by
  rw [isRequest, requestFrame, heard_arp (supported_arpRequest n target)]
  rfl

/-- A reply asks for nothing. -/
theorem isRequest_replyFrame (n : NetworkInterface) (message : ARPMessage) (ip : UInt32) :
    isRequest ip (n.replyFrame message) = false := by
  rw [isRequest, replyFrame, heard_arp (supported_arpReply n message)]
  rfl

/-- A datagram asks for nothing. -/
theorem isRequest_carrier (n : NetworkInterface) (dst : EthernetAddress) (payload : BufferList)
    (ip : UInt32) : isRequest ip (n.carrier dst payload) = false := by
  have hheard : heard (n.carrier dst payload) = none :=
    if_neg (show EthernetHeader.typeIPv4 ≠ EthernetHeader.typeARP by decide)
  rw [isRequest, hheard]

/-- The call lets a datagram wait for `ip` and asks for its address. -/
def asks (n : NetworkInterface) (ip : UInt32) : Call → Bool
  | .sendDatagram _ nextHop =>
      nextHop.ipv4Numeric == ip && !n.cached ip && n.requestDue ip
  | .recvFrame _ => false
  | .tick _ => false

/-- A datagram to a known address asks for nothing. -/
theorem asks_cached {n : NetworkInterface} {nextHop : Address}
    (h : n.cached nextHop.ipv4Numeric = true) (ip : UInt32) (dgram : IPv4Datagram) :
    n.asks ip (.sendDatagram dgram nextHop) = false := by
  by_cases hip : nextHop.ipv4Numeric = ip
  · simp [asks, ← hip, h]
  · simp [asks, hip]

/-- A datagram to an unknown address asks for it when a request is due. -/
theorem asks_queued {n : NetworkInterface} {nextHop : Address}
    (h : n.cached nextHop.ipv4Numeric = false) (ip : UInt32) (dgram : IPv4Datagram) :
    n.asks ip (.sendDatagram dgram nextHop) =
      (decide (nextHop.ipv4Numeric = ip) && n.requestDue nextHop.ipv4Numeric) := by
  by_cases hip : nextHop.ipv4Numeric = ip
  · simp [asks, ← hip, h]
  · simp [asks, hip]

/-- A request goes out when it is due. -/
theorem requestDue_of_asks {n : NetworkInterface} {ip : UInt32} {c : Call}
    (h : n.asks ip c = true) : n.requestDue ip = true := by
  cases c with
  | sendDatagram dgram nextHop => exact (Bool.and_eq_true_iff.mp h).2
  | recvFrame frame => cases h
  | tick ms => cases h

/-- No datagram and no reply is a request. -/
theorem filter_isRequest_eq_nil {frames : List EthernetFrame} {ip : UInt32}
    (h : ∀ frame ∈ frames, isRequest ip frame = false) : frames.filter (isRequest ip) = [] := by
  rw [List.filter_eq_nil_iff]
  intro frame hframe
  rw [h frame hframe]
  decide

/-- The requests that a call emits: one, if it asks. -/
theorem requests_call {n : NetworkInterface} (hempty : n.framesOut = []) (c : Call)
    (ip : UInt32) :
    (n.call c).framesOut.filter (isRequest ip) =
      if n.asks ip c then [n.requestFrame ip] else [] := by
  have heffect := effect_call n c
  generalize n.call c = n' at heffect ⊢
  have hcarriers : ∀ (dst : EthernetAddress) (payloads : List BufferList),
      (payloads.map (n.carrier dst)).filter (isRequest ip) = [] := by
    intro dst payloads
    apply filter_isRequest_eq_nil
    intro frame hframe
    obtain ⟨payload, -, rfl⟩ := List.mem_map.mp hframe
    exact isRequest_carrier n dst payload ip
  cases heffect with
  | sent dgram nextHop payloads hcached =>
      rw [asks_cached hcached]
      simp only [hempty, List.nil_append, hcarriers, Bool.false_eq_true, if_false]
  | queued dgram nextHop hcached =>
      rw [asks_queued hcached]
      simp only [queued, hempty, List.nil_append]
      by_cases hip : nextHop.ipv4Numeric = ip
      · split <;> simp_all [isRequest_requestFrame]
      · split <;> simp [isRequest_requestFrame, hip]
  | told frame message payloads replies unsent hheard hreplies =>
      have hnone : replies.filter (isRequest ip) = [] := by
        apply filter_isRequest_eq_nil
        intro reply hreply
        rw [hreplies reply hreply]
        exact isRequest_replyFrame n message ip
      simp [hempty, hcarriers, hnone, asks]
  | unheard frame hheard => simp [hempty, asks]
  | tick ms => simp [NetworkInterface.tick, hempty, asks]

/-- The time of a request is noted. -/
theorem arpRequestHis_call (n : NetworkInterface) (c : Call) (ip : UInt32) :
    (n.call c).arpRequestHis ip =
      if n.asks ip c then some n.nowTimeMs else n.arpRequestHis ip := by
  have heffect := effect_call n c
  generalize n.call c = n' at heffect ⊢
  cases heffect with
  | sent dgram nextHop payloads hcached => simp [asks_cached hcached]
  | queued dgram nextHop hcached =>
      rw [asks_queued hcached]
      simp only [queued]
      by_cases hip : nextHop.ipv4Numeric = ip
      · split <;> simp_all
      · split <;> simp [hip, Function.update_of_ne (Ne.symm hip)]
  | told frame message payloads replies unsent hheard hreplies => simp [learn, asks]
  | unheard frame hheard => simp [asks]
  | tick ms => simp [NetworkInterface.tick, asks]

end NetworkInterface
end Sponge
