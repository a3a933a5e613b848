import Sponge.EthernetFrame
import Sponge.IPv4Datagram

/-!
# The network interface

`NetworkInterface` of `libsponge/network_interface.{hh,cc}`: it wraps datagrams into
Ethernet frames, asks for unknown Ethernet addresses with ARP and keeps the datagrams
that wait for an answer.

A call may throw.  It returns its result, or the text of the exception, together with
the state that it leaves behind.  An `unordered_map` is a function; where the code never
asks whether a key is present, an absent key has the value that `operator[]` creates.

Main results:

- Theorems {lit}`sendDatagram_queued` and {lit}`sendDatagram_cached`: what `send_datagram`
  does without and with a current mapping.
- Theorems {lit}`flush_eq` and {lit}`flush_failed`: the waiting datagrams go out in their order,
  up to the first one that cannot be serialised.
- Theorems {lit}`recvFrame_heard_cases`, {lit}`recvFrame_unheard` and {lit}`recvFrame_datagram`:
  what `recv_frame` does with an ARP message, with other frames, and what it returns.
-/

namespace Sponge

open Library

/-- Continue with the result of a call, unless it threw. -/
def andThen {σ α β : Type} (call : Except String α × σ) (next : α → σ → Except String β × σ) :
    Except String β × σ :=
  match call with
  | (.error e, s) => (.error e, s)
  | (.ok a, s) => next a s

@[simp]
theorem andThen_ok {σ α β : Type} (a : α) (s : σ) (next : α → σ → Except String β × σ) :
    andThen (.ok a, s) next = next a s :=
  rfl

/-- `NetworkInterface`. -/
structure NetworkInterface where
  ethernetAddress : EthernetAddress
  ipAddress : Address
  framesOut : List EthernetFrame
  nowTimeMs : UInt64
  ipToEthernetCache : UInt32 → EthernetAddress
  cacheTime : UInt32 → Option UInt64
  arpRequestHis : UInt32 → Option UInt64
  unsentDatagram : UInt32 → List IPv4Datagram

namespace NetworkInterface

/-- `NetworkInterface(ethernet_address, ip_address)`. -/
def new (ethernetAddress : EthernetAddress) (ipAddress : Address) : NetworkInterface where
  ethernetAddress := ethernetAddress
  ipAddress := ipAddress
  framesOut := []
  nowTimeMs := 0
  ipToEthernetCache := fun _ => EthernetAddress.zero
  cacheTime := fun _ => none
  arpRequestHis := fun _ => none
  unsentDatagram := fun _ => []

/-- `_arp_cache_timeout`. -/
def arpCacheTimeout : UInt64 := 30000

/-- `_arp_request_limit`. -/
def arpRequestLimit : UInt64 := 5000

/-! ## Sending -/

/-- A frame with a datagram in it. -/
def datagramFrame (n : NetworkInterface) (dst : EthernetAddress) (dgram : IPv4Datagram) :
    Except String EthernetFrame :=
  match dgram.serialize with
  | .error e => .error e
  | .ok payload => .ok ⟨⟨dst, n.ethernetAddress, EthernetHeader.typeIPv4⟩, payload⟩

/-- A frame with an ARP message in it. -/
def arpFrame (n : NetworkInterface) (dst : EthernetAddress) (message : ARPMessage) :
    Except String EthernetFrame :=
  match message.serialize with
  | .error e => .error e
  | .ok payload =>
      .ok ⟨⟨dst, n.ethernetAddress, EthernetHeader.typeARP⟩, BufferList.ofBuffer payload⟩

/-- A frame is pushed onto `_frames_out`, unless building it threw. -/
def pushFrame (n : NetworkInterface) : Except String EthernetFrame →
    Except String Unit × NetworkInterface
  | .error e => (.error e, n)
  | .ok frame => (.ok (), { n with framesOut := n.framesOut ++ [frame] })

/-- There is a mapping for `ip` that has not timed out. -/
def cached (n : NetworkInterface) (ip : UInt32) : Bool :=
  match n.cacheTime ip with
  | some time => decide (n.nowTimeMs - time < arpCacheTimeout)
  | none => false

/-- No request for `ip` was sent within the limit. -/
def requestDue (n : NetworkInterface) (ip : UInt32) : Bool :=
  match n.arpRequestHis ip with
  | some time => decide (n.nowTimeMs - time ≥ arpRequestLimit)
  | none => true

/-- The request for the Ethernet address of `ip`. -/
def arpRequest (n : NetworkInterface) (ip : UInt32) : ARPMessage :=
  { opcode := ARPMessage.opcodeRequest
    senderIpAddress := n.ipAddress.ipv4Numeric
    senderEthernetAddress := n.ethernetAddress
    targetIpAddress := ip }

/-- The request is sent if it is due, and its time is noted. -/
def sendRequest (n : NetworkInterface) (ip : UInt32) : Except String Unit × NetworkInterface :=
  if n.requestDue ip then
    andThen (n.pushFrame (n.arpFrame ethernetBroadcast (n.arpRequest ip))) fun _ n =>
      (.ok (), { n with arpRequestHis := Function.update n.arpRequestHis ip (some n.nowTimeMs) })
  else (.ok (), n)

/-- `send_datagram(dgram, next_hop)`. -/
def sendDatagram (n : NetworkInterface) (dgram : IPv4Datagram) (nextHop : Address) :
    Except String Unit × NetworkInterface :=
  let nextHopIp := nextHop.ipv4Numeric
  if n.cached nextHopIp then
    n.pushFrame (n.datagramFrame (n.ipToEthernetCache nextHopIp) dgram)
  else
    andThen (n.sendRequest nextHopIp) fun _ n =>
      (.ok (), { n with
        unsentDatagram := Function.update n.unsentDatagram nextHopIp
          (n.unsentDatagram nextHopIp ++ [dgram]) })

/-! ## Receiving -/

/-- The mapping that an ARP message tells. -/
def learn (n : NetworkInterface) (message : ARPMessage) : NetworkInterface :=
  { n with
    cacheTime := Function.update n.cacheTime message.senderIpAddress (some n.nowTimeMs)
    ipToEthernetCache := Function.update n.ipToEthernetCache message.senderIpAddress
      message.senderEthernetAddress }

/-- The loop that sends the waiting datagrams to `dst`. -/
def flush (dst : EthernetAddress) : List IPv4Datagram → NetworkInterface →
    Except String Unit × NetworkInterface
  | [], n => (.ok (), n)
  | dgram :: dgrams, n =>
      andThen (n.pushFrame (n.datagramFrame dst dgram)) fun _ n => flush dst dgrams n

/-- The reply to a request for the Ethernet address of this interface. -/
def arpReply (n : NetworkInterface) (message : ARPMessage) : ARPMessage :=
  { opcode := ARPMessage.opcodeReply
    senderIpAddress := n.ipAddress.ipv4Numeric
    senderEthernetAddress := n.ethernetAddress
    targetIpAddress := message.senderIpAddress
    targetEthernetAddress := message.senderEthernetAddress }

/-- The message is a request for the Ethernet address of this interface. -/
def asksFor (n : NetworkInterface) (message : ARPMessage) : Bool :=
  message.opcode == ARPMessage.opcodeRequest &&
    message.targetIpAddress == n.ipAddress.ipv4Numeric

/-- A request for the address of this interface is answered. -/
def answer (n : NetworkInterface) (message : ARPMessage) :
    Except String Unit × NetworkInterface :=
  if n.asksFor message then
    n.pushFrame (n.arpFrame message.senderEthernetAddress (n.arpReply message))
  else (.ok (), n)

/-- `recv_frame(frame)` for an ARP message. -/
def recvArp (n : NetworkInterface) (message : ARPMessage) :
    Except String Unit × NetworkInterface :=
  let ip := message.senderIpAddress
  let n := n.learn message
  andThen (flush (n.ipToEthernetCache ip) (n.unsentDatagram ip) n) fun _ n =>
    { n with unsentDatagram := Function.update n.unsentDatagram ip [] }.answer message

/-- `recv_frame(frame)`. -/
def recvFrame (n : NetworkInterface) (frame : EthernetFrame) :
    Except String (Option IPv4Datagram) × NetworkInterface :=
  if frame.header.type = EthernetHeader.typeIPv4 then
    match frame.payload.toBuffer with
    | .error e => (.error e, n)
    | .ok buffer =>
        let (result, dgram) := ({} : IPv4Datagram).parse buffer
        if result = .noError ∧ frame.header.dst = n.ethernetAddress then (.ok (some dgram), n)
        else (.ok none, n)
  else if frame.header.type = EthernetHeader.typeARP then
    match frame.payload.toBuffer with
    | .error e => (.error e, n)
    | .ok buffer =>
        let (result, message) := ({} : ARPMessage).parse buffer
        if result = .noError then andThen (n.recvArp message) fun _ n => (.ok none, n)
        else (.ok none, n)
  else (.ok none, n)

/-- `tick(ms_since_last_tick)`. -/
def tick (n : NetworkInterface) (msSinceLastTick : UInt64) : NetworkInterface :=
  { n with nowTimeMs := n.nowTimeMs + msSinceLastTick }

/-! ## What the calls do -/

variable {n : NetworkInterface}

/-- The frame with the request for `ip`. -/
def requestFrame (n : NetworkInterface) (ip : UInt32) : EthernetFrame :=
  ⟨⟨ethernetBroadcast, n.ethernetAddress, EthernetHeader.typeARP⟩,
    BufferList.ofBuffer (n.arpRequest ip).fields⟩

/-- The frame with the reply to a message. -/
def replyFrame (n : NetworkInterface) (message : ARPMessage) : EthernetFrame :=
  ⟨⟨message.senderEthernetAddress, n.ethernetAddress, EthernetHeader.typeARP⟩,
    BufferList.ofBuffer (n.arpReply message).fields⟩

/-- The requests and replies that are built are supported. -/
theorem supported_arpRequest (n : NetworkInterface) (ip : UInt32) :
    (n.arpRequest ip).supported = true :=
  rfl

theorem supported_arpReply (n : NetworkInterface) (message : ARPMessage) :
    (n.arpReply message).supported = true :=
  rfl

/-- The interface behind a datagram that has to wait. -/
def queued (n : NetworkInterface) (dgram : IPv4Datagram) (ip : UInt32) : NetworkInterface :=
  { n with
    framesOut := n.framesOut ++ if n.requestDue ip then [n.requestFrame ip] else []
    arpRequestHis := if n.requestDue ip then
      Function.update n.arpRequestHis ip (some n.nowTimeMs) else n.arpRequestHis
    unsentDatagram := Function.update n.unsentDatagram ip (n.unsentDatagram ip ++ [dgram]) }

theorem unsentDatagram_queued (n : NetworkInterface) (dgram : IPv4Datagram) (target ip : UInt32) :
    (n.queued dgram target).unsentDatagram ip =
      n.unsentDatagram ip ++ if target = ip then [dgram] else [] := by
  by_cases hip : target = ip
  · simp [queued, ← hip]
  · simp [queued, hip, Function.update_of_ne (Ne.symm hip)]

/-- A datagram waits if there is no current mapping. -/
theorem sendDatagram_queued (dgram : IPv4Datagram) (nextHop : Address)
    (h : n.cached nextHop.ipv4Numeric = false) :
    n.sendDatagram dgram nextHop = (.ok (), n.queued dgram nextHop.ipv4Numeric) := by
  simp only [sendDatagram, h, sendRequest, queued]
  cases n.requestDue nextHop.ipv4Numeric with
  | false => simp
  | true => rfl

/-- A datagram for which there is a current mapping goes out at once. -/
theorem sendDatagram_cached {dgram : IPv4Datagram} {nextHop : Address} {payload : BufferList}
    (h : n.cached nextHop.ipv4Numeric = true) (hserialize : dgram.serialize = .ok payload) :
    n.sendDatagram dgram nextHop =
      (.ok (), { n with
        framesOut := n.framesOut ++ [⟨⟨n.ipToEthernetCache nextHop.ipv4Numeric, n.ethernetAddress,
          EthernetHeader.typeIPv4⟩, payload⟩] }) := by
  simp [sendDatagram, h, datagramFrame, hserialize, pushFrame]

/-- With a current mapping, a datagram that cannot be serialised changes nothing. -/
theorem sendDatagram_failed {dgram : IPv4Datagram} {nextHop : Address} {e : String}
    (h : n.cached nextHop.ipv4Numeric = true) (hfail : dgram.serialize = .error e) :
    n.sendDatagram dgram nextHop = (.error e, n) := by
  simp [sendDatagram, h, datagramFrame, hfail, pushFrame]

/-- A datagram that can be serialised makes no trouble. -/
theorem sendDatagram_ok {dgram : IPv4Datagram} (nextHop : Address) (h : dgram.Serializable) :
    (n.sendDatagram dgram nextHop).1 = .ok () := by
  obtain ⟨payload, h⟩ := h
  cases hcached : n.cached nextHop.ipv4Numeric with
  | true => rw [sendDatagram_cached hcached h]
  | false => rw [sendDatagram_queued dgram nextHop hcached]

/-- The waiting datagrams go out in their order. -/
theorem flush_eq (dst : EthernetAddress) (dgrams : List IPv4Datagram) (payloads : List BufferList)
    (h : dgrams.map IPv4Datagram.serialize = payloads.map Except.ok) (n : NetworkInterface) :
    flush dst dgrams n = (.ok (), { n with
      framesOut := n.framesOut ++ payloads.map fun payload =>
        ⟨⟨dst, n.ethernetAddress, EthernetHeader.typeIPv4⟩, payload⟩ }) := by
  induction dgrams generalizing payloads n with
  | nil =>
      rw [List.map_nil, eq_comm, List.map_eq_nil_iff] at h
      rw [h, flush, List.map_nil, List.append_nil]
  | cons dgram dgrams ih =>
      cases payloads with
      | nil => cases h
      | cons payload payloads =>
          rw [List.map_cons, List.map_cons, List.cons.injEq] at h
          rw [flush, datagramFrame, h.1]
          simp only [pushFrame, andThen_ok]
          rw [ih payloads h.2]
          simp

theorem flush_append (dst : EthernetAddress) (front back : List IPv4Datagram)
    (n : NetworkInterface) :
    flush dst (front ++ back) n = andThen (flush dst front n) fun _ n => flush dst back n := by
  induction front generalizing n with
  | nil => rfl
  | cons dgram front ih =>
      rw [List.cons_append, flush, flush]
      cases n.pushFrame (n.datagramFrame dst dgram) with
      | mk result n' =>
          cases result with
          | error e => rfl
          | ok u =>
              simp only [andThen_ok]
              exact ih n'

/-- The loop stops at a datagram that cannot be serialised; those in front of it have gone
out. -/
theorem flush_failed (dst : EthernetAddress) {sent : List IPv4Datagram}
    {payloads : List BufferList} (h : sent.map IPv4Datagram.serialize = payloads.map Except.ok)
    {dgram : IPv4Datagram} {e : String} (hfail : dgram.serialize = .error e)
    (rest : List IPv4Datagram) (n : NetworkInterface) :
    flush dst (sent ++ dgram :: rest) n = (.error e, { n with
      framesOut := n.framesOut ++ payloads.map fun payload =>
        ⟨⟨dst, n.ethernetAddress, EthernetHeader.typeIPv4⟩, payload⟩ }) := by
  rw [flush_append, flush_eq dst sent payloads h, andThen_ok, flush, datagramFrame, hfail]
  rfl

/-- The interface behind an ARP message, when the waiting datagrams go out as `payloads`. -/
def answered (n : NetworkInterface) (message : ARPMessage) (payloads : List BufferList) :
    NetworkInterface :=
  { n.learn message with
    framesOut := n.framesOut ++ (payloads.map fun payload =>
        ⟨⟨message.senderEthernetAddress, n.ethernetAddress, EthernetHeader.typeIPv4⟩, payload⟩) ++
      if n.asksFor message then [n.replyFrame message] else []
    unsentDatagram := Function.update n.unsentDatagram message.senderIpAddress [] }

theorem unsentDatagram_answered (n : NetworkInterface) (message : ARPMessage)
    (payloads : List BufferList) (ip : UInt32) :
    (n.answered message payloads).unsentDatagram ip =
      if message.senderIpAddress = ip then [] else n.unsentDatagram ip := by
  by_cases hip : message.senderIpAddress = ip
  · simp [answered, ← hip]
  · simp [answered, hip, Function.update_of_ne (Ne.symm hip)]

theorem cacheTime_answered (n : NetworkInterface) (message : ARPMessage)
    (payloads : List BufferList) (ip : UInt32) :
    (n.answered message payloads).cacheTime ip =
      if message.senderIpAddress = ip then some n.nowTimeMs else n.cacheTime ip := by
  by_cases hip : message.senderIpAddress = ip
  · simp [answered, learn, ← hip]
  · simp [answered, learn, hip, Function.update_of_ne (Ne.symm hip)]

/-- An ARP message sends the datagrams that waited for it. -/
theorem recvArp_eq (message : ARPMessage) (payloads : List BufferList)
    (h : (n.unsentDatagram message.senderIpAddress).map IPv4Datagram.serialize =
      payloads.map Except.ok) :
    n.recvArp message = (.ok (), n.answered message payloads) := by
  have hcache : (n.learn message).ipToEthernetCache message.senderIpAddress =
      message.senderEthernetAddress := Function.update_self ..
  have hunsent : (n.learn message).unsentDatagram = n.unsentDatagram := rfl
  simp only [recvArp, hcache, hunsent]
  rw [flush_eq _ _ payloads h]
  simp only [andThen_ok, answer, answered]
  change (if n.asksFor message then _ else _) = _
  split
  · rfl
  · simp only [learn, List.append_nil]

/-- The interface behind an ARP message that made `recv_frame` throw, when `payloads` went out
before: the mapping is learned and the datagrams still wait. -/
def interrupted (n : NetworkInterface) (message : ARPMessage) (payloads : List BufferList) :
    NetworkInterface :=
  { n.learn message with
    framesOut := n.framesOut ++ payloads.map fun payload =>
      ⟨⟨message.senderEthernetAddress, n.ethernetAddress, EthernetHeader.typeIPv4⟩, payload⟩ }

/-- A datagram that cannot be serialised ends the work on an ARP message. -/
theorem recvArp_failed (message : ARPMessage) {sent rest : List IPv4Datagram}
    {payloads : List BufferList} (h : sent.map IPv4Datagram.serialize = payloads.map Except.ok)
    {dgram : IPv4Datagram} {e : String} (hfail : dgram.serialize = .error e)
    (hunsent : n.unsentDatagram message.senderIpAddress = sent ++ dgram :: rest) :
    n.recvArp message = (.error e, n.interrupted message payloads) := by
  have hcache : (n.learn message).ipToEthernetCache message.senderIpAddress =
      message.senderEthernetAddress := Function.update_self ..
  have hlearn : (n.learn message).unsentDatagram message.senderIpAddress =
      sent ++ dgram :: rest := hunsent
  simp only [recvArp, hcache, hlearn]
  rw [flush_failed _ h hfail]
  rfl

/-- The ARP message that a frame carries. -/
def heard (frame : EthernetFrame) : Option ARPMessage :=
  if frame.header.type = EthernetHeader.typeARP then
    match frame.payload.toBuffer with
    | .ok buffer =>
        let (result, message) := ({} : ARPMessage).parse buffer
        if result = .noError then some message else none
    | .error _ => none
  else none

/-- An ARP message is taken in. -/
theorem recvFrame_heard {frame : EthernetFrame} {message : ARPMessage}
    (h : heard frame = some message) :
    n.recvFrame frame = andThen (n.recvArp message) fun _ n => (.ok none, n) := by
  unfold heard at h
  split at h
  · rename_i htype
    have hother : frame.header.type ≠ EthernetHeader.typeIPv4 := by
      rw [htype]
      decide
    split at h
    · rename_i buffer hbuffer
      simp only at h
      split at h
      · rename_i haccept
        rw [Option.some.injEq] at h
        simp only [recvFrame, if_neg hother, if_pos htype, hbuffer, if_pos haccept, h]
      · cases h
    · cases h
  · cases h

/-- An ARP message sends all datagrams that waited for it, or those in front of the first one
that cannot be serialised; in the second case `recv_frame` throws. -/
theorem recvFrame_heard_cases {frame : EthernetFrame} {message : ARPMessage}
    (h : heard frame = some message) :
    ∃ (sent : List IPv4Datagram) (payloads : List BufferList),
      sent.map IPv4Datagram.serialize = payloads.map Except.ok ∧
        (n.unsentDatagram message.senderIpAddress = sent ∧
            n.recvFrame frame = (.ok none, n.answered message payloads) ∨
          ∃ dgram rest e, n.unsentDatagram message.senderIpAddress = sent ++ dgram :: rest ∧
            dgram.serialize = .error e ∧
              n.recvFrame frame = (.error e, n.interrupted message payloads)) := by
  obtain ⟨sent, payloads, hpayloads, hsplit⟩ :=
    IPv4Datagram.exists_payloads_or_first_error (n.unsentDatagram message.senderIpAddress)
  refine ⟨sent, payloads, hpayloads, ?_⟩
  rw [recvFrame_heard h]
  rcases hsplit with hall | ⟨dgram, rest, e, hfirst, he⟩
  · refine Or.inl ⟨hall, ?_⟩
    rw [recvArp_eq message payloads (by rw [hall]; exact hpayloads)]
    rfl
  · refine Or.inr ⟨dgram, rest, e, hfirst, he, ?_⟩
    rw [recvArp_failed message hpayloads he hfirst]
    rfl

/-- A frame without an ARP message leaves the interface alone. -/
theorem recvFrame_unheard {frame : EthernetFrame} (h : heard frame = none) :
    (n.recvFrame frame).2 = n := by
  unfold recvFrame
  split
  · split
    · rfl
    · simp only
      split <;> rfl
  · split
    · rename_i htype
      rw [heard, if_pos htype] at h
      split
      · rfl
      · rename_i buffer hbuffer
        simp only [hbuffer] at h ⊢
        split
        · rename_i haccept
          rw [if_pos haccept] at h
          cases h
        · rfl
    · rfl

/-- A frame in one buffer without an ARP message throws nothing. -/
theorem recvFrame_unheard_ok {frame : EthernetFrame} (h : heard frame = none)
    (hframe : frame.payload.buffers.length = 1) :
    ∃ result, (n.recvFrame frame).1 = .ok result := by
  obtain ⟨buffer, hbuffer⟩ := BufferList.exists_toBuffer hframe
  unfold recvFrame
  simp only [hbuffer]
  split
  · split <;> exact ⟨_, rfl⟩
  · split
    · rename_i htype
      simp only [heard, if_pos htype, hbuffer] at h
      split
      · rename_i haccept
        rw [if_pos haccept] at h
        cases h
      · exact ⟨_, rfl⟩
    · exact ⟨_, rfl⟩

/-- An IPv4 frame for the interface whose payload parses brings its datagram. -/
theorem recvFrame_accepted {frame : EthernetFrame} {buffer : Buffer} {dgram : IPv4Datagram}
    (htype : frame.header.type = EthernetHeader.typeIPv4)
    (hdst : frame.header.dst = n.ethernetAddress) (hbuffer : frame.payload.toBuffer = .ok buffer)
    (hparse : ({} : IPv4Datagram).parse buffer = (.noError, dgram)) :
    n.recvFrame frame = (.ok (some dgram), n) := by
  simp only [recvFrame, if_pos htype, hbuffer, hparse, hdst, and_self, if_true]

/-- A datagram that is returned was accepted from a frame for this interface. -/
theorem recvFrame_datagram {frame : EthernetFrame} {dgram : IPv4Datagram}
    (h : (n.recvFrame frame).1 = .ok (some dgram)) :
    frame.header.type = EthernetHeader.typeIPv4 ∧ frame.header.dst = n.ethernetAddress ∧
      ∃ buffer, frame.payload.toBuffer = .ok buffer ∧
        ({} : IPv4Datagram).parse buffer = (.noError, dgram) := by
  unfold recvFrame at h
  split at h
  · rename_i htype
    split at h
    · cases h
    · rename_i buffer hbuffer
      simp only at h
      split at h
      · rename_i haccept
        rw [Except.ok.injEq, Option.some.injEq] at h
        exact ⟨htype, haccept.2, buffer, hbuffer, Prod.ext haccept.1 h⟩
      · cases h
  · split at h
    · split at h
      · cases h
      · rename_i buffer hbuffer
        simp only at h
        split at h
        · cases hcall : n.recvArp (({} : ARPMessage).parse buffer).2 with
          | mk result n' =>
              rw [hcall] at h
              cases result with
              | error e => cases h
              | ok u => cases h
        · cases h
    · cases h

end NetworkInterface
end Sponge
