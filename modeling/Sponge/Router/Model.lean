import Sponge.NetworkInterface.Model

/-!
# The router

`AsyncNetworkInterface` and `Router` of `libsponge/router.{hh,cc}`: the interfaces queue
the datagrams they receive, and `route()` sends every queued datagram on, out of the
interface of the route whose prefix matches its destination best.

The search shifts a 32-bit number by up to 32 places.  A shift by 32 places is undefined in
C++, so its value is a parameter `shift32` of the model, about which nothing is assumed.
-/

namespace Sponge

/-! ## Interfaces with a queue -/

/-- `AsyncNetworkInterface`. -/
structure AsyncNetworkInterface extends NetworkInterface where
  datagramsOut : List IPv4Datagram

namespace AsyncNetworkInterface

/-- `AsyncNetworkInterface(ethernet_address, ip_address)`. -/
def new (ethernetAddress : EthernetAddress) (ipAddress : Address) : AsyncNetworkInterface where
  toNetworkInterface := NetworkInterface.new ethernetAddress ipAddress
  datagramsOut := []

/-- `send_datagram(dgram, next_hop)`, inherited. -/
def sendDatagram (n : AsyncNetworkInterface) (dgram : IPv4Datagram) (nextHop : Address) :
    Except String Unit × AsyncNetworkInterface :=
  let (result, base) := n.toNetworkInterface.sendDatagram dgram nextHop
  (result, { n with toNetworkInterface := base })

/-- `recv_frame(frame)`. -/
def recvFrame (n : AsyncNetworkInterface) (frame : EthernetFrame) :
    Except String Unit × AsyncNetworkInterface :=
  match n.toNetworkInterface.recvFrame frame with
  | (.error e, base) => (.error e, { n with toNetworkInterface := base })
  | (.ok none, base) => (.ok (), { n with toNetworkInterface := base })
  | (.ok (some dgram), base) =>
      (.ok (), { n with toNetworkInterface := base, datagramsOut := n.datagramsOut ++ [dgram] })

/-- `tick(ms_since_last_tick)`, inherited. -/
def tick (n : AsyncNetworkInterface) (msSinceLastTick : UInt64) : AsyncNetworkInterface :=
  { n with toNetworkInterface := n.toNetworkInterface.tick msSinceLastTick }

end AsyncNetworkInterface

/-! ## The routing table -/

/-- `Router::RouteMsg`. -/
structure RouteMsg where
  routePrefix : UInt32
  prefixLength : UInt8
  nextHop : UInt32
  interfaceNum : Nat
deriving DecidableEq, Repr

/-- `Router`. -/
@[ext]
structure Router where
  interfaces : List AsyncNetworkInterface
  routeTable : List RouteMsg

namespace Router

/-- `add_route(route_prefix, prefix_length, next_hop, interface_num)`: an absent next hop is
stored as 0. -/
def addRoute (r : Router) (routePrefix : UInt32) (prefixLength : UInt8)
    (nextHop : Option Address) (interfaceNum : Nat) : Router :=
  let hop := match nextHop with
    | some address => address.ipv4Numeric
    | none => 0
  { r with routeTable := r.routeTable ++ [⟨routePrefix, prefixLength, hop, interfaceNum⟩] }

/-! ## The search for a route -/

/-- `x >> i`. -/
def shiftRight (shift32 : UInt32 → UInt32) (x : UInt32) (i : Nat) : UInt32 :=
  if i < 32 then x >>> UInt32.ofNat i else shift32 x

/-- The loop over `i` that finds `match_len`, with `count` values of `i` left. -/
def matchLenFrom (shift32 : UInt32 → UInt32) (dstIp routePrefix : UInt32) (i : Nat) : Nat → UInt8
  | 0 => 0
  | count + 1 =>
      if shiftRight shift32 dstIp i = shiftRight shift32 routePrefix i then UInt8.ofNat (32 - i)
      else matchLenFrom shift32 dstIp routePrefix (i + 1) count

/-- `match_len` of a route. -/
def matchLen (shift32 : UInt32 → UInt32) (dstIp routePrefix : UInt32) : UInt8 :=
  matchLenFrom shift32 dstIp routePrefix 0 33

/-- The local variables of the search: `max_match_len`, and `best_match_iter` once `flag`
is set. -/
structure Search where
  maxMatchLen : UInt8 := 0
  bestMatch : Option RouteMsg := none
deriving DecidableEq, Repr

/-- One round of the search. -/
def Search.consider (shift32 : UInt32 → UInt32) (dstIp : UInt32) (search : Search)
    (route : RouteMsg) : Search :=
  if matchLen shift32 dstIp route.routePrefix ≥ route.prefixLength ∧
      route.prefixLength ≥ search.maxMatchLen then
    ⟨route.prefixLength, some route⟩
  else search

/-- The search through the table. -/
def findRoute (shift32 : UInt32 → UInt32) (r : Router) (dstIp : UInt32) : Option RouteMsg :=
  (r.routeTable.foldl (Search.consider shift32 dstIp) {}).bestMatch

/-! ## Routing -/

/-- `_interfaces[interface_num].send_datagram(dgram, next_hop)`; an invalid number, for which
the source has no defined behaviour, counts as a throw. -/
def sendOn (r : Router) (interfaceNum : Nat) (dgram : IPv4Datagram) (nextHop : Address) :
    Except String Unit × Router :=
  match r.interfaces[interfaceNum]? with
  | none => (.error "no such interface", r)
  | some interface =>
      let (result, interface) := interface.sendDatagram dgram nextHop
      (result, { r with interfaces := r.interfaces.set interfaceNum interface })

/-- `dgram.header().ttl--`. -/
def decrementTtl (dgram : IPv4Datagram) : IPv4Datagram :=
  { dgram with header := { dgram.header with ttl := dgram.header.ttl - 1 } }

/-- `route_one_datagram(dgram)`: the datagram is changed in place, so it is returned too. -/
def routeOneDatagram (shift32 : UInt32 → UInt32) (r : Router) (dgram : IPv4Datagram) :
    Except String Unit × IPv4Datagram × Router :=
  if dgram.header.ttl = 0 ∨ dgram.header.ttl = 1 then (.ok (), dgram, r)
  else
    let dgram := decrementTtl dgram
    let dstIp := dgram.header.dst
    match r.findRoute shift32 dstIp with
    | none => (.ok (), dgram, r)
    | some route =>
        let nextHop := if route.nextHop = 0 then dstIp else route.nextHop
        let (result, r) := r.sendOn route.interfaceNum dgram ⟨nextHop, 0⟩
        (result, dgram, r)

/-- `datagrams_out()` of interface `i` becomes `queue`. -/
def setQueue (r : Router) (i : Nat) (queue : List IPv4Datagram) : Router :=
  { r with interfaces := r.interfaces.modify i fun n => { n with datagramsOut := queue } }

/-- The loop of `route()` over the queue of interface `i`.  A datagram is popped only after
it was handled. -/
def routeQueue (shift32 : UInt32 → UInt32) (i : Nat) : List IPv4Datagram → Router →
    Except String Unit × Router
  | [], r => (.ok (), r)
  | dgram :: queue, r =>
      match r.routeOneDatagram shift32 dgram with
      | (.error e, dgram, r) => (.error e, r.setQueue i (dgram :: queue))
      | (.ok (), _, r) => routeQueue shift32 i queue (r.setQueue i queue)

/-- The datagrams queued at interface `i`. -/
def queue (r : Router) (i : Nat) : List IPv4Datagram :=
  match r.interfaces[i]? with
  | some interface => interface.datagramsOut
  | none => []

/-- The loop of `route()` over the interfaces. -/
def routeInterfaces (shift32 : UInt32 → UInt32) : List Nat → Router → Except String Unit × Router
  | [], r => (.ok (), r)
  | i :: is, r =>
      andThen (routeQueue shift32 i (r.queue i) r) fun _ r => routeInterfaces shift32 is r

/-- `route()`. -/
def route (shift32 : UInt32 → UInt32) (r : Router) : Except String Unit × Router :=
  routeInterfaces shift32 (List.range r.interfaces.length) r

end Router
end Sponge
