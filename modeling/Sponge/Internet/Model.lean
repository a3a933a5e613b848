import Sponge.Internet.Origin
import Sponge.Library.Execution

/-!
# An internetwork

Any number of stations, each with a `TCPOverIPv4OverEthernetAdapter`, and any number of
routers.  Their interfaces are joined by links about which nothing is assumed: every frame
that was ever written may arrive at any interface, any number of times and in any order, and
so may any other string that is no IPv4 frame, such as a forged ARP message.  So every
topology is covered, with loops, losses and broken links; that of `apps/lab7.cc`, two stations
behind two routers, is one of them.

A router reads a frame as the loop of `apps/lab7.cc` does: the frame is parsed and given to
`recv_frame()`, `route()` is called, and the frames of an interface are written one by one.

Next to the stations and routers the model keeps every frame that was written and, for each
segment that was passed to `write()`, the station and its addresses at that time.
-/

namespace Sponge

open Library

/-- A segment that a station wrote, and the configuration of its adapter. -/
structure Written (ι : Type) where
  station : ι
  cfg : FdAdapterConfig
  seg : TCPSegment
deriving DecidableEq, Repr

/-- The first frame of interface `i` is taken. -/
def Router.popFrame (r : Router) (i : Nat) : Option EthernetFrame × Router :=
  match r.interfaces[i]? with
  | none => (none, r)
  | some n =>
      match n.framesOut with
      | [] => (none, r)
      | frame :: frames =>
          (some frame, { r with interfaces := r.interfaces.set i { n with framesOut := frames } })

/-- Stations and routers, every frame that was written, and every segment that was passed to a
`write()`. -/
structure Internet (ι κ : Type) where
  station : ι → TCPOverIPv4OverEthernetAdapter
  router : κ → Router
  wire : List Buffer
  written : List (Written ι)

namespace Internet

variable {ι κ : Type}

/-- The addresses that a station starts with. -/
structure StationPlan where
  base : TCPOverIPv4Adapter
  ethAddress : EthernetAddress
  ipAddress : Address
  nextHop : Address

/-- The interfaces and the rules of a router. -/
structure RouterPlan where
  interfaces : List (EthernetAddress × Address)
  rules : List Router.Rule

/-- The interfaces that the rules name exist. -/
def RouterPlan.Valid (plan : RouterPlan) : Prop :=
  ∀ rule ∈ plan.rules, rule.interfaceNum < plan.interfaces.length

instance (plan : RouterPlan) : Decidable plan.Valid :=
  inferInstanceAs (Decidable (∀ _ ∈ _, _))

/-- A fresh station. -/
def StationPlan.build (plan : StationPlan) : TCPOverIPv4OverEthernetAdapter :=
  { TCPOverIPv4OverEthernetAdapter.new plan.ethAddress plan.ipAddress plan.nextHop with
    toTCPOverIPv4Adapter := plan.base }

/-- Fresh stations and routers. -/
def new (station : ι → StationPlan) (router : κ → RouterPlan) : Internet ι κ where
  station s := (station s).build
  router k := Router.fresh (router k).interfaces (router k).rules
  wire := []
  written := []

/-- What arrives at an interface: a frame that was written, or any other string. -/
inductive Arrival where
  | copy (index : Nat)
  | noise (bytes : Buffer)
deriving DecidableEq, Repr

/-- The string that arrives. -/
def bytes (n : Internet ι κ) : Arrival → Option Buffer
  | .copy index => n.wire[index]?
  | .noise bytes => some bytes

/-- What happens in the internetwork. -/
inductive Event (ι κ : Type) where
  | configure (s : ι) (base : TCPOverIPv4Adapter)
  | write (s : ι) (seg : TCPSegment)
  | read (s : ι) (arrival : Arrival)
  | tick (s : ι) (msSinceLastTick : UInt64)
  | recvFrame (k : κ) (i : Nat) (arrival : Arrival)
  | route (k : κ)
  | tickAt (k : κ) (i : Nat) (msSinceLastTick : UInt64)
  | transmit (k : κ) (i : Nat)
deriving DecidableEq, Repr

variable [DecidableEq ι] [DecidableEq κ]

/-- Station `s` becomes `a`, whose frames go onto the wire. -/
def become (n : Internet ι κ) (s : ι) (a : TCPOverIPv4OverEthernetAdapter) : Internet ι κ :=
  { n with
    station := Function.update n.station s { a with tap := [] }
    wire := n.wire ++ a.tap }

/-- Router `k` becomes `r`. -/
def becomeRouter (n : Internet ι κ) (k : κ) (r : Router) : Internet ι κ :=
  { n with router := Function.update n.router k r }

/-- The call that an event makes, with the segment that a `read()` returns. -/
def call (shift32 : UInt32 → UInt32) (n : Internet ι κ) :
    Event ι κ → Except String (Option TCPSegment) × Internet ι κ
  | .configure s base =>
      (.ok none, n.become s { n.station s with toTCPOverIPv4Adapter := base })
  | .write s seg =>
      let (result, _, a) := (n.station s).write seg
      (result.map fun _ => none,
        { n.become s a with written := n.written ++ [⟨s, (n.station s).cfg, seg⟩] })
  | .read s arrival =>
      match n.bytes arrival with
      | none => (.ok none, n)
      | some bytes =>
          let (result, a) := (n.station s).read bytes
          (result, n.become s a)
  | .tick s ms => (.ok none, n.become s ((n.station s).tick ms))
  | .recvFrame k i arrival =>
      match n.bytes arrival with
      | none => (.ok none, n)
      | some bytes =>
          let (result, frame) := EthernetFrame.blank.parse bytes
          if result ≠ .noError then (.ok none, n)
          else
            let (result, r) := (n.router k).recvFrameAt i frame
            (result.map fun _ => none, n.becomeRouter k r)
  | .route k =>
      let (result, r) := (n.router k).route shift32
      (result.map fun _ => none, n.becomeRouter k r)
  | .tickAt k i ms =>
      let (result, r) := (n.router k).tickAt i ms
      (result.map fun _ => none, n.becomeRouter k r)
  | .transmit k i =>
      match (n.router k).popFrame i with
      | (none, _) => (.ok none, n)
      | (some frame, r) =>
          (.ok none, { n.becomeRouter k r with wire := n.wire ++ [frame.serialize.concatenate] })

/-- The internetwork behind an event. -/
def step (shift32 : UInt32 → UInt32) (n : Internet ι κ) (e : Event ι κ) : Internet ι κ :=
  (n.call shift32 e).2

/-! ## Side conditions -/

/-- Only genuine IPv4 frames arrive. -/
def Arrival.Legal : Arrival → Prop
  | .copy _ => True
  | .noise bytes => (NetworkInterface.arriving bytes).header.type ≠ EthernetHeader.typeIPv4

instance : ∀ arrival : Arrival, Decidable arrival.Legal
  | .copy _ => inferInstanceAs (Decidable True)
  | .noise _ => inferInstanceAs (Decidable (_ ≠ _))

/-- Segments fit into datagrams, IPv4 frames are genuine, and interfaces exist. -/
def Event.Legal (n : Internet ι κ) : Event ι κ → Prop
  | .configure _ _ => True
  | .write _ seg => seg.Sized
  | .read _ arrival => arrival.Legal
  | .tick _ _ => True
  | .recvFrame k i arrival => i < (n.router k).interfaces.length ∧ arrival.Legal
  | .route _ => True
  | .tickAt k i _ => i < (n.router k).interfaces.length
  | .transmit _ _ => True

instance (n : Internet ι κ) : ∀ e, Decidable (Event.Legal n e)
  | .configure _ _ => inferInstanceAs (Decidable True)
  | .write _ _ => inferInstanceAs (Decidable (TCPSegment.Sized _))
  | .read _ _ => inferInstanceAs (Decidable (Arrival.Legal _))
  | .tick _ _ => inferInstanceAs (Decidable True)
  | .recvFrame _ _ _ => inferInstanceAs (Decidable (_ ∧ Arrival.Legal _))
  | .route _ => inferInstanceAs (Decidable True)
  | .tickAt _ _ _ => inferInstanceAs (Decidable (_ < _))
  | .transmit _ _ => inferInstanceAs (Decidable True)

end Internet
end Sponge
