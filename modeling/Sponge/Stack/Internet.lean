import Sponge.Internet.Integrity
import Sponge.Stack.Refinement

/-!
# Connections across an internetwork

Two stations of an internetwork and everything between them are a channel.  Each of them is
connected to the other one, or listens on its port and is connected by the first SYN that
arrives.  The other stations may write what they like to whom they like, as long as they use
addresses of their own and, while one of the two listens, leave its port alone.

Main results:

- Theorem {lit}`Internet.Pair.ready_read`: a read leaves the two stations tied to each other.
- Theorem {lit}`internet_refines_network`: two hosts across an internetwork behave as two hosts of
  a network.
- Theorem {lit}`internet_stream_safety`: a host receives what its peer writes, in order and from
  the start.
-/

namespace Sponge

open Library

namespace Internet

variable {ι κ : Type}

/-- Two stations and the addresses of their connection. -/
structure Pair (ι : Type) where
  station : Side → ι
  address : Side → Address
  station_ne : station .a ≠ station .b
  address_ne : address .a ≠ address .b

namespace Pair

variable (pair : Pair ι)

/-- The adapter of a side, connected to the other one. -/
def connected (side : Side) : TCPOverIPv4Adapter :=
  ⟨⟨pair.address side, pair.address side.other⟩, false⟩

/-- A configuration that does not yet name the peer, under which no segment can be taken for one
of the connection. -/
structure Unbound (side : Side) (cfg : FdAdapterConfig) : Prop where
  source_ne : cfg.source ≠ pair.address side.other
  port_ne : ∀ side', cfg.destination.port ≠ (pair.address side').port

/-- The adapter of a side is connected, or listens on the port of the connection. -/
def Tied (side : Side) (base : TCPOverIPv4Adapter) : Prop :=
  base = pair.connected side ∨ base.listen = true ∧
    base.cfg.source.port = (pair.address side).port ∧ pair.Unbound side base.cfg

/-- Another station keeps to its own addresses, and leaves the port of a side that listens
alone. -/
structure Foreign (n : Internet ι κ) (cfg : FdAdapterConfig) : Prop where
  source_ne : ∀ side, cfg.source ≠ pair.address side
  port_ne : ∀ side, (n.station (pair.station side)).listen = true →
    cfg.destination.port ≠ (pair.address side).port

/-- Neither of the two stations. -/
def Elsewhere (s : ι) : Prop :=
  ∀ side, s ≠ pair.station side

/-- What happens elsewhere. -/
def EventOk (n : Internet ι κ) (e : Event ι κ) : Prop :=
  e.Legal n ∧
    match e with
    | .configure s _ => pair.Elsewhere s
    | .write s _ => pair.Elsewhere s ∧ pair.Foreign n (n.station s).cfg
    | .read s _ => pair.Elsewhere s
    | .tick s _ => pair.Elsewhere s
    | _ => True

section Decidable

variable [DecidableEq ι]

instance (side : Side) (cfg : FdAdapterConfig) : Decidable (pair.Unbound side cfg) :=
  decidable_of_iff (cfg.source ≠ pair.address side.other ∧
      ∀ side', cfg.destination.port ≠ (pair.address side').port)
    ⟨fun h => ⟨h.1, h.2⟩, fun h => ⟨h.source_ne, h.port_ne⟩⟩

instance (side : Side) (base : TCPOverIPv4Adapter) : Decidable (pair.Tied side base) :=
  inferInstanceAs (Decidable (_ ∨ _ ∧ _ ∧ _))

instance (n : Internet ι κ) (cfg : FdAdapterConfig) : Decidable (pair.Foreign n cfg) :=
  decidable_of_iff ((∀ side, cfg.source ≠ pair.address side) ∧
      ∀ side, (n.station (pair.station side)).listen = true →
        cfg.destination.port ≠ (pair.address side).port)
    ⟨fun h => ⟨h.1, h.2⟩, fun h => ⟨h.source_ne, h.port_ne⟩⟩

instance (s : ι) : Decidable (pair.Elsewhere s) :=
  inferInstanceAs (Decidable (∀ _, _))

instance (n : Internet ι κ) : ∀ e, Decidable (pair.EventOk n e)
  | .configure _ _ => inferInstanceAs (Decidable (_ ∧ pair.Elsewhere _))
  | .write _ _ => inferInstanceAs (Decidable (_ ∧ pair.Elsewhere _ ∧ _))
  | .read _ _ => inferInstanceAs (Decidable (_ ∧ pair.Elsewhere _))
  | .tick _ _ => inferInstanceAs (Decidable (_ ∧ pair.Elsewhere _))
  | .recvFrame _ _ _ => inferInstanceAs (Decidable (_ ∧ True))
  | .route _ => inferInstanceAs (Decidable (_ ∧ True))
  | .tickAt _ _ _ => inferInstanceAs (Decidable (_ ∧ True))
  | .transmit _ _ => inferInstanceAs (Decidable (_ ∧ True))

end Decidable

/-- The two stations are tied to each other, and what was written shows where it comes from. -/
structure Ready (rules : κ → List Router.Rule) (n : Internet ι κ) : Prop where
  sound : Sound rules n
  tied : ∀ side, pair.Tied side (n.station (pair.station side)).toTCPOverIPv4Adapter
  own : ∀ side, ∀ w ∈ n.written, w.station = pair.station side →
    w.cfg = (pair.connected side).cfg ∨ pair.Unbound side w.cfg
  foreign : ∀ w ∈ n.written, pair.Elsewhere w.station → ∀ side, w.cfg.source ≠ pair.address side
  listening : ∀ side, (n.station (pair.station side)).listen = true →
    ∀ w ∈ n.written, w.station ≠ pair.station side.other →
      w.cfg.destination.port ≠ (pair.address side).port

variable {pair} {side : Side} {rules : κ → List Router.Rule} {n : Internet ι κ}

theorem address_ne_other (side : Side) : pair.address side ≠ pair.address side.other := by
  cases side with
  | a => exact pair.address_ne
  | b => exact pair.address_ne.symm

theorem station_ne_other (pair : Pair ι) (side : Side) :
    pair.station side ≠ pair.station side.other := by
  cases side with
  | a => exact pair.station_ne
  | b => exact pair.station_ne.symm

theorem station_injective {side side' : Side} (h : pair.station side = pair.station side') :
    side = side' := by
  cases side <;> cases side'
  · rfl
  · exact absurd h pair.station_ne
  · exact absurd h.symm pair.station_ne
  · rfl

/-- Every station is one of the two or elsewhere. -/
theorem station_cases (pair : Pair ι) (side : Side) (s : ι) :
    s = pair.station side ∨ s = pair.station side.other ∨ pair.Elsewhere s := by
  by_cases hself : s = pair.station side
  · exact Or.inl hself
  · by_cases hother : s = pair.station side.other
    · exact Or.inr (Or.inl hother)
    · refine Or.inr (Or.inr ?_)
      cases side with
      | a => exact fun side' => by cases side' with | a => exact hself | b => exact hother
      | b => exact fun side' => by cases side' with | a => exact hother | b => exact hself

/-- A segment that a connected side may take was written by the other one. -/
theorem Ready.writer_of_connected (h : pair.Ready rules n) {w : Written ι} (hw : w ∈ n.written)
    (hsource : w.cfg.source = pair.address side.other) : w.station = pair.station side.other := by
  rcases pair.station_cases side w.station with hself | hother | helsewhere
  · rcases h.own side w hw hself with hcfg | hunbound
    · rw [hcfg] at hsource
      exact absurd hsource (address_ne_other side)
    · exact absurd hsource hunbound.source_ne
  · exact hother
  · exact absurd hsource (h.foreign w hw helsewhere side.other)

/-- A segment that a listening side may take was written by the other one, which is connected. -/
theorem Ready.writer_of_listening (h : pair.Ready rules n) {w : Written ι} (hw : w ∈ n.written)
    (hlisten : (n.station (pair.station side)).listen = true)
    (hport : w.cfg.destination.port = (pair.address side).port) :
    w.station = pair.station side.other ∧ w.cfg = (pair.connected side.other).cfg := by
  have hstation : w.station = pair.station side.other := by
    by_contra hne
    exact h.listening side hlisten w hw hne hport
  refine ⟨hstation, (h.own side.other w hw hstation).resolve_right fun hunbound => ?_⟩
  exact hunbound.port_ne side hport

/-- The two stations keep their configurations, and nothing is written. -/
theorem Ready.keep (h : pair.Ready rules n) {n' : Internet ι κ} (hsound : Sound rules n')
    (hwritten : n'.written = n.written)
    (hbase : ∀ side, (n'.station (pair.station side)).toTCPOverIPv4Adapter =
      (n.station (pair.station side)).toTCPOverIPv4Adapter) : pair.Ready rules n' where
  sound := hsound
  tied side := by
    rw [hbase]
    exact h.tied side
  own := by
    rw [hwritten]
    exact h.own
  foreign := by
    rw [hwritten]
    exact h.foreign
  listening side hlisten := by
    rw [hwritten]
    rw [hbase] at hlisten
    exact h.listening side hlisten

/-- The two stations keep their configurations, and one more segment is written. -/
theorem Ready.extend (h : pair.Ready rules n) {n' : Internet ι κ} {w : Written ι}
    (hsound : Sound rules n') (hwritten : n'.written = n.written ++ [w])
    (hbase : ∀ side, (n'.station (pair.station side)).toTCPOverIPv4Adapter =
      (n.station (pair.station side)).toTCPOverIPv4Adapter)
    (hown : ∀ side, w.station = pair.station side →
      w.cfg = (pair.connected side).cfg ∨ pair.Unbound side w.cfg)
    (hforeign : pair.Elsewhere w.station → ∀ side, w.cfg.source ≠ pair.address side)
    (hlistening : ∀ side, (n.station (pair.station side)).listen = true →
      w.station ≠ pair.station side.other →
        w.cfg.destination.port ≠ (pair.address side).port) : pair.Ready rules n' := by
  refine ⟨hsound, fun side => ?_, fun side v hv => ?_, fun v hv => ?_, fun side hlisten v hv => ?_⟩
  · rw [hbase]
    exact h.tied side
  all_goals
    rw [hwritten, List.mem_append, List.mem_singleton] at hv
    rcases hv with hv | rfl
  · exact h.own side v hv
  · exact hown side
  · exact h.foreign v hv
  · exact hforeign
  · rw [hbase] at hlisten
    exact h.listening side hlisten v hv
  · rw [hbase] at hlisten
    exact hlistening side hlisten

/-- Another station does not touch the two. -/
theorem station_become [DecidableEq ι] {s t : ι} (h : t ≠ s) (n : Internet ι κ)
    (a : TCPOverIPv4OverEthernetAdapter) : (n.become s a).station t = n.station t :=
  Function.update_of_ne h ..

/-- A station that keeps its configuration. -/
theorem base_become [DecidableEq ι] (n : Internet ι κ) (s t : ι)
    {a : TCPOverIPv4OverEthernetAdapter}
    (ha : a.toTCPOverIPv4Adapter = (n.station s).toTCPOverIPv4Adapter) :
    ((n.become s a).station t).toTCPOverIPv4Adapter = (n.station t).toTCPOverIPv4Adapter := by
  by_cases hst : t = s
  · subst hst
    simp only [become, Function.update_self]
    exact ha
  · rw [station_become hst]

section Steps

variable [DecidableEq ι] [DecidableEq κ] (shift32 : UInt32 → UInt32)

theorem base_write (n : Internet ι κ) (s t : ι) (seg : TCPSegment) :
    ((n.step shift32 (.write s seg)).station t).toTCPOverIPv4Adapter =
      (n.station t).toTCPOverIPv4Adapter :=
  base_become n s t (TCPOverIPv4OverEthernetAdapter.base_write _ _)

theorem base_tick (n : Internet ι κ) (s t : ι) (ms : UInt64) :
    ((n.step shift32 (.tick s ms)).station t).toTCPOverIPv4Adapter =
      (n.station t).toTCPOverIPv4Adapter :=
  base_become n s t (TCPOverIPv4OverEthernetAdapter.base_tick _ _)

/-- A segment is written at one of the two stations. -/
theorem ready_write (h : pair.Ready rules n) (side : Side) {seg : TCPSegment}
    (hseg : seg.Sized) : pair.Ready rules (n.step shift32 (.write (pair.station side) seg)) := by
  refine h.extend (h.sound.call shift32 (e := .write (pair.station side) seg) hseg).2 rfl
    (fun side' => base_write shift32 n _ _ seg) ?_ ?_ ?_
  · intro side' hside
    obtain rfl := station_injective hside
    rcases h.tied side with hconnected | ⟨-, -, hunbound⟩
    · exact Or.inl (congrArg TCPOverIPv4Adapter.cfg hconnected)
    · exact Or.inr hunbound
  · exact fun helsewhere => absurd rfl (helsewhere side)
  · intro side' hlisten hne
    obtain rfl : side = side' := by
      rcases pair.station_cases side' (pair.station side) with hself | hother | helsewhere
      · exact station_injective hself
      · exact absurd hother hne
      · exact absurd rfl (helsewhere side)
    rcases h.tied side with hconnected | ⟨-, -, hunbound⟩
    · rw [hconnected] at hlisten
      cases hlisten
    · exact hunbound.port_ne side

/-- A read for which nothing is returned leaves the configurations alone. -/
theorem base_read (n : Internet ι κ) (s t : ι) {arrival : Arrival}
    (hread : (n.call shift32 (.read s arrival)).1 = .ok none) :
    ((n.step shift32 (.read s arrival)).station t).toTCPOverIPv4Adapter =
      (n.station t).toTCPOverIPv4Adapter := by
  simp only [Internet.step, Internet.call] at hread ⊢
  split at hread
  · rfl
  · exact base_become n s t (TCPOverIPv4OverEthernetAdapter.base_read hread)

theorem written_read (n : Internet ι κ) (s : ι) (arrival : Arrival) :
    (n.step shift32 (.read s arrival)).written = n.written := by
  simp only [Internet.step, Internet.call]
  split
  · rfl
  · rfl

/-- The other stations are left alone by a read. -/
theorem station_read (n : Internet ι κ) {s t : ι} (h : t ≠ s) (arrival : Arrival) :
    (n.step shift32 (.read s arrival)).station t = n.station t := by
  simp only [Internet.step, Internet.call]
  split
  · rfl
  · exact station_become h n _

/-- A segment that one of the two stations reads was written by the other one, and leaves the
reader connected to it. -/
theorem Ready.read_returns (h : pair.Ready rules n) {arrival : Arrival} (hlegal : arrival.Legal)
    {seg : TCPSegment}
    (hread : (n.call shift32 (.read (pair.station side) arrival)).1 = .ok (some seg)) :
    (∃ w ∈ n.written, w.station = pair.station side.other ∧ seg.bare = w.seg.bare) ∧
      ((n.step shift32 (.read (pair.station side) arrival)).station
        (pair.station side)).toTCPOverIPv4Adapter = pair.connected side := by
  obtain ⟨w, hw, hdelivered, hbound, hkept, hopens⟩ :=
    h.sound.read_returns shift32 hlegal hread
  have hbare : seg.bare = w.seg.bare := by
    rw [hdelivered]
    rfl
  rcases h.tied side with hconnected | ⟨hlisten, hport, -⟩
  · have hlisten : (n.station (pair.station side)).listen = false := by
      rw [hconnected]
      rfl
    rw [hkept hlisten, hconnected] at hbound ⊢
    have hcfg := congrArg TCPOverIPv4Adapter.cfg hbound
    have hsource : w.cfg.source = pair.address side.other :=
      (congrArg FdAdapterConfig.destination hcfg).symm
    exact ⟨⟨w, hw, h.writer_of_connected hw hsource, hbare⟩, rfl⟩
  · obtain ⟨hstation, hcfg⟩ :=
      h.writer_of_listening hw hlisten ((hopens hlisten).1.trans hport)
    refine ⟨⟨w, hw, hstation, hbare⟩, ?_⟩
    rw [hbound, hcfg]
    simp only [connected, Side.other_other]

/-- Something arrives at one of the two stations. -/
theorem ready_read (h : pair.Ready rules n) (side : Side) {arrival : Arrival}
    (hlegal : arrival.Legal) :
    pair.Ready rules (n.step shift32 (.read (pair.station side) arrival)) := by
  obtain ⟨⟨result, hresult⟩, hsound⟩ :=
    h.sound.call shift32 (e := .read (pair.station side) arrival) hlegal
  have hwritten := written_read shift32 n (pair.station side) arrival
  cases result with
  | none => exact h.keep hsound hwritten fun side' => base_read shift32 n _ _ hresult
  | some seg =>
      obtain ⟨-, hconnected⟩ := h.read_returns shift32 hlegal hresult
      have hother := station_read shift32 n (pair.station_ne_other side).symm arrival
      refine ⟨hsound, fun side' => ?_, by rw [hwritten]; exact h.own,
        by rw [hwritten]; exact h.foreign, fun side' hlisten => ?_⟩
      · by_cases hside : side' = side
        · subst hside
          exact Or.inl hconnected
        · obtain rfl : side' = side.other := Side.eq_other_of_ne hside
          rw [hother]
          exact h.tied _
      · by_cases hside : side' = side
        · subst hside
          rw [hconnected] at hlisten
          cases hlisten
        · obtain rfl : side' = side.other := Side.eq_other_of_ne hside
          rw [hother] at hlisten
          rw [hwritten]
          exact h.listening _ hlisten

/-- Time passes at one of the two stations. -/
theorem ready_tick (h : pair.Ready rules n) (side : Side) (ms : UInt64) :
    pair.Ready rules (n.step shift32 (.tick (pair.station side) ms)) :=
  h.keep (h.sound.call shift32 (e := .tick (pair.station side) ms) trivial).2 rfl
    fun _ => base_tick shift32 n _ _ ms

/-- Something happens elsewhere. -/
theorem ready_other (h : pair.Ready rules n) {e : Event ι κ} (hok : pair.EventOk n e) :
    pair.Ready rules (n.step shift32 e) := by
  obtain ⟨hlegal, hevent⟩ := hok
  have hsound := (h.sound.call shift32 hlegal).2
  cases e with
  | configure s base =>
      refine h.keep hsound rfl fun side => ?_
      exact congrArg _ (station_become (hevent side).symm n _)
  | write s seg =>
      obtain ⟨helsewhere, hforeign⟩ := hevent
      exact h.extend hsound rfl (fun side => base_write shift32 n _ _ seg)
        (fun side hside => absurd hside (helsewhere side)) (fun _ => hforeign.source_ne)
        fun side hlisten _ => hforeign.port_ne side hlisten
  | read s arrival =>
      refine h.keep hsound (written_read shift32 n s arrival) fun side => ?_
      exact congrArg _ (station_read shift32 n (hevent side).symm arrival)
  | tick s ms => exact h.keep hsound rfl fun side => base_tick shift32 n _ _ ms
  | recvFrame k i arrival =>
      refine h.keep hsound ?_ fun side => ?_
      all_goals
        simp only [Internet.step, Internet.call]
        split
        · rfl
        · split <;> rfl
  | route k => exact h.keep hsound rfl fun side => rfl
  | tickAt k i ms => exact h.keep hsound rfl fun side => rfl
  | transmit k i =>
      refine h.keep hsound ?_ fun side => ?_
      all_goals
        simp only [Internet.step, Internet.call]
        split <;> rfl

end Steps

/-! ## The channel -/

section Written

variable [DecidableEq ι]

/-- What one of the two stations has written. -/
def written (pair : Pair ι) (n : Internet ι κ) (side : Side) : List TCPSegment :=
  (n.written.filter fun w => decide (w.station = pair.station side)).map Written.seg

theorem written_append (n : Internet ι κ) (w : Written ι) (side : Side) :
    pair.written { n with written := n.written ++ [w] } side =
      if w.station = pair.station side then pair.written n side ++ [w.seg]
      else pair.written n side := by
  by_cases hw : w.station = pair.station side
  · simp [written, hw]
  · simp [written, hw]

/-- What happens elsewhere is not written by the two stations. -/
theorem written_other [DecidableEq κ] (shift32 : UInt32 → UInt32) {e : Event ι κ}
    (hok : pair.EventOk n e) : pair.written (n.step shift32 e) = pair.written n := by
  obtain ⟨-, hevent⟩ := hok
  cases e with
  | write s seg =>
      funext side
      refine (written_append n ⟨s, (n.station s).cfg, seg⟩ side).trans ?_
      rw [if_neg (hevent.1 side)]
  | read s arrival =>
      funext side
      simp only [written, written_read]
  | recvFrame k i arrival =>
      simp only [Internet.step, Internet.call]
      split
      · rfl
      · split <;> rfl
  | transmit k i =>
      simp only [Internet.step, Internet.call]
      split <;> rfl
  | _ => rfl

/-- One of the two stations reads what the other one wrote. -/
theorem Ready.authentic [DecidableEq κ] (shift32 : UInt32 → UInt32) (h : pair.Ready rules n)
    {arrival : Arrival} (hlegal : arrival.Legal) {seg : TCPSegment}
    (hread : (n.call shift32 (.read (pair.station side) arrival)).1.toOption.join = some seg) :
    ∃ original ∈ pair.written n side.other, seg.bare = original.bare := by
  have hreturned : (n.call shift32 (.read (pair.station side) arrival)).1 = .ok (some seg) := by
    cases hresult : (n.call shift32 (.read (pair.station side) arrival)).1 with
    | error e =>
        rw [hresult] at hread
        cases hread
    | ok returned =>
        rw [hresult] at hread
        exact congrArg Except.ok hread
  obtain ⟨⟨w, hw, hstation, hbare⟩, -⟩ := h.read_returns shift32 hlegal hreturned
  refine ⟨w.seg, List.mem_map_of_mem (List.mem_filter.mpr ⟨hw, ?_⟩), hbare⟩
  exact decide_eq_true hstation

end Written

/-- Two stations and all that lies between them. -/
def channel [DecidableEq ι] [DecidableEq κ] (pair : Pair ι) (shift32 : UInt32 → UInt32)
    (rules : κ → List Router.Rule) : Channel where
  State := Internet ι κ
  Input := Arrival
  Event := Event ι κ
  write n side seg := n.step shift32 (.write (pair.station side) seg)
  read n side arrival :=
    ((n.call shift32 (.read (pair.station side) arrival)).1.toOption.join,
      n.step shift32 (.read (pair.station side) arrival))
  tick n side ms := n.step shift32 (.tick (pair.station side) ms)
  other n e := n.step shift32 e
  written := pair.written
  Ready := pair.Ready rules
  InputOk _ _ arrival := arrival.Legal
  EventOk := pair.EventOk
  ready_write _ side _ h hseg := ready_write shift32 h side hseg
  ready_read _ side _ h hlegal := ready_read shift32 h side hlegal
  ready_tick _ side ms h := ready_tick shift32 h side ms
  ready_other _ _ h hok := ready_other shift32 h hok
  written_write n side seg side' := by
    refine (written_append n ⟨pair.station side, _, seg⟩ side').trans ?_
    refine ite_congr (propext ⟨fun h => (station_injective h).symm, fun h => h ▸ rfl⟩)
      (fun _ => rfl) fun _ => rfl
  written_read n side arrival := by
    funext side'
    simp only [written, written_read]
  written_tick _ _ _ := rfl
  written_other _ _ hok := written_other shift32 hok
  authentic _ _ _ _ h hlegal hread := h.authentic shift32 hlegal hread

section Decidable

variable [DecidableEq ι] [DecidableEq κ] (pair : Pair ι) (shift32 : UInt32 → UInt32)
  (rules : κ → List Router.Rule)

instance (n : (pair.channel shift32 rules).State) (side : Side)
    (arrival : (pair.channel shift32 rules).Input) :
    Decidable ((pair.channel shift32 rules).InputOk n side arrival) :=
  (inferInstance : ∀ arrival : Arrival, Decidable arrival.Legal) arrival

instance (n : (pair.channel shift32 rules).State) (e : (pair.channel shift32 rules).Event) :
    Decidable ((pair.channel shift32 rules).EventOk n e) :=
  (inferInstance : ∀ (n : Internet ι κ) (e : Event ι κ), Decidable (pair.EventOk n e)) n e

end Decidable

/-- Fresh stations that are tied to each other. -/
theorem ready_new (pair : Pair ι) (station : ι → StationPlan) (router : κ → RouterPlan)
    (hvalid : ∀ k, (router k).Valid)
    (htied : ∀ side, pair.Tied side (station (pair.station side)).base) :
    pair.Ready (fun k => (router k).rules) (new station router) where
  sound := sound_new station router hvalid
  tied := htied
  own _ _ hw := absurd hw List.not_mem_nil
  foreign _ hw := absurd hw List.not_mem_nil
  listening _ _ _ hw := absurd hw List.not_mem_nil

end Pair

/-! ## Runs -/

section Runs

variable [DecidableEq ι] [DecidableEq κ] (shift32 : UInt32 → UInt32) (pair : Pair ι)
  (station : ι → StationPlan) (router : κ → RouterPlan) (cfg : Side → TCPConfig)
  (random : Side → UInt32)

/-- Two fresh hosts on stations of a fresh internetwork. -/
def hosts : Stack (pair.channel shift32 fun k => (router k).rules) :=
  Stack.new (new station router : Internet ι κ) cfg random

/-- Two hosts whose segments cross an internetwork, with routers, address resolution, listening
adapters and other stations, behave as two hosts of a network that loses, repeats, delays and
reorders segments: forget what lies between them, and the run is a run of that network.

The adapters of the two hosts are tied to each other, and the rules of the routers name interfaces
that exist.  Along the run, operations are invoked on active connections, fewer than `2 ^ 31` bytes
are in flight and fewer than `2 ^ 62` were written, the seqnos that arrive are unambiguous, and no
IPv4 frame arrives that was not sent before.  The two stations are used by their hosts only; the
others write segments that fit a datagram, from addresses of their own, and not to the port of a
side that listens. -/
theorem internet_refines_network (hvalid : ∀ k, (router k).Valid)
    (htied : ∀ side, pair.Tied side (station (pair.station side)).base)
    (events : List (Stack.Event (pair.channel shift32 fun k => (router k).rules)))
    (hrun : Admissible Stack.step Stack.Event.Ok (hosts shift32 pair station router cfg random)
      events) :
    ∃ trace, Admissible Network.step (Network.Allows Event.SeqnoOk)
        (Network.new (cfg .a) (cfg .b) (random .a) (random .b)) trace ∧
      (run Stack.step (hosts shift32 pair station router cfg random) events).network =
        run Network.step (Network.new (cfg .a) (cfg .b) (random .a) (random .b)) trace := by
  have hready := pair.ready_new station router hvalid htied
  have hsound := Stack.sound_new (c := pair.channel shift32 fun k => (router k).rules) hready
    (fun _ => rfl) cfg random
  obtain ⟨-, trace, hadm, hend⟩ := Stack.sound_run hsound hrun
  exact ⟨trace, hadm, hend.symm⟩

/-- A client connects across a router to a server that listens, and sends three bytes. -/
theorem internet_refines_network_routed :
    let a : StationPlan := ⟨⟨⟨⟨1, 80⟩, ⟨2, 90⟩⟩, false⟩, ⟨[2, 0, 0, 0, 0, 1], rfl⟩, ⟨1, 0⟩, ⟨9, 0⟩⟩
    let b : StationPlan := ⟨⟨⟨⟨0, 90⟩, ⟨0, 0⟩⟩, true⟩, ⟨[2, 0, 0, 0, 0, 2], rfl⟩, ⟨2, 0⟩, ⟨8, 0⟩⟩
    let r : RouterPlan :=
      ⟨[(⟨[2, 0, 0, 0, 0, 9], rfl⟩, ⟨9, 0⟩), (⟨[2, 0, 0, 0, 0, 8], rfl⟩, ⟨8, 0⟩)],
        [⟨1, 32, none, 0⟩, ⟨2, 32, none, 1⟩]⟩
    let station : Side → StationPlan := fun s => if s = .a then a else b
    let router : Unit → RouterPlan := fun _ => r
    let pair : Pair Side :=
      ⟨id, fun side => if side = .a then ⟨1, 80⟩ else ⟨2, 90⟩, by decide, by decide⟩
    let cfg : Side → TCPConfig := fun _ => {}
    let random : Side → UInt32 := fun _ => 5
    let events : List (Stack.Event (pair.channel id fun k => (router k).rules)) :=
      [.connect .a, .transmit .a, .other (.recvFrame () 0 (.copy 1)), .other (.transmit () 0),
        .arrive .a (Arrival.copy 2), .other (.recvFrame () 0 (.copy 3)), .other (.route ()),
        .other (.transmit () 1), .arrive .b (Arrival.copy 4), .other (.recvFrame () 1 (.copy 6)),
        .other (.transmit () 1), .arrive .b (Arrival.copy 7), .transmit .b,
        .other (.recvFrame () 1 (.copy 8)), .other (.route ()), .other (.transmit () 0),
        .arrive .a (Arrival.copy 9), .write .a [1, 2, 3], .transmit .a, .transmit .a,
        .other (.recvFrame () 0 (.copy 11)), .other (.route ()), .other (.transmit () 1),
        .arrive .b (Arrival.copy 12)]
    ((run Stack.step (hosts id pair station router cfg random) events).host .b).received =
        [1, 2, 3] ∧
      ∃ trace, Admissible Network.step (Network.Allows Event.SeqnoOk)
          (Network.new (cfg .a) (cfg .b) (random .a) (random .b)) trace ∧
        (run Stack.step (hosts id pair station router cfg random) events).network =
          run Network.step (Network.new (cfg .a) (cfg .b) (random .a) (random .b)) trace := by
  intro a b r station router pair cfg random events
  have hall := internet_refines_network id pair station router cfg random (fun _ => by decide)
    (by decide +kernel) events (by decide +kernel)
  have hreceived : ((run Stack.step (hosts id pair station router cfg random) events).host
      .b).received = [1, 2, 3] := by decide +kernel
  generalize run Stack.step (hosts id pair station router cfg random) events = s
    at hall hreceived ⊢
  exact ⟨hreceived, hall⟩

/-- In such a run, with receiving capacities below `2 ^ 63`, the bytes that a host has received are
the beginning of the bytes that the application of its peer has written: links may lose, repeat and
reorder frames, ARP messages may be forged, and other stations may send what they like within these
bounds. -/
theorem internet_stream_safety (hvalid : ∀ k, (router k).Valid)
    (htied : ∀ side, pair.Tied side (station (pair.station side)).base)
    (hcapacity : ∀ side, (cfg side).recvCapacity < 2 ^ 63)
    (events : List (Stack.Event (pair.channel shift32 fun k => (router k).rules)))
    (hrun : Admissible Stack.step Stack.Event.Ok (hosts shift32 pair station router cfg random)
      events) (side : Side) :
    ((run Stack.step (hosts shift32 pair station router cfg random) events).host side).received <+:
      ((run Stack.step (hosts shift32 pair station router cfg random) events).host
        side.other).wrote :=
  Stack.received_isPrefix_wrote (c := pair.channel shift32 fun k => (router k).rules)
    (pair.ready_new station router hvalid htied) (fun _ => rfl) hcapacity hrun side

/-- Two stations on one link: the acknowledgement of the SYN is lost, the last segment arrives
first and twice. -/
theorem internet_stream_safety_reordered :
    let a : StationPlan := ⟨⟨⟨⟨1, 80⟩, ⟨2, 90⟩⟩, false⟩, ⟨[2, 0, 0, 0, 0, 1], rfl⟩, ⟨1, 0⟩, ⟨2, 0⟩⟩
    let b : StationPlan := ⟨⟨⟨⟨2, 90⟩, ⟨1, 80⟩⟩, false⟩, ⟨[2, 0, 0, 0, 0, 2], rfl⟩, ⟨2, 0⟩, ⟨1, 0⟩⟩
    let station : Side → StationPlan := fun s => if s = .a then a else b
    let router : Empty → RouterPlan := Empty.elim
    let pair : Pair Side :=
      ⟨id, fun side => if side = .a then ⟨1, 80⟩ else ⟨2, 90⟩, by decide, by decide⟩
    let cfg : Side → TCPConfig := fun _ => {}
    let random : Side → UInt32 := fun _ => 5
    let events : List (Stack.Event (pair.channel id fun k => (router k).rules)) :=
      [.connect .a, .transmit .a, .arrive .b (Arrival.copy 1), .arrive .a (Arrival.copy 3),
        .arrive .b (Arrival.copy 4), .transmit .b, .arrive .a (Arrival.copy 5), .write .a [1],
        .write .a [2, 3], .transmit .a, .transmit .a, .transmit .a, .arrive .b (Arrival.copy 8),
        .arrive .b (Arrival.copy 7), .arrive .b (Arrival.copy 8)]
    ((run Stack.step (hosts id pair station router cfg random) events).host .b).received =
        [1, 2, 3] ∧
      ((run Stack.step (hosts id pair station router cfg random) events).host .b).received <+:
        ((run Stack.step (hosts id pair station router cfg random) events).host
          Side.b.other).wrote := by
  intro a b station router pair cfg random events
  have hall := internet_stream_safety id pair station router cfg random (fun k => k.elim)
    (by decide +kernel) (fun _ => by decide) events (by decide +kernel) .b
  have hreceived : ((run Stack.step (hosts id pair station router cfg random) events).host
      .b).received = [1, 2, 3] := by decide +kernel
  generalize run Stack.step (hosts id pair station router cfg random) events = s
    at hall hreceived ⊢
  exact ⟨hreceived, hall⟩

end Runs

end Internet
end Sponge
