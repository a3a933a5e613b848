import Sponge.Library.LastMaximum
import Sponge.Router.Model

/-!
# Forwarding by longest prefix

What `route()` is for, stated without its loops: a datagram whose time to live has not run
out goes out once, by the last rule of longest prefix among the rules that match its
destination.

Main results:

- Theorem {lit}`le_matchLen_iff`: the shift search measures the common prefix.
- Theorem {lit}`findRoute_spec`: the table search finds the last rule of longest prefix.
- Theorem {lit}`routeOneDatagram_spec`: one datagram is handled as the rules say.
- Theorem {lit}`route_forwards`: `route()` handles every queued datagram once, in order, and
  empties the queues.
-/

namespace Sponge
namespace Router

open Library

/-! ## Rules -/

/-- The arguments of a call of `add_route`. -/
structure Rule where
  routePrefix : UInt32
  prefixLength : UInt8
  nextHop : Option Address
  interfaceNum : Nat
deriving DecidableEq, Repr

/-- The rule is added. -/
def addRule (r : Router) (rule : Rule) : Router :=
  r.addRoute rule.routePrefix rule.prefixLength rule.nextHop rule.interfaceNum

/-- The first `prefix_length` bits of the prefix and of the destination agree. -/
def Rule.Matches (dst : UInt32) (rule : Rule) : Prop :=
  rule.prefixLength.toNat ≤ 32 ∧ ∀ i < 32, 32 - rule.prefixLength.toNat ≤ i →
    rule.routePrefix.toNat.testBit i = dst.toNat.testBit i

instance (dst : UInt32) (rule : Rule) : Decidable (rule.Matches dst) :=
  inferInstanceAs (Decidable (_ ∧ _))

/-- The rule is the most recent of longest prefix among those that match. -/
def Best (rules : List Rule) (dst : UInt32) (rule : Rule) : Prop :=
  IsLastMax (Rule.Matches dst) (fun rule => rule.prefixLength.toNat) rules rule

/-- A call of `send_datagram`. -/
structure Send where
  interfaceNum : Nat
  dgram : IPv4Datagram
  nextHop : Address

/-- What becomes of a queued datagram. -/
inductive Handles (rules : List Rule) (dgram : IPv4Datagram) : Option Send → Prop where
  | expired (httl : dgram.header.ttl.toNat ≤ 1) : Handles rules dgram none
  | unreachable (hnone : ∀ rule ∈ rules, ¬ rule.Matches dgram.header.dst) :
      Handles rules dgram none
  | forwarded (rule : Rule) (httl : 1 < dgram.header.ttl.toNat)
      (hbest : Best rules dgram.header.dst rule) :
      Handles rules dgram (some ⟨rule.interfaceNum,
        { dgram with header := { dgram.header with ttl := dgram.header.ttl - 1 } },
        ⟨(rule.nextHop.map Address.ipv4Numeric).getD dgram.header.dst, 0⟩⟩)

/-! ## The length of the common prefix -/

/-- A shift by less than 32 is a division. -/
theorem toNat_shiftRight (shift32 : UInt32 → UInt32) (x : UInt32) {i : Nat} (h : i < 32) :
    (shiftRight shift32 x i).toNat = x.toNat / 2 ^ i := by
  have hi : (UInt32.ofNat i).toNat = i := by
    rw [UInt32.toNat_ofNat']
    omega
  rw [shiftRight, if_pos h, UInt32.toNat_shiftRight, hi, Nat.mod_eq_of_lt h,
    Nat.shiftRight_eq_div_pow]

/-- Two numbers agree from bit `i` on. -/
def AgreeFrom (x y : UInt32) (i : Nat) : Prop :=
  x.toNat / 2 ^ i = y.toNat / 2 ^ i

/-- Two words are equal behind a shift if their upper bits agree. -/
theorem shiftRight_eq_iff (shift32 : UInt32 → UInt32) (x y : UInt32) {i : Nat} (h : i < 32) :
    shiftRight shift32 x i = shiftRight shift32 y i ↔ AgreeFrom x y i := by
  rw [← UInt32.toNat_inj, toNat_shiftRight shift32 x h, toNat_shiftRight shift32 y h, AgreeFrom]

/-- Fewer upper bits agree as well. -/
theorem AgreeFrom.mono {x y : UInt32} {i j : Nat} (h : AgreeFrom x y i) (hij : i ≤ j) :
    AgreeFrom x y j := by
  obtain ⟨k, rfl⟩ := Nat.exists_eq_add_of_le hij
  rw [AgreeFrom, Nat.pow_add, ← Nat.div_div_eq_div_mul, ← Nat.div_div_eq_div_mul, h]

/-- To agree from bit `i` on is to agree in these bits. -/
theorem agreeFrom_iff (x y : UInt32) (i : Nat) :
    AgreeFrom x y i ↔ ∀ k < 32, i ≤ k → y.toNat.testBit k = x.toNat.testBit k := by
  constructor
  · intro h k _ hik
    have hbit := congrArg (Nat.testBit · (k - i)) h
    simp only [Nat.testBit_div_two_pow, Nat.sub_add_cancel hik] at hbit
    exact hbit.symm
  · intro h
    apply Nat.eq_of_testBit_eq
    intro k
    rw [Nat.testBit_div_two_pow, Nat.testBit_div_two_pow]
    by_cases hk : k + i < 32
    · exact (h (k + i) hk (Nat.le_add_left i k)).symm
    · have hpow : 2 ^ 32 ≤ 2 ^ (k + i) := Nat.pow_le_pow_right two_pos (not_lt.mp hk)
      rw [Nat.testBit_lt_two_pow (lt_of_lt_of_le x.toNat_lt hpow),
        Nat.testBit_lt_two_pow (lt_of_lt_of_le y.toNat_lt hpow)]

/-- The loop from `i` on, if it did not stop earlier. -/
theorem le_matchLenFrom_iff (shift32 : UInt32 → UInt32) (dst routePrefix : UInt32) (len : Nat) :
    ∀ count i, i + count = 33 → (∀ j < i, ¬ AgreeFrom dst routePrefix j) →
      (len ≤ (matchLenFrom shift32 dst routePrefix i count).toNat ↔
        len = 0 ∨ len ≤ 32 ∧ AgreeFrom dst routePrefix (32 - len)) := by
  intro count
  induction count with
  | zero =>
      intro i hi hno
      have h := hno (32 - len) (by omega)
      simp [matchLenFrom, h]
  | succ count ih =>
      intro i hi hno
      rw [matchLenFrom]
      by_cases hlast : i = 32
      · -- whatever a shift by 32 places gives, the length is 0
        subst hlast
        obtain rfl : count = 0 := by omega
        have hzero : (if shiftRight shift32 dst 32 = shiftRight shift32 routePrefix 32 then
            UInt8.ofNat (32 - 32) else matchLenFrom shift32 dst routePrefix (32 + 1) 0) = 0 := by
          split <;> rfl
        rw [hzero]
        by_cases hlen : len = 0
        · simp [hlen]
        · have h := hno (32 - len) (by omega)
          simp [hlen, h]
      · have hi32 : i < 32 := by omega
        split
        · rename_i hshift
          have hagree := (shiftRight_eq_iff shift32 dst routePrefix hi32).mp hshift
          have hvalue : (UInt8.ofNat (32 - i)).toNat = 32 - i := by
            rw [UInt8.toNat_ofNat']
            omega
          rw [hvalue]
          constructor
          · intro hlen
            exact Or.inr ⟨by omega, hagree.mono (by omega)⟩
          · rintro (rfl | ⟨hlen, hat⟩)
            · exact Nat.zero_le _
            · by_contra hlt
              exact hno (32 - len) (by omega) hat
        · rename_i hshift
          refine ih (i + 1) (by omega) ?_
          intro j hj
          rcases Nat.lt_succ_iff_lt_or_eq.mp hj with hj | rfl
          · exact hno j hj
          · exact fun hagree => hshift ((shiftRight_eq_iff shift32 _ _ hi32).mpr hagree)

/-- The prefix is no longer than `match_len` if and only if the rule matches. -/
theorem le_matchLen_iff (shift32 : UInt32 → UInt32) (dst : UInt32) (rule : Rule) :
    rule.prefixLength ≤ matchLen shift32 dst rule.routePrefix ↔ rule.Matches dst := by
  rw [UInt8.le_iff_toNat_le, matchLen, le_matchLenFrom_iff shift32 dst rule.routePrefix _ 33 0 rfl
    fun j hj => absurd hj (Nat.not_lt_zero j), agreeFrom_iff, Rule.Matches]
  constructor
  · rintro (hzero | h)
    · exact ⟨by omega, fun k hk hle => by omega⟩
    · exact h
  · exact Or.inr

/-! ## The search through the table -/

/-- The entry of a rule in the table. -/
def Rule.toRouteMsg (rule : Rule) : RouteMsg where
  routePrefix := rule.routePrefix
  prefixLength := rule.prefixLength
  nextHop := (rule.nextHop.map Address.ipv4Numeric).getD 0
  interfaceNum := rule.interfaceNum

/-- A rule becomes the last route of the table. -/
theorem addRule_eq (r : Router) (rule : Rule) :
    r.addRule rule = { r with routeTable := r.routeTable ++ [rule.toRouteMsg] } := by
  obtain ⟨routePrefix, prefixLength, nextHop, interfaceNum⟩ := rule
  cases nextHop <;> rfl

/-- Rules become routes in their order. -/
theorem foldl_addRule (rules : List Rule) (r : Router) :
    rules.foldl addRule r = { r with routeTable := r.routeTable ++ rules.map Rule.toRouteMsg } := by
  induction rules generalizing r with
  | nil => simp
  | cons rule rules ih => simp [ih, addRule_eq]

/-- The search keeps the last rule of longest prefix so far. -/
theorem foldl_consider (shift32 : UInt32 → UInt32) (dst : UInt32) (rules : List Rule) :
    let best := lastMax (Rule.Matches dst) (fun rule => rule.prefixLength.toNat) rules
    let search := (rules.map Rule.toRouteMsg).foldl (Search.consider shift32 dst) {}
    search.bestMatch = best.map Rule.toRouteMsg ∧
      search.maxMatchLen.toNat = best.elim ⊥ fun rule => rule.prefixLength.toNat := by
  induction rules using List.reverseRecOn with
  | nil => exact ⟨rfl, rfl⟩
  | append_singleton rules rule ih =>
      obtain ⟨hbest, hmax⟩ := ih
      have hiff : (rule.toRouteMsg.prefixLength ≤ matchLen shift32 dst rule.toRouteMsg.routePrefix ∧
          ((rules.map Rule.toRouteMsg).foldl (Search.consider shift32 dst) {}).maxMatchLen ≤
            rule.toRouteMsg.prefixLength) ↔
          (rule.Matches dst ∧ (lastMax (Rule.Matches dst) (fun rule => rule.prefixLength.toNat)
            rules).elim ⊥ (fun rule => rule.prefixLength.toNat) ≤ rule.prefixLength.toNat) := by
        refine and_congr (le_matchLen_iff shift32 dst rule) ?_
        rw [UInt8.le_iff_toNat_le, hmax]
        rfl
      simp only [List.map_append, List.map_cons, List.map_nil, List.foldl_append, List.foldl_cons,
        List.foldl_nil, lastMax_concat, Search.consider, lastMaxStep, ge_iff_le, hiff]
      split
      · exact ⟨rfl, rfl⟩
      · exact ⟨hbest, hmax⟩

/-- The table search finds the best rule, or no rule matches. -/
theorem findRoute_spec (shift32 : UInt32 → UInt32) {r : Router} {rules : List Rule}
    (htable : r.routeTable = rules.map Rule.toRouteMsg) (dst : UInt32) :
    (r.findRoute shift32 dst = none ∧ ∀ rule ∈ rules, ¬ rule.Matches dst) ∨
      ∃ rule, r.findRoute shift32 dst = some rule.toRouteMsg ∧ Best rules dst rule := by
  rw [findRoute, htable, (foldl_consider shift32 dst rules).1]
  rcases lastMax_spec (Rule.Matches dst) (fun rule => rule.prefixLength.toNat) rules with
    ⟨hnone, hall⟩ | ⟨rule, hsome, hbest⟩
  · rw [hnone]
    exact Or.inl ⟨rfl, hall⟩
  · rw [hsome]
    exact Or.inr ⟨rule, rfl, hbest⟩

/-! ## One datagram -/

/-- The call of `send_datagram` is made, if there is one. -/
def perform (r : Router) : Option Send → Except String Unit × Router
  | none => (.ok (), r)
  | some send => r.sendOn send.interfaceNum send.dgram send.nextHop

/-- The table holds the rules, and their interfaces exist. -/
structure Obeys (rules : List Rule) (r : Router) : Prop where
  table : r.routeTable = rules.map Rule.toRouteMsg
  valid : ∀ rule ∈ rules, rule.interfaceNum < r.interfaces.length

/-- A time to live that the router accepts. -/
theorem not_expired_iff (ttl : UInt8) : ¬ (ttl = 0 ∨ ttl = 1) ↔ 1 < ttl.toNat := by
  rw [← UInt8.toNat_inj, ← UInt8.toNat_inj, UInt8.toNat_zero, UInt8.toNat_one]
  omega

/-- The best rule is one of the rules. -/
theorem Best.mem {rules : List Rule} {dst : UInt32} {rule : Rule} (h : Best rules dst rule) :
    rule ∈ rules := by
  obtain ⟨before, after, rfl, -⟩ := h
  exact List.mem_append_right _ List.mem_cons_self

/-- The best rule matches. -/
theorem Best.matches {rules : List Rule} {dst : UInt32} {rule : Rule} (h : Best rules dst rule) :
    rule.Matches dst := by
  obtain ⟨_, _, _, hmatches, -⟩ := h
  exact hmatches

/-- One datagram is handled as the rules say. -/
theorem routeOneDatagram_spec (shift32 : UInt32 → UInt32) {r : Router} {rules : List Rule}
    (htable : r.routeTable = rules.map Rule.toRouteMsg)
    (hhop : ∀ rule ∈ rules, ∀ address ∈ rule.nextHop, address.ipv4Numeric ≠ 0)
    (dgram : IPv4Datagram) :
    ∃ outcome dgram', Handles rules dgram outcome ∧
      r.routeOneDatagram shift32 dgram =
        ((r.perform outcome).1, dgram', (r.perform outcome).2) := by
  unfold routeOneDatagram
  by_cases hexpired : dgram.header.ttl = 0 ∨ dgram.header.ttl = 1
  · rw [if_pos hexpired]
    have httl := mt (not_expired_iff _).mpr (not_not.mpr hexpired)
    exact ⟨none, dgram, .expired (not_lt.mp httl), rfl⟩
  · rw [if_neg hexpired]
    have httl := (not_expired_iff _).mp hexpired
    rcases findRoute_spec shift32 htable (decrementTtl dgram).header.dst with
      ⟨hnone, hall⟩ | ⟨rule, hsome, hbest⟩
    · simp only [hnone]
      exact ⟨none, decrementTtl dgram, .unreachable hall, rfl⟩
    · have hnextHop : (if rule.toRouteMsg.nextHop = 0 then (decrementTtl dgram).header.dst
          else rule.toRouteMsg.nextHop) =
          (rule.nextHop.map Address.ipv4Numeric).getD dgram.header.dst := by
        cases hrule : rule.nextHop with
        | none => simp [Rule.toRouteMsg, hrule, decrementTtl]
        | some address =>
            have hne := hhop rule hbest.mem address hrule
            simp [Rule.toRouteMsg, hrule, hne]
      simp only [hsome, hnextHop]
      exact ⟨_, decrementTtl dgram, .forwarded rule httl hbest, rfl⟩

/-- A datagram that can be serialised is sent without a throw. -/
theorem sendOn_ok {r : Router} {interfaceNum : Nat} (hnum : interfaceNum < r.interfaces.length)
    {dgram : IPv4Datagram} (h : dgram.Serializable) (nextHop : Address) :
    (r.sendOn interfaceNum dgram nextHop).1 = .ok () := by
  rw [sendOn, List.getElem?_eq_getElem hnum]
  exact NetworkInterface.sendDatagram_ok nextHop h

/-- A well-formed datagram is handled without a throw. -/
theorem Obeys.perform_ok {r : Router} {rules : List Rule} (h : Obeys rules r)
    {dgram : IPv4Datagram} (hdgram : dgram.WellFormed) {outcome : Option Send}
    (houtcome : Handles rules dgram outcome) : (r.perform outcome).1 = .ok () := by
  cases houtcome with
  | expired _ => rfl
  | unreachable _ => rfl
  | forwarded rule httl hbest =>
      have hless : (decrementTtl dgram).WellFormed :=
        ⟨hdgram.ver_eq, hdgram.hlen_ge, hdgram.hlen_le, hdgram.len_eq⟩
      exact sendOn_ok (h.valid rule hbest.mem) hless.serializable _

/-! ## Sends and queues

Sending changes an interface and leaves its queue alone, so the sends commute with what
`route()` does to the queues. -/

/-- Interface `i` is changed by `f`. -/
def modifyInterface (r : Router) (i : Nat) (f : AsyncNetworkInterface → AsyncNetworkInterface) :
    Router :=
  { r with interfaces := r.interfaces.modify i f }

/-- Sending changes one interface. -/
theorem sendOn_snd (r : Router) (i : Nat) (dgram : IPv4Datagram) (nextHop : Address) :
    (r.sendOn i dgram nextHop).2 =
      r.modifyInterface i fun n => (n.sendDatagram dgram nextHop).2 := by
  rw [sendOn, modifyInterface]
  cases h : r.interfaces[i]? with
  | none =>
      have hlength := List.getElem?_eq_none_iff.mp h
      rw [List.modify_eq_self hlength]
  | some interface => simp [List.modify_eq_set_getElem?, h]

/-- Changes that commute on an interface commute on the router. -/
theorem modifyInterface_comm (r : Router) (i j : Nat)
    (f g : AsyncNetworkInterface → AsyncNetworkInterface) (h : ∀ n, f (g n) = g (f n)) :
    (r.modifyInterface i g).modifyInterface j f = (r.modifyInterface j f).modifyInterface i g := by
  unfold modifyInterface
  congr 1
  apply List.ext_getElem?
  intro k
  simp only [List.getElem?_modify]
  cases r.interfaces[k]? with
  | none => rfl
  | some n =>
      by_cases hi : i = k
      · by_cases hj : j = k
        · simp [hi, hj, h]
        · simp [hi, hj]
      · simp [hi]

/-- Sending and setting a queue commute. -/
theorem perform_setQueue (r : Router) (i : Nat) (queue : List IPv4Datagram)
    (outcome : Option Send) :
    ((r.setQueue i queue).perform outcome).2 = (r.perform outcome).2.setQueue i queue := by
  cases outcome with
  | none => rfl
  | some send =>
      simp only [perform, sendOn_snd]
      exact modifyInterface_comm r i send.interfaceNum _ _ fun _ => rfl

/-- A queue is set to what it is. -/
theorem setQueue_queue (r : Router) (i : Nat) : r.setQueue i (r.queue i) = r := by
  obtain ⟨interfaces, table⟩ := r
  simp only [setQueue, queue, mk.injEq, and_true]
  apply List.ext_getElem?
  intro k
  rw [List.getElem?_modify]
  by_cases hk : i = k
  · subst hk
    cases interfaces[i]? <;> simp
  · simp [hk]

/-- The last setting of a queue counts. -/
theorem setQueue_setQueue (r : Router) (i : Nat) (queue queue' : List IPv4Datagram) :
    (r.setQueue i queue).setQueue i queue' = r.setQueue i queue' := by
  simp only [setQueue, mk.injEq, and_true]
  apply List.ext_getElem?
  intro k
  simp only [List.getElem?_modify]
  cases r.interfaces[k]? with
  | none => rfl
  | some n => by_cases hk : i = k <;> simp [hk]

/-- Only one queue is set. -/
theorem queue_setQueue (r : Router) {i : Nat} (hi : i < r.interfaces.length) (j : Nat)
    (q : List IPv4Datagram) : (r.setQueue i q).queue j = if i = j then q else r.queue j := by
  simp only [queue, setQueue, List.getElem?_modify]
  by_cases hj : i = j
  · subst hj
    simp [List.getElem?_eq_getElem hi]
  · cases r.interfaces[j]? <;> simp [hj]

/-- Sending leaves the queues of incoming datagrams alone. -/
theorem queue_perform (r : Router) (outcome : Option Send) (j : Nat) :
    (r.perform outcome).2.queue j = r.queue j := by
  cases outcome with
  | none => rfl
  | some send =>
      simp only [perform, sendOn_snd, modifyInterface, queue, List.getElem?_modify]
      cases r.interfaces[j]? with
      | none => rfl
      | some n =>
          by_cases hj : send.interfaceNum = j
          · simp [hj, AsyncNetworkInterface.sendDatagram]
          · simp [hj]

/-- Sending adds no interface. -/
theorem length_perform (r : Router) (outcome : Option Send) :
    (r.perform outcome).2.interfaces.length = r.interfaces.length := by
  cases outcome with
  | none => rfl
  | some send => simp [perform, sendOn_snd, modifyInterface]

theorem length_setQueue (r : Router) (i : Nat) (q : List IPv4Datagram) :
    (r.setQueue i q).interfaces.length = r.interfaces.length := by
  simp [setQueue]

/-- Sending keeps the rules. -/
theorem Obeys.perform {r : Router} {rules : List Rule} (h : Obeys rules r)
    (outcome : Option Send) : Obeys rules (r.perform outcome).2 where
  table := by
    cases outcome with
    | none => exact h.table
    | some send =>
        rw [Router.perform, sendOn_snd]
        exact h.table
  valid rule hrule := by
    rw [length_perform]
    exact h.valid rule hrule

/-- Setting a queue keeps the rules. -/
theorem Obeys.setQueue {r : Router} {rules : List Rule} (h : Obeys rules r) (i : Nat)
    (q : List IPv4Datagram) : Obeys rules (r.setQueue i q) where
  table := h.table
  valid rule hrule := by
    rw [length_setQueue]
    exact h.valid rule hrule

/-! ## All datagrams -/

/-- The sends are made one after the other. -/
def performAll (r : Router) (outcomes : List (Option Send)) : Router :=
  outcomes.foldl (fun r outcome => (r.perform outcome).2) r

/-- The interfaces with empty queues. -/
def drained (r : Router) : Router :=
  { r with interfaces := r.interfaces.map fun n => { n with datagramsOut := [] } }

/-- The queues of the listed interfaces are emptied. -/
def drain (r : Router) : List Nat → Router
  | [] => r
  | i :: is => (r.setQueue i []).drain is

/-- The queues of the interfaces in the list are emptied. -/
theorem getElem?_drain (r : Router) (is : List Nat) (k : Nat) :
    (r.drain is).interfaces[k]? = r.interfaces[k]?.map fun n =>
      if k ∈ is then { n with datagramsOut := [] } else n := by
  induction is generalizing r with
  | nil => simp [drain]
  | cons i is ih =>
      rw [drain, ih, setQueue, List.getElem?_modify]
      cases r.interfaces[k]? with
      | none => rfl
      | some n =>
          by_cases hk : k ∈ is
          · by_cases hi : i = k <;> simp [hk, hi]
          · by_cases hi : i = k
            · simp [hi]
            · simp [hk, hi, Ne.symm hi]

/-- Emptying queues keeps the table. -/
theorem routeTable_drain (r : Router) (is : List Nat) :
    (r.drain is).routeTable = r.routeTable := by
  induction is generalizing r with
  | nil => rfl
  | cons i is ih => exact ih _

/-- To empty the queue of every interface is to empty all of them. -/
theorem drain_range (r : Router) : r.drain (List.range r.interfaces.length) = r.drained := by
  refine Router.ext ?_ (routeTable_drain r _)
  apply List.ext_getElem?
  intro k
  rw [getElem?_drain, drained, List.getElem?_map]
  by_cases hk : k < r.interfaces.length
  · simp [hk]
  · simp [List.getElem?_eq_none (not_lt.mp hk)]

/-- The queued datagrams, interface by interface. -/
theorem flatMap_queue (r : Router) :
    (List.range r.interfaces.length).flatMap r.queue =
      r.interfaces.flatMap AsyncNetworkInterface.datagramsOut := by
  rw [List.flatMap_def, List.flatMap_def]
  congr 1
  apply List.ext_getElem (by simp)
  intro i hi hi'
  have hlt : i < r.interfaces.length := by simpa using hi
  simp [queue, List.getElem?_eq_getElem hlt]

/-- Sending several datagrams and setting a queue commute. -/
theorem performAll_setQueue (r : Router) (i : Nat) (q : List IPv4Datagram)
    (outcomes : List (Option Send)) :
    (r.setQueue i q).performAll outcomes = (r.performAll outcomes).setQueue i q := by
  induction outcomes generalizing r with
  | nil => rfl
  | cons outcome outcomes ih =>
      change ((r.setQueue i q).perform outcome).2.performAll outcomes = _
      rw [perform_setQueue, ih]
      rfl

/-- Sending is done in order. -/
theorem performAll_append (r : Router) (os os' : List (Option Send)) :
    r.performAll (os ++ os') = (r.performAll os).performAll os' :=
  List.foldl_append

/-- Sending several datagrams keeps the rules. -/
theorem Obeys.performAll {r : Router} {rules : List Rule} (h : Obeys rules r)
    (outcomes : List (Option Send)) : Obeys rules (r.performAll outcomes) := by
  induction outcomes generalizing r with
  | nil => exact h
  | cons outcome outcomes ih => exact ih (h.perform outcome)

/-- Sending several datagrams leaves the queues alone. -/
theorem queue_performAll (r : Router) (outcomes : List (Option Send)) (j : Nat) :
    (r.performAll outcomes).queue j = r.queue j := by
  induction outcomes generalizing r with
  | nil => rfl
  | cons outcome outcomes ih => exact (ih _).trans (queue_perform r outcome j)

theorem length_performAll (r : Router) (outcomes : List (Option Send)) :
    (r.performAll outcomes).interfaces.length = r.interfaces.length := by
  induction outcomes generalizing r with
  | nil => rfl
  | cons outcome outcomes ih => exact (ih _).trans (length_perform r outcome)

section All

variable (shift32 : UInt32 → UInt32) {rules : List Rule}
  (hhop : ∀ rule ∈ rules, ∀ address ∈ rule.nextHop, address.ipv4Numeric ≠ 0)

include hhop

/-- The loop over a queue handles its datagrams in their order and empties it. -/
theorem routeQueue_spec {i : Nat} (queue : List IPv4Datagram)
    (hqueue : ∀ dgram ∈ queue, dgram.WellFormed) {r : Router} (h : Obeys rules r)
    (hr : r.queue i = queue) (hi : i < r.interfaces.length) :
    ∃ outcomes, List.Forall₂ (Handles rules) queue outcomes ∧
      routeQueue shift32 i queue r = (.ok (), (r.performAll outcomes).setQueue i []) := by
  induction queue generalizing r with
  | nil =>
      refine ⟨[], .nil, ?_⟩
      rw [routeQueue, performAll, List.foldl_nil, ← hr, setQueue_queue]
  | cons dgram queue ih =>
      obtain ⟨outcome, dgram', hhandles, hone⟩ :=
        routeOneDatagram_spec shift32 h.table hhop dgram
      have hok := h.perform_ok (hqueue dgram List.mem_cons_self) hhandles
      rw [hok] at hone
      have hi' : i < (r.perform outcome).2.interfaces.length := by
        rwa [length_perform]
      obtain ⟨outcomes, hall, hrest⟩ := ih (fun d hd => hqueue d (List.mem_cons_of_mem _ hd))
        ((h.perform outcome).setQueue i queue)
        (by rw [queue_setQueue _ hi', if_pos rfl]) (by rwa [length_setQueue])
      refine ⟨outcome :: outcomes, .cons hhandles hall, ?_⟩
      rw [routeQueue, hone]
      simp only
      rw [hrest, performAll_setQueue, setQueue_setQueue]
      rfl

/-- The loop over the interfaces handles the datagrams of each in turn. -/
theorem routeInterfaces_spec (is : List Nat) (hnodup : is.Nodup) {r : Router} (h : Obeys rules r)
    (hqueue : ∀ i, ∀ dgram ∈ r.queue i, dgram.WellFormed)
    (his : ∀ i ∈ is, i < r.interfaces.length) :
    ∃ outcomes, List.Forall₂ (Handles rules) (is.flatMap r.queue) outcomes ∧
      routeInterfaces shift32 is r = (.ok (), (r.performAll outcomes).drain is) := by
  induction is generalizing r with
  | nil => exact ⟨[], .nil, rfl⟩
  | cons i is ih =>
      obtain ⟨hnotMem, hnodup⟩ := List.nodup_cons.mp hnodup
      have hi := his i List.mem_cons_self
      obtain ⟨first, hfirst, hone⟩ :=
        routeQueue_spec shift32 hhop (r.queue i) (hqueue i) h rfl hi
      have hlength : i < (r.performAll first).interfaces.length := by
        rwa [length_performAll]
      -- the other queues are as they were
      have hother : ∀ j, ((r.performAll first).setQueue i []).queue j =
          if i = j then [] else r.queue j := by
        intro j
        rw [queue_setQueue _ hlength, queue_performAll]
      have hsame : is.flatMap ((r.performAll first).setQueue i []).queue = is.flatMap r.queue := by
        apply List.flatMap_congr
        intro j hj
        have hij : i ≠ j := fun hij => hnotMem (hij ▸ hj)
        rw [hother, if_neg hij]
      obtain ⟨rest, hrest, hmore⟩ := ih hnodup ((h.performAll first).setQueue i []) (by
          intro j dgram hdgram
          rw [hother] at hdgram
          split at hdgram
          · cases hdgram
          · exact hqueue j dgram hdgram) (by
          intro j hj
          rw [length_setQueue, length_performAll]
          exact his j (List.mem_cons_of_mem _ hj))
      rw [hsame] at hrest
      refine ⟨first ++ rest, ?_, ?_⟩
      · rw [List.flatMap_cons]
        exact List.rel_append hfirst hrest
      · rw [routeInterfaces, hone, andThen_ok, hmore, performAll_setQueue, performAll_append]
        rfl

end All

/-- `route()` handles every queued datagram once, in the order of the queues, by the last
matching rule of longest prefix, and empties the queues. -/
theorem route_forwards (shift32 : UInt32 → UInt32) (interfaces : List AsyncNetworkInterface)
    (rules : List Rule) (hnum : ∀ rule ∈ rules, rule.interfaceNum < interfaces.length)
    (hhop : ∀ rule ∈ rules, ∀ address ∈ rule.nextHop, address.ipv4Numeric ≠ 0)
    (hqueued : ∀ n ∈ interfaces, ∀ dgram ∈ n.datagramsOut, dgram.WellFormed) :
    let r := rules.foldl addRule ⟨interfaces, []⟩
    ∃ outcomes,
      List.Forall₂ (Handles rules) (interfaces.flatMap AsyncNetworkInterface.datagramsOut)
        outcomes ∧
      r.route shift32 = (.ok (), (r.performAll outcomes).drained) := by
  intro r
  have hr : r = ⟨interfaces, rules.map Rule.toRouteMsg⟩ := foldl_addRule rules _
  clear_value r
  subst hr
  have hobeys : Obeys rules ⟨interfaces, rules.map Rule.toRouteMsg⟩ := ⟨rfl, hnum⟩
  obtain ⟨outcomes, hall, hroute⟩ := routeInterfaces_spec shift32 hhop
    (List.range interfaces.length) List.nodup_range hobeys (by
      intro i dgram hdgram
      unfold queue at hdgram
      split at hdgram
      · rename_i n hn
        exact hqueued n (List.mem_of_getElem? hn) dgram hdgram
      · cases hdgram) (fun i hi => List.mem_range.mp hi)
  refine ⟨outcomes, ?_, ?_⟩
  · rw [← flatMap_queue ⟨interfaces, rules.map Rule.toRouteMsg⟩]
    exact hall
  · rw [route, hroute, ← drain_range, length_performAll]

/-- Of two rules that match, the one of longer prefix is taken, with bits beyond its prefix
ignored; a datagram of time to live 1 is dropped. -/
theorem route_forwards_longer :
    let interface : AsyncNetworkInterface :=
      ⟨NetworkInterface.new ⟨[2, 0, 0, 0, 0, 1], rfl⟩ ⟨5, 0⟩,
        [⟨{ len := 21, ttl := 9, dst := 0x0a000105 }, .ofBuffer [7]⟩,
          ⟨{ len := 21, ttl := 1, dst := 0x0a000105 }, .ofBuffer [7]⟩]⟩
    let rules : List Rule := [⟨0, 0, some ⟨3, 0⟩, 0⟩, ⟨0x0a0001ff, 24, none, 0⟩,
      ⟨0x0a000000, 8, some ⟨4, 0⟩, 0⟩]
    let r := rules.foldl addRule ⟨[interface], []⟩
    ∃ outcomes, List.Forall₂ (Handles rules) ([interface].flatMap
        AsyncNetworkInterface.datagramsOut) outcomes ∧
      r.route id = (.ok (), (r.performAll outcomes).drained) := by
  intro interface rules r
  exact route_forwards id [interface] rules (by decide) (by decide) (by decide)

end Router
end Sponge
