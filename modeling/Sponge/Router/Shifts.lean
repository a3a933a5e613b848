import Sponge.Router.Forwarding

/-!
# The shifts of the search

For every route the search of `route_one_datagram` shifts the destination and the prefix by
`i = 0, 1, …, 32` places and stops at the first `i` at which they agree.  Both are 32-bit
numbers, and a shift of such a number by 32 places is undefined in C++.

Here the functions of the search are run with a record of the shifts of this loop.  What is
shifted elsewhere, when a datagram is sent, is not recorded.

Main results:

- Theorem {lit}`routeOneDatagramShifts_eq`: erasing the record gives `route_one_datagram` back.
- Theorem {lit}`mem_matchLenShifts`: the shifts that the loop performs for a route.
- Theorem {lit}`matchLen_eq_matchLen`: no value of the undefined shift changes `match_len`.
- Theorem {lit}`shifts_defined_iff`: all shifts are defined exactly if the destination has the
  first bit of every prefix in the table.
-/

namespace Sponge
namespace Router

/-! ## The search with a record of its shifts -/

/-- `value >> amount`. -/
structure Shift where
  value : UInt32
  amount : Nat
deriving DecidableEq, Repr

/-- `matchLenFrom` with its shifts. -/
def matchLenFromShifts (shift32 : UInt32 → UInt32) (dstIp routePrefix : UInt32) (i : Nat) :
    Nat → UInt8 × List Shift
  | 0 => (0, [])
  | count + 1 =>
      -- both sides are shifted before they are compared
      let shifts : List Shift := [⟨dstIp, i⟩, ⟨routePrefix, i⟩]
      if shiftRight shift32 dstIp i = shiftRight shift32 routePrefix i then
        (UInt8.ofNat (32 - i), shifts)
      else
        let (matchLen, later) := matchLenFromShifts shift32 dstIp routePrefix (i + 1) count
        (matchLen, shifts ++ later)

/-- `matchLen` with its shifts. -/
def matchLenShifts (shift32 : UInt32 → UInt32) (dstIp routePrefix : UInt32) :
    UInt8 × List Shift :=
  matchLenFromShifts shift32 dstIp routePrefix 0 33

/-- One round of the search, with the shifts so far. -/
def Search.considerShifts (shift32 : UInt32 → UInt32) (dstIp : UInt32)
    (state : Search × List Shift) (route : RouteMsg) : Search × List Shift :=
  let (search, earlier) := state
  let (matchLen, shifts) := matchLenShifts shift32 dstIp route.routePrefix
  if matchLen ≥ route.prefixLength ∧ route.prefixLength ≥ search.maxMatchLen then
    (⟨route.prefixLength, some route⟩, earlier ++ shifts)
  else (search, earlier ++ shifts)

/-- `findRoute` with its shifts. -/
def findRouteShifts (shift32 : UInt32 → UInt32) (r : Router) (dstIp : UInt32) :
    Option RouteMsg × List Shift :=
  let (search, shifts) := r.routeTable.foldl (Search.considerShifts shift32 dstIp) ({}, [])
  (search.bestMatch, shifts)

/-- `routeOneDatagram` with the shifts of its search. -/
def routeOneDatagramShifts (shift32 : UInt32 → UInt32) (r : Router) (dgram : IPv4Datagram) :
    (Except String Unit × IPv4Datagram × Router) × List Shift :=
  if dgram.header.ttl = 0 ∨ dgram.header.ttl = 1 then ((.ok (), dgram, r), [])
  else
    let dgram := decrementTtl dgram
    let dstIp := dgram.header.dst
    match r.findRouteShifts shift32 dstIp with
    | (none, shifts) => ((.ok (), dgram, r), shifts)
    | (some route, shifts) =>
        let nextHop := if route.nextHop = 0 then dstIp else route.nextHop
        let (result, r) := r.sendOn route.interfaceNum dgram ⟨nextHop, 0⟩
        ((result, dgram, r), shifts)

/-! ## Without the record -/

variable (shift32 : UInt32 → UInt32)

theorem fst_matchLenFromShifts (dstIp routePrefix : UInt32) (count : Nat) :
    ∀ i, (matchLenFromShifts shift32 dstIp routePrefix i count).1 =
      matchLenFrom shift32 dstIp routePrefix i count := by
  induction count with
  | zero =>
      intro i
      rfl
  | succ count ih =>
      intro i
      rw [matchLenFromShifts, matchLenFrom]
      split
      · rfl
      · exact ih (i + 1)

theorem considerShifts_eq (dstIp : UInt32) (search : Search) (earlier : List Shift)
    (route : RouteMsg) :
    Search.considerShifts shift32 dstIp (search, earlier) route =
      (search.consider shift32 dstIp route,
        earlier ++ (matchLenShifts shift32 dstIp route.routePrefix).2) := by
  have hmatchLen : (matchLenShifts shift32 dstIp route.routePrefix).1 =
      matchLen shift32 dstIp route.routePrefix := fst_matchLenFromShifts shift32 _ _ 33 0
  simp only [Search.considerShifts, Search.consider, hmatchLen]
  split
  · rfl
  · rfl

/-- The search performs the shifts of one route after those of the other. -/
theorem foldl_considerShifts (dstIp : UInt32) (routes : List RouteMsg) :
    ∀ search earlier, routes.foldl (Search.considerShifts shift32 dstIp) (search, earlier) =
      (routes.foldl (Search.consider shift32 dstIp) search,
        earlier ++ routes.flatMap fun route =>
          (matchLenShifts shift32 dstIp route.routePrefix).2) := by
  induction routes with
  | nil =>
      intro search earlier
      rw [List.flatMap_nil, List.append_nil]
      rfl
  | cons route routes ih =>
      intro search earlier
      rw [List.foldl_cons, considerShifts_eq, ih, List.flatMap_cons, List.append_assoc]
      rfl

theorem findRouteShifts_eq (r : Router) (dstIp : UInt32) :
    r.findRouteShifts shift32 dstIp =
      (r.findRoute shift32 dstIp, r.routeTable.flatMap fun route =>
        (matchLenShifts shift32 dstIp route.routePrefix).2) := by
  rw [findRouteShifts, foldl_considerShifts]
  rfl

/-- The datagram is routed as without the record.  If its time to live has run out it is
dropped before the search, else every route in the table is tried. -/
theorem routeOneDatagramShifts_eq (r : Router) (dgram : IPv4Datagram) :
    r.routeOneDatagramShifts shift32 dgram =
      (r.routeOneDatagram shift32 dgram,
        if dgram.header.ttl = 0 ∨ dgram.header.ttl = 1 then []
        else r.routeTable.flatMap fun route =>
          (matchLenShifts shift32 dgram.header.dst route.routePrefix).2) := by
  unfold routeOneDatagramShifts routeOneDatagram
  by_cases hexpired : dgram.header.ttl = 0 ∨ dgram.header.ttl = 1
  · rw [if_pos hexpired, if_pos hexpired, if_pos hexpired]
  · rw [if_neg hexpired, if_neg hexpired, if_neg hexpired]
    simp only [findRouteShifts_eq]
    cases r.findRoute shift32 (decrementTtl dgram).header.dst with
    | none => rfl
    | some route => rfl

/-! ## The shifts for one route -/

theorem mem_round {dstIp routePrefix : UInt32} {i : Nat} {shift : Shift} :
    shift ∈ ([⟨dstIp, i⟩, ⟨routePrefix, i⟩] : List Shift) ↔
      (shift.value = dstIp ∨ shift.value = routePrefix) ∧ shift.amount = i := by
  obtain ⟨value, amount⟩ := shift
  simp only [List.mem_cons, Shift.mk.injEq, List.not_mem_nil, or_false]
  exact or_and_right.symm

/-- The loop from `i` on shifts both numbers until they agree. -/
theorem mem_matchLenFromShifts (dstIp routePrefix : UInt32) (shift : Shift) :
    ∀ count i, i + count = 33 →
      (shift ∈ (matchLenFromShifts shift32 dstIp routePrefix i count).2 ↔
        (shift.value = dstIp ∨ shift.value = routePrefix) ∧
          (i ≤ shift.amount ∧ shift.amount ≤ 32) ∧
          ∀ j, i ≤ j → j < shift.amount → ¬ AgreeFrom dstIp routePrefix j) := by
  intro count
  induction count with
  | zero =>
      intro i hi
      constructor
      · intro hmem
        cases hmem
      · rintro ⟨-, ⟨hle, hle32⟩, -⟩
        omega
  | succ count ih =>
      intro i hi
      have hround : shift.amount = i → (i ≤ shift.amount ∧ shift.amount ≤ 32) ∧
          ∀ j, i ≤ j → j < shift.amount → ¬ AgreeFrom dstIp routePrefix j := by
        rintro rfl
        exact ⟨⟨le_rfl, by omega⟩, fun j hle hlt => absurd hle (not_le.mpr hlt)⟩
      rw [matchLenFromShifts]
      split
      · rename_i hshift
        rw [mem_round]
        refine and_congr_right fun _ => ⟨hround, ?_⟩
        rintro ⟨⟨hle, hle32⟩, hno⟩
        -- a later round would come behind one at which the numbers agree
        by_contra hne
        have hlt : i < shift.amount := lt_of_le_of_ne hle (Ne.symm hne)
        have hagree := (shiftRight_eq_iff shift32 dstIp routePrefix (by omega)).mp hshift
        exact hno i le_rfl hlt hagree
      · rename_i hshift
        rw [List.mem_append, mem_round, ih (i + 1) (by omega), ← and_or_left]
        refine and_congr_right fun _ => ⟨?_, ?_⟩
        · rintro (heq | ⟨⟨hle, hle32⟩, hno⟩)
          · exact hround heq
          · refine ⟨⟨by omega, hle32⟩, fun j hij hj => ?_⟩
            rcases Nat.eq_or_lt_of_le hij with rfl | hlt
            · exact fun hagree => hshift ((shiftRight_eq_iff shift32 _ _ (by omega)).mpr hagree)
            · exact hno j hlt hj
        · rintro ⟨⟨hle, hle32⟩, hno⟩
          rcases Nat.eq_or_lt_of_le hle with heq | hlt
          · exact Or.inl heq.symm
          · exact Or.inr ⟨⟨hlt, hle32⟩, fun j hij hj => hno j (by omega) hj⟩

/-- The shifts for a route: of both numbers, by every amount up to 32 below which they do not
agree. -/
theorem mem_matchLenShifts (dstIp routePrefix : UInt32) (shift : Shift) :
    shift ∈ (matchLenShifts shift32 dstIp routePrefix).2 ↔
      (shift.value = dstIp ∨ shift.value = routePrefix) ∧ shift.amount ≤ 32 ∧
        ∀ j < shift.amount, ¬ AgreeFrom dstIp routePrefix j := by
  rw [matchLenShifts, mem_matchLenFromShifts shift32 dstIp routePrefix shift 33 0 rfl]
  simp only [Nat.zero_le, true_and, forall_const]

/-- The value of a shift by 32 places has no influence on `match_len`. -/
theorem matchLen_eq_matchLen (other : UInt32 → UInt32) (dstIp routePrefix : UInt32) :
    matchLen shift32 dstIp routePrefix = matchLen other dstIp routePrefix := by
  have hstart : ∀ j < 0, ¬ AgreeFrom dstIp routePrefix j :=
    fun j hj => absurd hj (Nat.not_lt_zero j)
  apply UInt8.toNat_inj.mp
  apply eq_of_forall_le_iff
  intro len
  exact (le_matchLenFrom_iff shift32 dstIp routePrefix len 33 0 rfl hstart).trans
    (le_matchLenFrom_iff other dstIp routePrefix len 33 0 rfl hstart).symm

/-- The two numbers have the same first bit. -/
def SameFirstBit (x y : UInt32) : Prop :=
  x.toNat.testBit 31 = y.toNat.testBit 31

theorem sameFirstBit_iff (x y : UInt32) : SameFirstBit x y ↔ AgreeFrom y x 31 := by
  rw [agreeFrom_iff]
  constructor
  · intro h k hk hle
    obtain rfl : k = 31 := by omega
    exact h
  · intro h
    exact h 31 (by decide) le_rfl

/-- The loop shifts by 32 places exactly if the numbers differ in their first bit. -/
theorem matchLenShifts_defined_iff (dstIp routePrefix : UInt32) :
    (∀ shift ∈ (matchLenShifts shift32 dstIp routePrefix).2, shift.amount < 32) ↔
      SameFirstBit routePrefix dstIp := by
  rw [sameFirstBit_iff]
  constructor
  · intro hdefined
    by_contra hdiffer
    have hlast : (⟨dstIp, 32⟩ : Shift) ∈ (matchLenShifts shift32 dstIp routePrefix).2 := by
      rw [mem_matchLenShifts]
      exact ⟨Or.inl rfl, le_rfl, fun j hj hagree => hdiffer (hagree.mono (Nat.le_of_lt_succ hj))⟩
    exact lt_irrefl 32 (hdefined _ hlast)
  · intro hagree shift hshift
    obtain ⟨-, -, hno⟩ := (mem_matchLenShifts shift32 dstIp routePrefix shift).mp hshift
    by_contra hundefined
    exact hno 31 (not_lt.mp hundefined) hagree

/-! ## The shifts for a datagram -/

/-- For a route all shifts are defined exactly if its prefix and the destination have the
same first bit, and for a datagram exactly if it is dropped before the search or this holds of
every route in the table. -/
theorem shifts_defined_iff (dstIp : UInt32) (route : RouteMsg) (r : Router)
    (dgram : IPv4Datagram) :
    ((∀ shift ∈ (matchLenShifts shift32 dstIp route.routePrefix).2, shift.amount < 32) ↔
      SameFirstBit route.routePrefix dstIp) ∧
    ((∀ shift ∈ (r.routeOneDatagramShifts shift32 dgram).2, shift.amount < 32) ↔
      dgram.header.ttl.toNat ≤ 1 ∨
        ∀ route ∈ r.routeTable, SameFirstBit route.routePrefix dgram.header.dst) := by
  refine ⟨matchLenShifts_defined_iff shift32 dstIp route.routePrefix, ?_⟩
  rw [routeOneDatagramShifts_eq]
  dsimp only
  split
  · rename_i hexpired
    have httl := mt (not_expired_iff _).mpr (not_not.mpr hexpired)
    exact ⟨fun _ => Or.inl (not_lt.mp httl), fun _ shift hshift => absurd hshift List.not_mem_nil⟩
  · rename_i hlive
    have httl := (not_expired_iff _).mp hlive
    rw [or_iff_right (not_le.mpr httl)]
    constructor
    · intro hdefined route hroute
      apply (matchLenShifts_defined_iff shift32 dgram.header.dst route.routePrefix).mp
      intro shift hshift
      exact hdefined shift (List.mem_flatMap.mpr ⟨route, hroute, hshift⟩)
    · intro hsame shift hshift
      obtain ⟨route, hroute, hshift⟩ := List.mem_flatMap.mp hshift
      exact (matchLenShifts_defined_iff shift32 dgram.header.dst route.routePrefix).mpr
        (hsame route hroute) shift hshift

/-- With a default route, a datagram for 128.0.0.1 makes the search shift by 32 places. -/
theorem default_route_shift_undefined :
    let r : Router := addRoute
      ⟨[AsyncNetworkInterface.new ⟨[2, 0, 0, 0, 0, 1], rfl⟩ ⟨5, 0⟩], []⟩ 0 0 none 0
    let dgram : IPv4Datagram := ⟨{ len := 21, ttl := 64, dst := 0x80000001 }, .ofBuffer [7]⟩
    ∀ shift32, ⟨0x80000001, 32⟩ ∈ (r.routeOneDatagramShifts shift32 dgram).2 ∧
      ⟨0, 32⟩ ∈ (r.routeOneDatagramShifts shift32 dgram).2 := by
  intro r dgram shift32
  have hshifts : (r.routeOneDatagramShifts shift32 dgram).2 =
      (matchLenShifts shift32 0x80000001 0).2 := by
    rw [routeOneDatagramShifts_eq]
    exact List.append_nil _
  have hno : ∀ j < 32, ¬ AgreeFrom 0x80000001 0 j := by
    unfold AgreeFrom
    decide
  rw [hshifts, mem_matchLenShifts, mem_matchLenShifts]
  exact ⟨⟨Or.inl rfl, le_rfl, hno⟩, ⟨Or.inr rfl, le_rfl, hno⟩⟩

end Router
end Sponge
