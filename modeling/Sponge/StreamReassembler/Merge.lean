import Sponge.StreamReassembler.Model

/-!
# Storing a fragment

What the two merges of `push_substring` do to the set of waiting fragments.  The
representation invariant is that the fragments are separated: each one ends before
the next starts.  `Inserted` says once what storing a node does to such a set, and
everything later is derived from it.

Main results:

- Theorem {lit}`mergeAfter_absorbed`: the first merge takes in every fragment that the
  new data reaches.
- Theorem {lit}`mergeBefore_inserted`: the second merge restores separation.
- Theorem {lit}`insertNode_inserted`: storing a node adds exactly its places to the
  covered ones and keeps the byte count exact, unless the node is empty and lies
  strictly inside a waiting fragment.
-/

namespace Sponge

open Library

/-! ## The order of fragments -/

namespace E

variable {a b : E}

/-- Fragments are ordered by their first index, and then by their bytes. -/
theorem lt_iff : a < b ↔ a.first < b.first ∨ a.first = b.first ∧
    a.second.map UInt8.toNat < b.second.map UInt8.toNat :=
  Prod.Lex.lt_iff

/-- A fragment that begins earlier comes first. -/
theorem lt_of_first_lt (h : a.first < b.first) : a < b :=
  lt_iff.mpr (Or.inl h)

theorem first_le_of_lt (h : a < b) : a.first ≤ b.first := by
  rcases lt_iff.mp h with h | h
  · exact h.le
  · exact h.1.le

theorem first_le_of_le (h : a ≤ b) : a.first ≤ b.first := by
  rcases h.lt_or_eq with h | rfl
  · exact first_le_of_lt h
  · exact le_rfl

/-- Nothing with the same index comes before an empty string. -/
theorem first_lt_of_lt_empty (h : a < b) (hb : b.second = []) : a.first < b.first := by
  rcases lt_iff.mp h with h | h
  · exact h
  · rw [hb, List.map_nil] at h
    exact absurd h.2 (List.not_lt_nil _)

private theorem not_append_lt (l m : List Nat) : ¬ l ++ m < l := by
  induction l with
  | nil => exact List.not_lt_nil _
  | cons x l ih => simpa [List.cons_lt_cons_iff] using ih

/-- Continuing a fragment moves it up in the order. -/
theorem le_join (a b : E) : a ≤ a.join b := by
  rw [← not_lt, lt_iff]
  rintro (h | h)
  · exact absurd h (lt_irrefl _)
  · rw [Fragment.join, List.map_append] at h
    exact not_append_lt _ _ h.2

end E

namespace StreamReassembler

/-! ## Two fragments -/

variable {pa pb : E}

/-- Fragments that are apart are not merged. -/
theorem merge_apart (h : pa.stop ≤ pb.first) : merge pa pb = (pa, 0) := by
  simp [merge, h]

/-- A fragment that is contained adds nothing. -/
theorem merge_contained (hover : pb.first < pa.stop) (hstop : pb.stop ≤ pa.stop) :
    merge pa pb = (pa, pb.second.length) := by
  simp [merge, not_le.mpr hover, hstop]

/-- A fragment that overlaps is joined. -/
theorem merge_join (hover : pb.first < pa.stop) (hstop : pa.stop < pb.stop) :
    merge pa pb = (pa.join pb, pa.stop - pb.first) := by
  simp [merge, not_le.mpr hover, not_le.mpr hstop]

/-! ## The first merge -/

/-- A property of fragments that survives joining two overlapping ones. -/
def JoinClosed (P : E → Prop) : Prop :=
  ∀ a b, P a → P b → a.first ≤ b.first → b.first < a.stop → a.stop ≤ b.stop → P (a.join b)

/-- The first merge turns `node` into `node'` and the fragments `hi` behind it into
`rest`. -/
structure Absorbed (hi : List E) (node node' : E) (rest : List E) : Prop where
  first_eq : node'.first = node.first
  le : node ≤ node'
  length_le : node.second.length ≤ node'.second.length
  subset : ∀ e ∈ rest, e ∈ hi
  separated : Separated rest
  stop_le : ∀ e ∈ rest, node'.stop ≤ e.first
  lt : ∀ e ∈ rest, node' < e
  coverage_eq : coverage rest ∪ Finset.Ico node'.first node'.stop =
    coverage hi ∪ Finset.Ico node.first node.stop
  closed : ∀ P, JoinClosed P → (∀ e ∈ hi, P e) → P node → P node'

variable {lo hi rest : List E} {node node' : E} {cache : OrderedSet E}

/-- Nothing behind the node: nothing happens. -/
theorem absorbed_nil (node : E) : Absorbed [] node node [] where
  first_eq := rfl
  le := le_rfl
  length_le := le_rfl
  subset := by simp
  separated := separated_nil
  stop_le := by simp
  lt := by simp
  coverage_eq := rfl
  closed := fun _ _ _ h => h

/-- A fragment that ends inside the node is swallowed. -/
theorem Absorbed.swallow {e : E} (h : Absorbed hi node node' rest)
    (hfirst : node.first ≤ e.first) (hstop : e.stop ≤ node.stop) :
    Absorbed (e :: hi) node node' rest where
  first_eq := h.first_eq
  le := h.le
  length_le := h.length_le
  subset := fun b hb => List.mem_cons_of_mem _ (h.subset b hb)
  separated := h.separated
  stop_le := h.stop_le
  lt := h.lt
  coverage_eq := by
    have hsub : Finset.Ico e.first e.stop ⊆ Finset.Ico node.first node.stop :=
      Finset.Ico_subset_Ico hfirst hstop
    rw [h.coverage_eq, coverage_cons, Finset.union_comm (Finset.Ico e.first e.stop),
      Finset.union_assoc, Finset.union_eq_right.mpr hsub]
  closed := fun P hP hhi hnode =>
    h.closed P hP (fun b hb => hhi b (List.mem_cons_of_mem _ hb)) hnode

/-- The fragments behind the node start only after it ends. -/
theorem absorbed_apart {e : E} (hsep : Separated (e :: hi)) (hle : ∀ b ∈ e :: hi, node ≤ b)
    (hfirst : node.stop ≤ e.first) (hstop : node.stop < e.stop) :
    Absorbed (e :: hi) node node (e :: hi) where
  first_eq := rfl
  le := le_rfl
  length_le := le_rfl
  subset := fun _ h => h
  separated := hsep
  stop_le := by
    intro b hb
    rcases List.mem_cons.mp hb with rfl | hb
    · exact hfirst
    · have := (separated_cons.mp hsep).1 b hb
      omega
  lt := by
    intro b hb
    refine lt_of_le_of_ne (hle b hb) ?_
    rintro rfl
    rcases List.mem_cons.mp hb with rfl | hb
    · exact absurd hstop (lt_irrefl _)
    · have := (separated_cons.mp hsep).1 _ hb
      have := Fragment.first_le_stop node
      omega
  coverage_eq := rfl
  closed := fun _ _ _ h => h

/-- The first fragment that reaches beyond the node overlaps it and is joined. -/
theorem absorbed_join {e : E} (hsep : Separated (e :: hi)) (hle : node ≤ e)
    (hfirst : e.first < node.stop) (hstop : node.stop < e.stop) :
    Absorbed (e :: hi) node (node.join e) hi where
  first_eq := rfl
  le := E.le_join node e
  length_le := by simp [Fragment.join]
  subset := fun _ h => List.mem_cons_of_mem _ h
  separated := (separated_cons.mp hsep).2
  stop_le := by
    intro b hb
    rw [Fragment.stop_join hfirst.le hstop.le]
    exact (separated_cons.mp hsep).1 b hb
  lt := by
    intro b hb
    apply E.lt_of_first_lt
    have := (separated_cons.mp hsep).1 b hb
    have := E.first_le_of_le hle
    rw [Fragment.first_join]
    omega
  coverage_eq := by
    rw [mem_Ico_join hfirst.le hstop.le (E.first_le_of_le hle), coverage_cons]
    ext j
    simp only [Finset.mem_union]
    tauto
  closed := fun P hP hhi hnode =>
    hP node e hnode (hhi e (by simp)) (E.first_le_of_le hle) hfirst hstop.le

/-- The first merge absorbs what the new data reaches and keeps the count in step. -/
theorem mergeAfter_absorbed (fuel : Nat) {unassembled : Nat}
    (hcache : cache.toList = lo ++ hi) (hlo : ∀ e ∈ lo, e < node) (hhi : ∀ e ∈ hi, node ≤ e)
    (hsep : Separated hi) (hfuel : cache.toList.length ≤ fuel)
    (hcount : unassembled = totalLength cache.toList) (hbound : unassembled < 2 ^ 64) :
    ∃ node' rest, Absorbed hi node node' rest ∧
      (mergeAfter node.stop fuel node cache unassembled).1 = node' ∧
      (mergeAfter node.stop fuel node cache unassembled).2.1.toList = lo ++ rest ∧
      (mergeAfter node.stop fuel node cache unassembled).2.2 + node.second.length =
        totalLength (lo ++ rest) + node'.second.length ∧
      (mergeAfter node.stop fuel node cache unassembled).2.2 ≤ unassembled := by
  induction fuel generalizing cache unassembled hi with
  | zero =>
      have hnil : lo = [] ∧ hi = [] := by
        rw [← List.append_eq_nil_iff, ← hcache]
        exact List.length_eq_zero_iff.mp (Nat.le_zero.mp hfuel)
      rw [hnil.2] at hcache ⊢
      refine ⟨node, [], absorbed_nil node, rfl, hcache, ?_, le_rfl⟩
      rw [mergeAfter, hcount, hcache]
  | succ fuel ih =>
      rw [mergeAfter, OrderedSet.lowerBound_of_split hcache hlo hhi]
      cases hi with
      | nil =>
          exact ⟨node, [], absorbed_nil node, rfl, hcache, by simp [hcount, hcache], le_rfl⟩
      | cons e hi =>
          simp only [List.head?_cons]
          have herase := OrderedSet.toList_erase_of_split hcache
          have hfirst : node.first ≤ e.first := E.first_le_of_le (hhi e (by simp))
          have hsplit := separated_cons.mp hsep
          rw [hcache, totalLength_append, totalLength_cons] at hcount
          split
          · rename_i hswallow
            have hsub : wordSub 64 unassembled e.second.length =
                totalLength (cache.erase e).toList := by
              rw [wordSub_eq_sub (by omega) hbound, herase, totalLength_append, hcount]
              omega
            obtain ⟨node', rest, habs, hnode, hset, hlen, hle⟩ :=
              ih herase (fun b hb => hhi b (List.mem_cons_of_mem _ hb)) hsplit.2
                (by rw [herase]; rw [hcache] at hfuel; simp at hfuel ⊢; omega)
                hsub (lt_of_lt_of_le (wordSub_lt 64 _ _) le_rfl)
            refine ⟨node', rest, habs.swallow hfirst hswallow, hnode, hset, hlen, ?_⟩
            rw [wordSub_eq_sub (by omega) hbound] at hle ⊢
            omega
          · rename_i hreach
            rw [not_le] at hreach
            by_cases hapart : node.stop ≤ e.first
            · simp only [merge_apart hapart, if_true, wordSub_eq_sub (Nat.zero_le _) hbound]
              refine ⟨node, e :: hi, absorbed_apart hsep hhi hapart hreach, rfl, hcache, ?_, ?_⟩
              · simp only [totalLength_append, totalLength_cons]
                omega
              · omega
            · have hlen := Fragment.length_join (not_le.mp hapart).le hreach.le
              have hover : node.stop - e.first ≠ 0 := by omega
              have hle : node.stop - e.first ≤ e.second.length := by
                simp only [Fragment.stop] at hreach ⊢
                omega
              have hmerge := merge_join (not_le.mp hapart) hreach
              have hsub := wordSub_eq_sub (w := 64) (a := unassembled)
                (b := node.stop - e.first) (by omega) hbound
              simp only [hmerge, hover, if_false, hsub]
              refine ⟨node.join e, hi,
                absorbed_join hsep (hhi e (by simp)) (not_le.mp hapart) hreach, rfl, herase, ?_, ?_⟩
              · rw [totalLength_append]
                omega
              · omega

/-! ## The second merge -/

/-- What storing `node` in a separated list of fragments does. -/
structure Inserted (l : List E) (node : E) (l' : List E) : Prop where
  separated : Separated l'
  coverage_eq : coverage l' = coverage l ∪ Finset.Ico node.first node.stop
  closed : ∀ P, JoinClosed P → (∀ e ∈ l, P e) → P node → ∀ e ∈ l', P e

/-- A node that neither touches the fragments in front nor the ones behind. -/
theorem inserted_apart (habs : Absorbed hi node node' rest) (hsep : Separated (lo ++ hi))
    (hlo : ∀ e ∈ lo, e.stop ≤ node'.first) :
    Inserted (lo ++ hi) node (lo ++ node' :: rest) where
  separated := by
    obtain ⟨hseplo, -, hcross⟩ := separated_append.mp hsep
    refine separated_append.mpr ⟨hseplo, separated_cons.mpr ⟨habs.stop_le, habs.separated⟩, ?_⟩
    intro a ha b hb
    rcases List.mem_cons.mp hb with rfl | hb
    · exact hlo a ha
    · exact hcross a ha b (habs.subset b hb)
  coverage_eq := by
    rw [coverage_append, coverage_append, coverage_cons, Finset.union_assoc,
      ← habs.coverage_eq, Finset.union_comm (coverage rest)]
  closed := by
    intro P hP hl hnode e he
    rcases List.mem_append.mp he with he | he
    · exact hl e (by simp [he])
    · rcases List.mem_cons.mp he with rfl | he
      · exact habs.closed P hP (fun b hb => hl b (by simp [hb])) hnode
      · exact hl e (by simp [habs.subset e he])

/-- A node that lies inside the fragment in front of it adds nothing. -/
theorem inserted_contained {pre : E} (habs : Absorbed hi node node' rest)
    (hsep : Separated (lo ++ hi)) (hpre : pre ∈ lo) (hfirst : pre.first ≤ node'.first)
    (hstop : node'.stop ≤ pre.stop) :
    Inserted (lo ++ hi) node (lo ++ rest) where
  separated := by
    obtain ⟨hseplo, -, hcross⟩ := separated_append.mp hsep
    exact separated_append.mpr
      ⟨hseplo, habs.separated, fun a ha b hb => hcross a ha b (habs.subset b hb)⟩
  coverage_eq := by
    have hsub : Finset.Ico node'.first node'.stop ⊆ coverage lo := by
      intro j hj
      rw [Finset.mem_Ico] at hj
      exact mem_coverage.mpr ⟨pre, hpre, by omega, by omega⟩
    rw [coverage_append, coverage_append, Finset.union_assoc, ← habs.coverage_eq,
      Finset.union_comm (coverage rest), ← Finset.union_assoc,
      Finset.union_eq_left.mpr hsub]
  closed := by
    intro P _ hl _ e he
    rcases List.mem_append.mp he with he | he
    · exact hl e (by simp [he])
    · exact hl e (by simp [habs.subset e he])

/-- A node that continues the fragment in front of it is joined to it. -/
theorem inserted_join {pre : E} (habs : Absorbed hi node node' rest)
    (hsep : Separated (lo ++ [pre] ++ hi)) (hfirst : pre.first ≤ node'.first)
    (hover : node'.first < pre.stop) (hstop : pre.stop < node'.stop) :
    Inserted (lo ++ [pre] ++ hi) node (lo ++ pre.join node' :: rest) where
  separated := by
    obtain ⟨hseplo, -, hcross⟩ := separated_append.mp hsep
    obtain ⟨hsepinit, -, hpre⟩ := separated_append.mp hseplo
    refine separated_append.mpr ⟨hsepinit, separated_cons.mpr ⟨?_, habs.separated⟩, ?_⟩
    · intro b hb
      rw [Fragment.stop_join hover.le hstop.le]
      exact habs.stop_le b hb
    · intro a ha b hb
      rcases List.mem_cons.mp hb with rfl | hb
      · exact hpre a ha pre (by simp)
      · exact hcross a (by simp [ha]) b (habs.subset b hb)
  coverage_eq := by
    rw [coverage_append, coverage_cons, mem_Ico_join hover.le hstop.le hfirst,
      coverage_append, coverage_append, coverage_cons, coverage_nil, Finset.union_empty]
    rw [Finset.union_assoc _ (coverage hi), ← habs.coverage_eq]
    ext j
    simp only [Finset.mem_union]
    tauto
  closed := by
    intro P hP hl hnode e he
    have hnode' : P node' := habs.closed P hP (fun b hb => hl b (by simp [hb])) hnode
    rcases List.mem_append.mp he with he | he
    · exact hl e (by simp [he])
    · rcases List.mem_cons.mp he with rfl | he
      · exact hP pre node' (hl pre (by simp)) hnode' hfirst hover hstop.le
      · exact hl e (by simp [habs.subset e he])

/-- Nothing in front reaches the node: it is stored as it is. -/
theorem mergeBefore_apart {unassembled writeLen : Nat} (hcache : cache.toList = lo ++ rest)
    (hlo : ∀ e ∈ lo, e < node') (hrest : ∀ e ∈ rest, node' < e)
    (hapart : ∀ e ∈ lo, e.stop ≤ node'.first) (hbound : unassembled + writeLen < 2 ^ 64) :
    (mergeBefore writeLen node' cache unassembled).1.toList = lo ++ node' :: rest ∧
      (mergeBefore writeLen node' cache unassembled).2 = unassembled + writeLen := by
  have hinsert := OrderedSet.toList_insert_of_split hcache hlo hrest
  rw [mergeBefore, OrderedSet.before_of_split hcache hlo fun e he => (hrest e he).le]
  cases hlast : lo.getLast? with
  | none => exact ⟨hinsert, word_eq_self hbound⟩
  | some pre =>
      have hpre := hapart pre (List.mem_of_getLast? hlast)
      simp only [merge_apart hpre, if_true, word_eq_self hbound]
      exact ⟨hinsert, wordSub_eq_sub (Nat.zero_le _) hbound⟩

/-- The fragment in front overlaps the node and is replaced by what the two merge to. -/
theorem mergeBefore_overlap {init : List E} {pre joined : E} {overlap unassembled writeLen : Nat}
    (hcache : cache.toList = (init ++ [pre]) ++ rest) (hlo : ∀ e ∈ init ++ [pre], e < node')
    (hrest : ∀ e ∈ rest, node' < e) (hmerge : merge pre node' = (joined, overlap))
    (hover : overlap ≠ 0) (hle : pre ≤ joined) (hlt : ∀ e ∈ rest, joined < e)
    (hbound : unassembled + writeLen < 2 ^ 64) (hfits : overlap ≤ unassembled + writeLen) :
    (mergeBefore writeLen node' cache unassembled).1.toList = init ++ joined :: rest ∧
      (mergeBefore writeLen node' cache unassembled).2 = unassembled + writeLen - overlap := by
  rw [mergeBefore, OrderedSet.before_of_split hcache hlo fun e he => (hrest e he).le]
  simp only [List.getLast?_append, List.getLast?_singleton, Option.some_or, word_eq_self hbound,
    hmerge, hover, if_false]
  refine ⟨OrderedSet.toList_replace_of_split ?_ hle hlt, wordSub_eq_sub hfits hbound⟩
  rw [hcache, List.append_assoc]
  rfl

/-- The second merge restores separation and completes the count. -/
theorem mergeBefore_inserted {unassembled writeLen : Nat}
    (hcache : cache.toList = lo ++ rest) (hlo : ∀ e ∈ lo, e < node)
    (habs : Absorbed hi node node' rest) (hsep : Separated (lo ++ hi))
    (hlen : unassembled + writeLen = totalLength (lo ++ rest) + node'.second.length)
    (hbound : unassembled + writeLen < 2 ^ 64)
    (hempty : node'.second = [] → ∀ e ∈ lo, ¬ e.Straddles node.first) :
    Inserted (lo ++ hi) node (mergeBefore writeLen node' cache unassembled).1.toList ∧
      (mergeBefore writeLen node' cache unassembled).2 =
        totalLength (mergeBefore writeLen node' cache unassembled).1.toList := by
  have hlo' : ∀ e ∈ lo, e < node' := fun e he => (hlo e he).trans_le habs.le
  by_cases hall : ∀ e ∈ lo, e.stop ≤ node'.first
  · obtain ⟨hset, hcount⟩ := mergeBefore_apart hcache hlo' habs.lt hall hbound
    rw [hset, hcount, hlen]
    refine ⟨inserted_apart habs hsep hall, ?_⟩
    simp only [totalLength_append, totalLength_cons]
    omega
  · -- Only the last of the fragments in front can reach the node.
    rcases List.eq_nil_or_concat lo with rfl | ⟨init, pre, rfl⟩
    · simp at hall
    rw [List.concat_eq_append] at *
    have hpre : pre < node := hlo pre (by simp)
    have hfirst : pre.first ≤ node'.first := habs.first_eq ▸ E.first_le_of_lt hpre
    obtain ⟨hseplo, -, -⟩ := separated_append.mp hsep
    obtain ⟨-, -, hinit⟩ := separated_append.mp hseplo
    have hover : node'.first < pre.stop := by
      by_contra hapart
      apply hall
      intro e he
      rcases List.mem_append.mp he with he | he
      · have := hinit e he pre (by simp)
        have := Fragment.first_le_stop pre
        omega
      · rw [List.mem_singleton.mp he]
        omega
    simp only [totalLength_append, totalLength_cons, totalLength_nil] at hlen
    by_cases hcontained : node'.stop ≤ pre.stop
    · -- An empty node would lie strictly inside the fragment in front of it.
      have hne : node'.second ≠ [] := by
        intro hnil
        have hnode : node.first < pre.stop := habs.first_eq ▸ hover
        have hlt : pre.first < node'.first :=
          E.first_lt_of_lt_empty (hlo' pre (by simp)) hnil
        exact hempty hnil pre (by simp) ⟨habs.first_eq ▸ hlt, hnode⟩
      have hsorted := cache.sorted
      rw [hcache, List.append_assoc, List.pairwise_append] at hsorted
      obtain ⟨hset, hcount⟩ := mergeBefore_overlap hcache hlo' habs.lt
        (merge_contained hover hcontained) (by simpa using hne) le_rfl
        (fun e he => (List.pairwise_cons.mp hsorted.2.1).1 e he) hbound (by omega)
      have hins := inserted_contained habs hsep (by simp) hfirst hcontained
      rw [hset, hcount]
      refine ⟨by simpa using hins, ?_⟩
      simp only [totalLength_append, totalLength_cons]
      omega
    · rw [not_le] at hcontained
      have hjoinlen := Fragment.length_join hover.le hcontained.le
      have hle : pre.stop - node'.first ≤ node'.second.length := by
        simp only [Fragment.stop] at hcontained ⊢
        omega
      have hlt : ∀ e ∈ rest, pre.join node' < e := by
        intro e he
        apply E.lt_of_first_lt
        have := habs.stop_le e he
        have := Fragment.first_le_stop pre
        rw [Fragment.first_join]
        omega
      obtain ⟨hset, hcount⟩ := mergeBefore_overlap hcache hlo' habs.lt
        (merge_join hover hcontained) (by omega) (E.le_join pre node') hlt hbound (by omega)
      rw [hset, hcount]
      refine ⟨inserted_join habs hsep hfirst hover hcontained, ?_⟩
      simp only [totalLength_append, totalLength_cons]
      omega

/-! ## Storing a node -/

/-- Storing a node adds exactly its places and keeps the byte count exact. -/
theorem insertNode_inserted (r : StreamReassembler) (node : E)
    (hsep : Separated r.auxiliaryCache.toList)
    (hcount : r.unassembledBytes = totalLength r.auxiliaryCache.toList)
    (hbound : r.unassembledBytes + node.second.length < 2 ^ 64) (hstop : node.stop < 2 ^ 64)
    (hempty : node.second = [] → ∀ e ∈ r.auxiliaryCache.toList, ¬ e.Straddles node.first) :
    Inserted r.auxiliaryCache.toList node
        (r.insertNode node node.second.length).auxiliaryCache.toList ∧
      (r.insertNode node node.second.length).unassembledBytes =
        totalLength (r.insertNode node node.second.length).auxiliaryCache.toList := by
  obtain ⟨lo, hi, hcache, hlo, hhi⟩ := r.auxiliaryCache.exists_split node
  rw [hcache] at hsep
  obtain ⟨node', rest, habs, hnode, hset, hlen, hle⟩ :=
    mergeAfter_absorbed r.auxiliaryCache.toList.length hcache hlo hhi
      (separated_append.mp hsep).2.1 le_rfl hcount (by omega)
  have hnewEnd : word 64 (node.first + node.second.length) = node.stop :=
    word_eq_self hstop
  have hempty' : node'.second = [] → ∀ e ∈ lo, ¬ e.Straddles node.first := by
    intro hnil e he
    have hlength := habs.length_le
    rw [hnil, List.length_nil, Nat.le_zero, List.length_eq_zero_iff] at hlength
    exact hempty hlength e (by simp [hcache, he])
  have hins := mergeBefore_inserted hset hlo habs hsep hlen (by omega) hempty'
  rw [← hnode] at hins
  rw [hcache]
  simp only [insertNode, hnewEnd]
  exact hins

end StreamReassembler
end Sponge
