import Sponge.StreamReassembler.Merge

/-!
# Assembling and pushing

`WellFormed` is the representation invariant of the reassembler, and `Pushed` the
specification of `push_substring` that every later result uses: which bytes are
written, which places stay covered, and when the output is ended.

Main results:

- Theorem {lit}`assembleLoop_assembled`: `assemble_string` writes the fragments that
  the head has reached, and no others.
- Theorem {lit}`pushSubstring_pushed`: what a push does to a well-formed reassembler.
- Theorem {lit}`WellFormed.popOutput`: reads keep the invariant.
-/

namespace Sponge

open Library

namespace StreamReassembler

/-- The representation invariant: the waiting fragments are separated, lie between the
head and the end of the window, and are counted exactly. -/
structure WellFormed (r : StreamReassembler) : Prop where
  separated : Separated r.auxiliaryCache.toList
  head_lt : ∀ e ∈ r.auxiliaryCache.toList, r.headIndex < e.first
  stop_le : ∀ e ∈ r.auxiliaryCache.toList,
    e.stop ≤ r.headIndex + r.output.remainingCapacity
  count : r.unassembledBytes = totalLength r.auxiliaryCache.toList
  head_eq : r.headIndex = r.output.bytesWritten

/-- A fresh reassembler is well formed. -/
theorem wellFormed_new (capacity : Nat) : WellFormed (new capacity) where
  separated := separated_nil
  head_lt := by simp [new]
  stop_le := by simp [new]
  count := rfl
  head_eq := rfl

/-- The places that waiting fragments cover. -/
def pending (r : StreamReassembler) : Finset Nat :=
  coverage r.auxiliaryCache.toList

/-- Every waiting fragment is a piece of `S` at its place. -/
def Agrees (S : List Byte) (r : StreamReassembler) : Prop :=
  ∀ e ∈ r.auxiliaryCache.toList, IsExcerpt S e

/-- A reassembler that agrees with a stream agrees with each longer one. -/
theorem Agrees.append {S : List Byte} {r : StreamReassembler} (h : r.Agrees S)
    (T : List Byte) : r.Agrees (S ++ T) :=
  fun e he => (h e he).append T

/-- The unassembled bytes are the places covered, each counted once. -/
theorem WellFormed.card_pending {r : StreamReassembler} (h : r.WellFormed) :
    r.pending.card = r.unassembledBytes := by
  rw [pending, card_coverage h.separated, h.count]

/-- Nothing is waiting exactly when no byte is counted as unassembled. -/
theorem WellFormed.empty_iff {r : StreamReassembler} (h : r.WellFormed) :
    r.empty = true ↔ r.pending = ∅ := by
  rw [empty, beq_iff_eq, ← h.card_pending, Finset.card_eq_zero]

/-- The bytes that wait lie strictly inside the window. -/
theorem WellFormed.pending_subset {r : StreamReassembler} (h : r.WellFormed) :
    r.pending ⊆ Finset.Ioo r.headIndex (r.headIndex + r.output.remainingCapacity) := by
  intro j hj
  obtain ⟨e, he, hfirst, hstop⟩ := mem_coverage.mp hj
  have := h.head_lt e he
  have := h.stop_le e he
  rw [Finset.mem_Ioo]
  omega

/-- Buffered and unassembled bytes share the capacity. -/
theorem WellFormed.unassembledBytes_le {r : StreamReassembler} (h : r.WellFormed) :
    r.unassembledBytes ≤ r.output.remainingCapacity := by
  rw [← h.card_pending]
  have hcard := Finset.card_le_card h.pending_subset
  rw [Nat.card_Ioo] at hcard
  omega

/-- Reads keep the invariant: they only widen the window. -/
theorem WellFormed.popOutput {r : StreamReassembler} (h : r.WellFormed) (len : Nat) :
    (r.popOutput len).WellFormed where
  separated := h.separated
  head_lt := h.head_lt
  stop_le := by
    intro e he
    have := h.stop_le e he
    simp only [StreamReassembler.popOutput, ByteStream.popOutput,
      ByteStream.remainingCapacity] at *
    omega
  count := h.count
  head_eq := h.head_eq

/-! ## Assembling -/

/-- What `assemble_string` turns `r` into.  A stream that has ended takes no bytes, and
the fragments it reaches are dropped. -/
structure Assembled (r r' : StreamReassembler) : Prop where
  eof_eq : r'.eof = r.eof
  inputEnded_eq : r'.output.inputEnded = r.output.inputEnded
  error_eq : r'.output.error = r.output.error
  capacity_eq : r'.output.capacity = r.output.capacity
  bytesRead_eq : r'.output.bytesRead = r.output.bytesRead
  subset : ∀ e ∈ r'.auxiliaryCache.toList, e ∈ r.auxiliaryCache.toList
  separated : Separated r'.auxiliaryCache.toList
  head_lt : ∀ e ∈ r'.auxiliaryCache.toList, r'.headIndex < e.first
  count : r'.unassembledBytes = totalLength r'.auxiliaryCache.toList
  written : ∃ bytes, r'.output.contents = r.output.contents ++ bytes ∧
    r'.headIndex = r.headIndex + bytes.length ∧
    ∀ S, r.Agrees S → S.take r.headIndex ++ bytes = S.take r'.headIndex
  pending_eq : r.output.inputEnded = false →
    r.pending = Finset.Ico r.headIndex r'.headIndex ∪ r'.pending

/-- The round of `assemble_string` that writes the fragment `e`. -/
def assembleOne (r : StreamReassembler) (e : E) : StreamReassembler :=
  { r with
    output := (r.output.write e.second).1
    auxiliaryCache := r.auxiliaryCache.erase e
    unassembledBytes := wordSub 64 r.unassembledBytes e.second.length
    headIndex := r.headIndex + (r.output.write e.second).2 }

variable {r : StreamReassembler} {e : E} {es : List E}

/-- Nothing is reached: nothing happens. -/
theorem assembled_refl (hsep : Separated r.auxiliaryCache.toList)
    (hhead : ∀ e ∈ r.auxiliaryCache.toList, r.headIndex < e.first)
    (hcount : r.unassembledBytes = totalLength r.auxiliaryCache.toList) :
    Assembled r r where
  eof_eq := rfl
  inputEnded_eq := rfl
  error_eq := rfl
  capacity_eq := rfl
  bytesRead_eq := rfl
  subset := fun _ h => h
  separated := hsep
  head_lt := hhead
  count := hcount
  written := ⟨[], by simp⟩
  pending_eq := by simp

/-- One round writes its fragment whole, or nothing if the input has ended. -/
theorem writeLength_reached (hstop : e.stop ≤ r.headIndex + r.output.remainingCapacity)
    (hfirst : e.first = r.headIndex) :
    r.output.writeLength e.second =
      if r.output.inputEnded then 0 else e.second.length := by
  simp only [Fragment.stop] at hstop
  unfold ByteStream.writeLength
  split
  · rfl
  · rw [Nat.min_eq_right]
    omega

/-- A round followed by the rest of the loop. -/
theorem Assembled.step {r' : StreamReassembler} (h : Assembled (r.assembleOne e) r')
    (hcache : r.auxiliaryCache.toList = e :: es) (hfirst : e.first = r.headIndex)
    (hstop : e.stop ≤ r.headIndex + r.output.remainingCapacity) : Assembled r r' := by
  have herase : (r.assembleOne e).auxiliaryCache.toList = es :=
    OrderedSet.toList_erase_head hcache
  have hlen := writeLength_reached hstop hfirst
  have hhead : (r.assembleOne e).headIndex =
      r.headIndex + r.output.writeLength e.second := rfl
  exact
    { eof_eq := h.eof_eq
      inputEnded_eq := h.inputEnded_eq
      error_eq := h.error_eq
      capacity_eq := h.capacity_eq
      bytesRead_eq := h.bytesRead_eq
      subset := by
        intro b hb
        have := h.subset b hb
        rw [herase] at this
        rw [hcache]
        exact List.mem_cons_of_mem _ this
      separated := h.separated
      head_lt := h.head_lt
      count := h.count
      written := by
        obtain ⟨bytes, hcontents, hindex, htake⟩ := h.written
        refine ⟨e.second.take (r.output.writeLength e.second) ++ bytes, ?_, ?_, ?_⟩
        · rw [hcontents, ← List.append_assoc]
          congr 1
          exact ByteStream.contents_write r.output e.second
        · rw [hindex, hhead, List.length_append, List.length_take,
            Nat.min_eq_left (r.output.writeLength_le _), Nat.add_assoc]
        · intro S hS
          have hrest : (r.assembleOne e).Agrees S := by
            intro b hb
            rw [herase] at hb
            exact hS b (by rw [hcache]; exact List.mem_cons_of_mem _ hb)
          have hwrite : S.take r.headIndex ++ e.second.take (r.output.writeLength e.second) =
              S.take (r.assembleOne e).headIndex := by
            rw [hhead, hlen]
            split
            · simp
            · rw [List.take_of_length_le le_rfl, ← hfirst]
              exact (hS e (by simp [hcache])).take_append
          rw [← List.append_assoc, hwrite]
          exact htake S hrest
      pending_eq := by
        intro hended
        have hrest := h.pending_eq hended
        obtain ⟨bytes, -, hindex, -⟩ := h.written
        rw [pending, herase] at hrest
        rw [hended] at hlen
        simp only [Bool.false_eq_true, if_false] at hlen
        have hstep : (r.assembleOne e).headIndex = e.stop := by
          rw [hhead, hlen, ← hfirst, Fragment.stop]
        rw [pending, hcache, coverage_cons, hrest, ← Finset.union_assoc, hstep, hfirst,
          Finset.Ico_union_Ico_eq_Ico]
        · rw [← hfirst]
          exact e.first_le_stop
        · rw [← hstep, hindex]
          exact Nat.le_add_right _ _ }

/-- The head moves by what was written, and the window does not move at all. -/
theorem window_assembleOne (r : StreamReassembler) (e : E) :
    (r.assembleOne e).headIndex + (r.assembleOne e).output.remainingCapacity =
      r.headIndex + r.output.remainingCapacity := by
  have := r.output.curSize_add_writeLength_le e.second
  simp only [assembleOne, ByteStream.write, ByteStream.remainingCapacity]
  omega

/-- The head does not pass the end of the fragment. -/
theorem headIndex_assembleOne_le (hfirst : e.first = r.headIndex)
    (hstop : e.stop ≤ r.headIndex + r.output.remainingCapacity) :
    (r.assembleOne e).headIndex ≤ e.stop := by
  change r.headIndex + r.output.writeLength e.second ≤ e.stop
  rw [writeLength_reached hstop hfirst, ← hfirst, Fragment.stop]
  split <;> omega

/-- The count of waiting bytes loses the fragment. -/
theorem unassembledBytes_assembleOne (hcache : r.auxiliaryCache.toList = e :: es)
    (hcount : r.unassembledBytes = totalLength r.auxiliaryCache.toList)
    (hbound : r.unassembledBytes < 2 ^ 64) :
    (r.assembleOne e).unassembledBytes = totalLength es := by
  rw [hcache, totalLength_cons] at hcount
  change wordSub 64 r.unassembledBytes e.second.length = totalLength es
  rw [wordSub_eq_sub (by omega) hbound]
  omega

/-- `assemble_string` writes the fragments that the head has reached. -/
theorem assembleLoop_assembled (fuel : Nat) (r : StreamReassembler)
    (hfuel : r.auxiliaryCache.toList.length ≤ fuel)
    (hsep : Separated r.auxiliaryCache.toList)
    (hhead : ∀ e ∈ r.auxiliaryCache.toList, r.headIndex ≤ e.first)
    (hstop : ∀ e ∈ r.auxiliaryCache.toList, e.stop ≤ r.headIndex + r.output.remainingCapacity)
    (hcount : r.unassembledBytes = totalLength r.auxiliaryCache.toList)
    (hbound : r.unassembledBytes < 2 ^ 64) :
    Assembled r (assembleLoop fuel r) := by
  induction fuel generalizing r with
  | zero =>
      have hnil := List.length_eq_zero_iff.mp (Nat.le_zero.mp hfuel)
      exact assembled_refl hsep (by simp [hnil]) hcount
  | succ fuel ih =>
      cases hcache : r.auxiliaryCache.toList with
      | nil =>
          simp only [assembleLoop, hcache]
          exact assembled_refl hsep (by simp [hcache]) hcount
      | cons e es =>
          have hmem : e ∈ r.auxiliaryCache.toList := by simp [hcache]
          rw [hcache] at hsep
          have hes := separated_cons.mp hsep
          simp only [assembleLoop, hcache]
          split
          · rename_i hlt
            refine assembled_refl (hcache ▸ hsep) ?_ hcount
            intro b hb
            rw [hcache] at hb
            rcases List.mem_cons.mp hb with rfl | hb
            · exact hlt
            · have := hes.1 b hb
              have := e.first_le_stop
              omega
          · rename_i hlt
            have hfirst : e.first = r.headIndex := by
              have := hhead e hmem
              omega
            have herase : (r.assembleOne e).auxiliaryCache.toList = es :=
              OrderedSet.toList_erase_head hcache
            have hle := headIndex_assembleOne_le hfirst (hstop e hmem)
            have hcount' := unassembledBytes_assembleOne hcache hcount hbound
            refine (ih (r.assembleOne e) ?_ ?_ ?_ ?_ ?_ ?_).step hcache hfirst (hstop e hmem)
            · rw [hcache] at hfuel
              rw [herase]
              simpa using hfuel
            · rw [herase]
              exact hes.2
            · intro b hb
              rw [herase] at hb
              exact hle.trans (hes.1 b hb)
            · intro b hb
              rw [herase] at hb
              rw [window_assembleOne]
              exact hstop b (by simp [hcache, hb])
            · rw [herase, hcount']
            · exact wordSub_lt 64 _ _

/-! ## Pushing -/

section Frame

variable (r : StreamReassembler) (dataEnd : Nat) (eof : Bool)

/-- Noting the end changes no fragment. -/
@[simp]
theorem auxiliaryCache_noteEof : (r.noteEof dataEnd eof).auxiliaryCache = r.auxiliaryCache := by
  unfold noteEof
  split <;> rfl

@[simp]
theorem headIndex_noteEof : (r.noteEof dataEnd eof).headIndex = r.headIndex := by
  unfold noteEof
  split <;> rfl

@[simp]
theorem unassembledBytes_noteEof :
    (r.noteEof dataEnd eof).unassembledBytes = r.unassembledBytes := by
  unfold noteEof
  split <;> rfl

@[simp]
theorem output_noteEof : (r.noteEof dataEnd eof).output = r.output := by
  unfold noteEof
  split <;> rfl

/-- The end is noted if the last byte lies in the window. -/
theorem eof_noteEof :
    (r.noteEof dataEnd eof).eof = (r.eof || (eof && decide (dataEnd ≤ r.windowEnd))) := by
  unfold noteEof
  split <;> simp_all

/-- Ending the input changes no fragment. -/
@[simp]
theorem auxiliaryCache_endIfDone : r.endIfDone.auxiliaryCache = r.auxiliaryCache := by
  unfold endIfDone
  split <;> rfl

@[simp]
theorem headIndex_endIfDone : r.endIfDone.headIndex = r.headIndex := by
  unfold endIfDone
  split <;> rfl

@[simp]
theorem unassembledBytes_endIfDone : r.endIfDone.unassembledBytes = r.unassembledBytes := by
  unfold endIfDone
  split <;> rfl

@[simp]
theorem eof_endIfDone : r.endIfDone.eof = r.eof := by
  unfold endIfDone
  split <;> rfl

/-- Ending the input changes no byte of the stream. -/
@[simp]
theorem contents_endIfDone : r.endIfDone.output.contents = r.output.contents := by
  unfold endIfDone
  split <;> rfl

@[simp]
theorem bytesWritten_endIfDone :
    r.endIfDone.output.bytesWritten = r.output.bytesWritten := by
  unfold endIfDone
  split <;> rfl

@[simp]
theorem bytesRead_endIfDone : r.endIfDone.output.bytesRead = r.output.bytesRead := by
  unfold endIfDone
  split <;> rfl

@[simp]
theorem capacity_endIfDone : r.endIfDone.output.capacity = r.output.capacity := by
  unfold endIfDone
  split <;> rfl

@[simp]
theorem error_endIfDone : r.endIfDone.output.error = r.output.error := by
  unfold endIfDone
  split <;> rfl

@[simp]
theorem remainingCapacity_endIfDone :
    r.endIfDone.output.remainingCapacity = r.output.remainingCapacity := by
  unfold endIfDone
  split <;> rfl

/-- The input ends when the end is known and nothing waits. -/
theorem inputEnded_endIfDone :
    r.endIfDone.output.inputEnded = (r.output.inputEnded || (r.eof && r.empty)) := by
  unfold endIfDone
  split <;> simp_all

end Frame

/-- What pushing `data` at `index` turns `r` into. -/
structure Pushed (r : StreamReassembler) (data : List Byte) (index : Nat) (eof : Bool)
    (r' : StreamReassembler) : Prop where
  wellFormed : r'.WellFormed
  eof_eq : r'.eof = (r.eof ||
    (eof && decide (index + data.length ≤ r.headIndex + r.output.remainingCapacity)))
  inputEnded_eq : r'.output.inputEnded = (r.output.inputEnded || (r'.eof && r'.empty))
  error_eq : r'.output.error = r.output.error
  capacity_eq : r'.output.capacity = r.output.capacity
  bytesRead_eq : r'.output.bytesRead = r.output.bytesRead
  written : ∃ bytes, r'.output.contents = r.output.contents ++ bytes ∧
    r'.headIndex = r.headIndex + bytes.length ∧
    ∀ S, r.Agrees S → IsExcerpt S ⟨index, data⟩ →
      S.take r.headIndex ++ bytes = S.take r'.headIndex
  agrees : ∀ S, r.Agrees S → IsExcerpt S ⟨index, data⟩ → r'.Agrees S
  pending_subset : r'.pending ⊆ r.pending ∪ (Finset.Ico index (index + data.length) ∩
    Finset.Ico r.headIndex (r.headIndex + r.output.remainingCapacity))
  pending_eq : r.output.inputEnded = false →
    r.pending ∪ (Finset.Ico index (index + data.length) ∩
        Finset.Ico r.headIndex (r.headIndex + r.output.remainingCapacity)) =
      Finset.Ico r.headIndex r'.headIndex ∪ r'.pending
  not_straddles : ∀ c, (∀ e ∈ r.auxiliaryCache.toList, ¬ e.Straddles c) →
    ¬ Fragment.Straddles (⟨index, data⟩ : E) c →
    ∀ e ∈ r'.auxiliaryCache.toList, ¬ e.Straddles c

/-- Excerpts of one stream stay excerpts when they are joined. -/
theorem joinClosed_isExcerpt (S : List Byte) : JoinClosed (IsExcerpt S) :=
  fun _ _ ha hb _ hover hstop => ha.join hb hover.le hstop

/-- No join of fragments straddles a place that neither of them does. -/
theorem joinClosed_not_straddles (c : Nat) : JoinClosed fun e => ¬ e.Straddles c :=
  fun _ _ ha hb _ hover hstop => Fragment.not_straddles_join hover hstop ha hb

/-- A lower bound on the first index survives joins. -/
theorem joinClosed_le_first (n : Nat) : JoinClosed fun e => n ≤ e.first :=
  fun _ _ ha _ _ _ _ => ha

/-- An upper bound on the end survives joins. -/
theorem joinClosed_stop_le (n : Nat) : JoinClosed fun e => e.stop ≤ n := by
  intro a b _ hb _ hover hstop
  rw [Fragment.stop_join hover.le hstop]
  exact hb

variable {data : List Byte} {index : Nat} {eof : Bool}

/-- A substring outside the window changes nothing but the end-of-stream marks. -/
theorem pushed_outside (h : r.WellFormed) (dataEnd : Nat)
    (hend : (r.noteEof dataEnd eof).eof = (r.eof ||
      (eof && decide (index + data.length ≤ r.headIndex + r.output.remainingCapacity))))
    (hout : Finset.Ico index (index + data.length) ∩
      Finset.Ico r.headIndex (r.headIndex + r.output.remainingCapacity) = ∅) :
    Pushed r data index eof (r.noteEof dataEnd eof).endIfDone where
  wellFormed :=
    { separated := by simpa using h.separated
      head_lt := by simpa using h.head_lt
      stop_le := by simpa using h.stop_le
      count := by simpa using h.count
      head_eq := by simpa using h.head_eq }
  eof_eq := by rw [eof_endIfDone, hend]
  inputEnded_eq := by
    rw [inputEnded_endIfDone, output_noteEof, eof_endIfDone]
    simp [empty]
  error_eq := by simp
  capacity_eq := by simp
  bytesRead_eq := by simp
  written := ⟨[], by simp⟩
  agrees := by
    intro S hS _ e he
    exact hS e (by simpa using he)
  pending_subset := by
    rw [hout]
    simp [pending]
  pending_eq := by
    intro _
    rw [hout]
    simp [pending]
  not_straddles := by
    intro c hc _ e he
    exact hc e (by simpa using he)

/-- The reassembler `r₂` is `r` with a node of its window among the waiting fragments. -/
structure Stored (r : StreamReassembler) (node : E) (r₂ : StreamReassembler) : Prop where
  inserted : Inserted r.auxiliaryCache.toList node r₂.auxiliaryCache.toList
  count : r₂.unassembledBytes = totalLength r₂.auxiliaryCache.toList
  headIndex_eq : r₂.headIndex = r.headIndex
  output_eq : r₂.output = r.output
  le_first : r.headIndex ≤ node.first
  stop_le : node.stop ≤ r.headIndex + r.output.remainingCapacity

section Stored

variable {node : E} {r₁ r₂ r₃ : StreamReassembler}

/-- All fragments lie in the window. -/
theorem Stored.mem_bounds (hst : Stored r node r₂) (h : r.WellFormed) :
    ∀ e ∈ r₂.auxiliaryCache.toList,
      r.headIndex ≤ e.first ∧ e.stop ≤ r.headIndex + r.output.remainingCapacity := by
  intro e he
  constructor
  · exact hst.inserted.closed _ (joinClosed_le_first _) (fun e he => (h.head_lt e he).le)
      hst.le_first e he
  · exact hst.inserted.closed _ (joinClosed_stop_le _) h.stop_le hst.stop_le e he

/-- What waits fits into the window, so the count of it does not wrap around. -/
theorem Stored.unassembledBytes_lt (hst : Stored r node r₂) (h : r.WellFormed)
    (hwindow : r.headIndex + r.output.remainingCapacity < 2 ^ 64) :
    r₂.unassembledBytes < 2 ^ 64 := by
  have hcover : coverage r₂.auxiliaryCache.toList ⊆
      Finset.Ico r.headIndex (r.headIndex + r.output.remainingCapacity) := by
    intro j hj
    obtain ⟨e, he, hej, hje⟩ := mem_coverage.mp hj
    have := hst.mem_bounds h e he
    rw [Finset.mem_Ico]
    omega
  have hcard := Finset.card_le_card hcover
  rw [card_coverage hst.inserted.separated, Nat.card_Ico] at hcard
  have := hst.count
  omega

/-- What was stored is assembled. -/
theorem Stored.assembled (hst : Stored r node r₂) (h : r.WellFormed)
    (hwindow : r.headIndex + r.output.remainingCapacity < 2 ^ 64) :
    Assembled r₂ r₂.assembleString := by
  have hbounds := hst.mem_bounds h
  rw [← hst.headIndex_eq, ← hst.output_eq] at hbounds
  exact assembleLoop_assembled r₂.auxiliaryCache.toList.length r₂ le_rfl
    hst.inserted.separated (fun e he => (hbounds e he).1) (fun e he => (hbounds e he).2)
    hst.count (hst.unassembledBytes_lt h hwindow)

/-- The window does not move: what the head gains, the free space loses. -/
theorem Assembled.window_eq (h : Assembled r₂ r₃) :
    r₃.headIndex + r₃.output.remainingCapacity = r₂.headIndex + r₂.output.remainingCapacity := by
  obtain ⟨bytes, hcontents, hmoved, -⟩ := h.written
  have hsize := congrArg List.length hcontents
  rw [List.length_append, ByteStream.length_contents, ByteStream.length_contents] at hsize
  have h₃ := r₃.output.bufferSize_add_remainingCapacity
  have h₂ := r₂.output.bufferSize_add_remainingCapacity
  have hcapacity := h.capacity_eq
  omega

/-- The head counts the bytes written. -/
theorem Assembled.head_eq (h : Assembled r₂ r₃)
    (hhead : r₂.headIndex = r₂.output.bytesWritten) : r₃.headIndex = r₃.output.bytesWritten := by
  obtain ⟨bytes, hcontents, hmoved, -⟩ := h.written
  have hsize := congrArg List.length hcontents
  rw [List.length_append, ByteStream.length_contents, ByteStream.length_contents] at hsize
  rw [hmoved, hhead, ByteStream.bytesWritten_eq, ByteStream.bytesWritten_eq, h.bytesRead_eq, hsize,
    Nat.add_assoc]

/-- Assembling behind a stored node leaves the reassembler well formed. -/
theorem Stored.wellFormed_assembled (hst : Stored r node r₂) (h : r.WellFormed)
    (hasm : Assembled r₂ r₃) : r₃.endIfDone.WellFormed where
  separated := by simpa using hasm.separated
  head_lt := by simpa using hasm.head_lt
  stop_le := by
    intro e he
    rw [auxiliaryCache_endIfDone] at he
    rw [headIndex_endIfDone, remainingCapacity_endIfDone, hasm.window_eq, hst.headIndex_eq,
      hst.output_eq]
    exact (hst.mem_bounds h e (hasm.subset e he)).2
  count := by simpa using hasm.count
  head_eq := by
    rw [headIndex_endIfDone, bytesWritten_endIfDone]
    apply hasm.head_eq
    rw [hst.headIndex_eq, hst.output_eq, h.head_eq]

/-- Storing a node that lies in the window and assembling, where `r₂` has the
end-of-stream mark already noted. -/
theorem pushed_inside (h : r.WellFormed) (hst : Stored r node r₂)
    (heof : r₂.eof = (r.eof ||
      (eof && decide (index + data.length ≤ r.headIndex + r.output.remainingCapacity))))
    (hwindow : r.headIndex + r.output.remainingCapacity < 2 ^ 64)
    (hrange : Finset.Ico node.first node.stop = Finset.Ico index (index + data.length) ∩
      Finset.Ico r.headIndex (r.headIndex + r.output.remainingCapacity))
    (hexcerpt : ∀ S, IsExcerpt S ⟨index, data⟩ → IsExcerpt S node)
    (hinside : ∀ c, node.Straddles c → Fragment.Straddles (⟨index, data⟩ : E) c) :
    Pushed r data index eof r₂.assembleString.endIfDone := by
  have hasm := hst.assembled h hwindow
  have hwf := hst.wellFormed_assembled h hasm
  have hins := hst.inserted
  have hindex := hst.headIndex_eq
  have hout := hst.output_eq
  have hagree : ∀ S, r.Agrees S → IsExcerpt S ⟨index, data⟩ → r₂.Agrees S := fun S hS hdata =>
    hins.closed (IsExcerpt S) (joinClosed_isExcerpt S) hS (hexcerpt S hdata)
  generalize r₂.assembleString = r₃ at *
  obtain ⟨bytes, hcontents, hmoved, htake⟩ := hasm.written
  rw [hindex] at hmoved htake
  rw [hout] at hcontents
  exact
    { wellFormed := hwf
      eof_eq := by rw [eof_endIfDone, hasm.eof_eq, heof]
      inputEnded_eq := by
        rw [inputEnded_endIfDone, hasm.inputEnded_eq, hout, eof_endIfDone]
        simp [empty]
      error_eq := by rw [error_endIfDone, hasm.error_eq, hout]
      capacity_eq := by rw [capacity_endIfDone, hasm.capacity_eq, hout]
      bytesRead_eq := by rw [bytesRead_endIfDone, hasm.bytesRead_eq, hout]
      written := by
        refine ⟨bytes, by rw [contents_endIfDone, hcontents],
          by rw [headIndex_endIfDone, hmoved], ?_⟩
        intro S hS hdata
        rw [headIndex_endIfDone]
        exact htake S (hagree S hS hdata)
      agrees := by
        intro S hS hdata e he
        rw [auxiliaryCache_endIfDone] at he
        exact hagree S hS hdata e (hasm.subset e he)
      pending_subset := by
        intro j hj
        simp only [pending, auxiliaryCache_endIfDone] at hj
        obtain ⟨e, he, hej⟩ := mem_coverage.mp hj
        rw [pending, ← hrange, ← hins.coverage_eq]
        exact mem_coverage.mpr ⟨e, hasm.subset e he, hej⟩
      pending_eq := by
        intro hended
        have hpend := hasm.pending_eq (by rw [hout]; exact hended)
        rw [hindex] at hpend
        rw [← hrange]
        simp only [pending, auxiliaryCache_endIfDone, headIndex_endIfDone] at hpend ⊢
        rw [← hins.coverage_eq, hpend]
      not_straddles := by
        intro c hc hdata e he
        rw [auxiliaryCache_endIfDone] at he
        exact hins.closed _ (joinClosed_not_straddles c) hc
          (fun hnode => hdata (hinside c hnode)) e (hasm.subset e he) }

/-- Storing a node of the window. -/
theorem stored_insertNode (h : r.WellFormed) (hcache : r₁.auxiliaryCache = r.auxiliaryCache)
    (hcount : r₁.unassembledBytes = r.unassembledBytes)
    (hhead : r₁.headIndex = r.headIndex) (houtput : r₁.output = r.output)
    (hwindow : r.headIndex + r.output.remainingCapacity < 2 ^ 64)
    (hbound : r.unassembledBytes + node.second.length < 2 ^ 64)
    (hfirst : r.headIndex ≤ node.first)
    (hstop : node.stop ≤ r.headIndex + r.output.remainingCapacity)
    (hempty : node.second = [] → ∀ e ∈ r.auxiliaryCache.toList, ¬ e.Straddles node.first) :
    Stored r node (r₁.insertNode node node.second.length) := by
  obtain ⟨hins, hlen⟩ := insertNode_inserted r₁ node
    (by rw [hcache]; exact h.separated) (by rw [hcache, hcount]; exact h.count)
    (by rw [hcount]; exact hbound) (by omega) (by rw [hcache]; exact hempty)
  rw [hcache] at hins
  exact ⟨hins, hlen, hhead, houtput, hfirst, hstop⟩

end Stored

/-- The specification of `push_substring` on a well-formed reassembler.  The one demand
on the caller is that an empty substring does not fall strictly inside a waiting
fragment. -/
theorem pushSubstring_pushed (h : r.WellFormed)
    (hwindow : r.headIndex + r.output.remainingCapacity < 2 ^ 64)
    (hdata : index + data.length < 2 ^ 64) (hroom : r.output.capacity + data.length < 2 ^ 64)
    (hempty : data = [] → ∀ e ∈ r.auxiliaryCache.toList, ¬ e.Straddles index) :
    Pushed r data index eof (r.pushSubstring data index eof) := by
  have hend : word 64 (index + data.length) = index + data.length := word_eq_self hdata
  have hwin : r.windowEnd = r.headIndex + r.output.remainingCapacity := word_eq_self hwindow
  have heof : (r.noteEof (index + data.length) eof).eof = (r.eof ||
      (eof && decide (index + data.length ≤ r.headIndex + r.output.remainingCapacity))) := by
    rw [eof_noteEof, hwin]
  simp only [pushSubstring, hend, hwin]
  split
  · rename_i hearly
    apply pushed_outside h _ heof
    ext j
    simp only [Finset.mem_inter, Finset.mem_Ico, Finset.notMem_empty, iff_false]
    omega
  · rename_i hlate
    rw [not_or, not_le, not_le] at hlate
    obtain ⟨hindex, hreach⟩ := hlate
    have hlen : wordSub 64 (min (r.headIndex + r.output.remainingCapacity) (index + data.length))
        (max index r.headIndex) =
          min (r.headIndex + r.output.remainingCapacity) (index + data.length) -
            max index r.headIndex :=
      wordSub_eq_sub (by omega) (by omega)
    rw [hlen]
    -- The node is the part of the data inside the window.
    have hnode : (⟨max index r.headIndex, (data.drop (max index r.headIndex - index)).take
        (min (r.headIndex + r.output.remainingCapacity) (index + data.length) -
          max index r.headIndex)⟩ : E) = Fragment.clip ⟨index, data⟩ r.headIndex
            (r.headIndex + r.output.remainingCapacity) := rfl
    have hlo : r.headIndex < (⟨index, data⟩ : E).stop := hreach
    have hhi : (⟨index, data⟩ : E).first < r.headIndex + r.output.remainingCapacity := hindex
    have hle : r.headIndex ≤ r.headIndex + r.output.remainingCapacity := Nat.le_add_right _ _
    have hlength : (Fragment.clip (⟨index, data⟩ : E) r.headIndex
        (r.headIndex + r.output.remainingCapacity)).second.length =
          min (r.headIndex + r.output.remainingCapacity) (index + data.length) -
            max index r.headIndex := Fragment.length_clip hlo
    have hstop := Fragment.stop_clip hlo hhi hle
    have hrange := Fragment.Ico_clip hlo hhi hle
    have hinside := fun c => Fragment.Straddles.of_clip (c := c) hlo hhi hle
    have hexcerpt := fun S (hS : IsExcerpt S ⟨index, data⟩) =>
      hS.clip r.headIndex (r.headIndex + r.output.remainingCapacity)
    have hfirst : (Fragment.clip (⟨index, data⟩ : E) r.headIndex
        (r.headIndex + r.output.remainingCapacity)).first = max index r.headIndex := rfl
    rw [hnode, ← hlength]
    generalize Fragment.clip (⟨index, data⟩ : E) r.headIndex
      (r.headIndex + r.output.remainingCapacity) = node at *
    have hunassembled := h.unassembledBytes_le
    have hcapacity := r.output.bufferSize_add_remainingCapacity
    have hstored := stored_insertNode h (auxiliaryCache_noteEof r (index + data.length) eof)
      (unassembledBytes_noteEof _ _ _) (headIndex_noteEof _ _ _) (output_noteEof _ _ _) hwindow
      (show r.unassembledBytes + node.second.length < 2 ^ 64 by omega) (by omega) (by omega) ?_
    · exact pushed_inside h hstored heof hwindow hrange hexcerpt hinside
    · intro hnil e he hstraddle
      rw [hnil, List.length_nil] at hlength
      have hlt := h.head_lt e he
      rw [Fragment.Straddles, hfirst] at hstraddle
      -- The node can only be empty because the data is.
      have hshort : data = [] := List.length_eq_zero_iff.mp (by omega)
      refine hempty hshort e he ⟨?_, ?_⟩ <;> omega

end StreamReassembler
end Sponge
