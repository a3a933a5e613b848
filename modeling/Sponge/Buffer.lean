import Sponge.Parser

/-!
# Removing bytes from the front

`BufferViewList` of `libsponge/util/buffer.{hh,cc}`, the views that `FileDescriptor::write` hands to
the kernel.  A list of views gives up whole elements as long as it can, and shortens the next one.

Main results:

- Theorem {lit}`BufferViewList.removePrefix_spec`: the bytes that are left are the last ones, and an
  exception is thrown exactly if there are not enough.
-/

namespace Sponge

/-- The loop of `remove_prefix(n)`: an element that is used up is popped, and the next one is
shortened. -/
def removeFront (message : String) : List (List Byte) → Nat → Except String Unit × List (List Byte)
  | chunks, 0 => (.ok (), chunks)
  | [], _ + 1 => (.error message, [])
  | chunk :: chunks, n + 1 =>
      if n + 1 < chunk.length then (.ok (), chunk.drop (n + 1) :: chunks)
      else removeFront message chunks (n + 1 - chunk.length)

theorem removeFront_zero (message : String) (chunks : List (List Byte)) :
    removeFront message chunks 0 = (.ok (), chunks) := by
  cases chunks <;> rfl

/-- The bytes that are left are the last ones; an exception is thrown exactly if there are not
enough. -/
theorem removeFront_spec (message : String) (chunks : List (List Byte)) (n : Nat) :
    (removeFront message chunks n).2.flatten = chunks.flatten.drop n ∧
      (removeFront message chunks n).1 =
        if n ≤ chunks.flatten.length then .ok () else .error message := by
  induction chunks generalizing n with
  | nil =>
      cases n with
      | zero => simp [removeFront_zero]
      | succ n => simp [removeFront]
  | cons chunk chunks ih =>
      cases n with
      | zero => simp [removeFront_zero]
      | succ n =>
          simp only [removeFront]
          split
          · rename_i hlt
            rw [List.flatten_cons, List.flatten_cons, List.length_append,
              List.drop_append_of_le_length hlt.le, if_pos (by omega)]
            exact ⟨rfl, rfl⟩
          · rename_i hge
            obtain ⟨hrest, hresult⟩ := ih (n + 1 - chunk.length)
            have hiff : n + 1 - chunk.length ≤ chunks.flatten.length ↔
                n + 1 ≤ chunk.length + chunks.flatten.length := by omega
            rw [hrest, hresult, List.flatten_cons, List.drop_append,
              List.drop_eq_nil_of_le (Nat.le_of_not_lt hge), List.nil_append, List.length_append]
            exact ⟨rfl, if_congr hiff rfl rfl⟩

/-- `BufferViewList`. -/
structure BufferViewList where
  views : List (List Byte)
deriving DecidableEq, Repr

namespace BufferViewList

/-- `BufferViewList(str)`. -/
def ofString (str : List Byte) : BufferViewList :=
  ⟨[str]⟩

/-- `size()`. -/
def size (list : BufferViewList) : Nat :=
  (list.views.map List.length).sum

/-- What the vectors of `as_iovecs()` show, one after the other. -/
def gathered (list : BufferViewList) : List Byte :=
  list.views.flatten

/-- `remove_prefix(n)`. -/
def removePrefix (list : BufferViewList) (n : Nat) : Except String Unit × BufferViewList :=
  let (result, views) := removeFront "BufferListView::remove_prefix" list.views n
  (result, ⟨views⟩)

theorem length_gathered (list : BufferViewList) : list.gathered.length = list.size := by
  simp [gathered, size, List.length_flatten]

@[simp]
theorem gathered_ofString (str : List Byte) : (ofString str).gathered = str := by
  simp [gathered, ofString]

/-- The bytes that are left are the last ones. -/
theorem removePrefix_spec (list : BufferViewList) (n : Nat) :
    (list.removePrefix n).2.gathered = list.gathered.drop n ∧
      (list.removePrefix n).1 =
        if n ≤ list.size then .ok () else .error "BufferListView::remove_prefix" := by
  rw [← list.length_gathered]
  exact removeFront_spec _ list.views n

end BufferViewList
end Sponge
