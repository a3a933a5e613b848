import Mathlib

/-!
# Ring buffers

A bounded queue kept in a fixed block of slots.  The write position moves by
comparing with the capacity and starting again at zero; the read position moves by
a remainder.  The queue that the slots stand for is the view: the elements met by
walking a given number of slots from the read position.

Main results:

- Theorem {lit}`readFrom_eq_view`: walking with compare-and-reset reads the view.
- Theorem {lit}`view_writeFrom`: writing behind the view appends to it, as long as
  there is room.
- Theorem {lit}`drop_view`: moving the read position drops elements of the view.
- Theorems {lit}`writeChecked_eq_some` and {lit}`readChecked_eq_some`: a walk that starts in
  bounds never leaves them.
-/

namespace Sponge
namespace Library
namespace RingBuffer

variable {α : Type}

/-- The slot behind slot `i`, starting again at zero behind the last one. -/
def advance (capacity i : Nat) : Nat :=
  if i + 1 = capacity then 0 else i + 1

theorem advance_eq_mod {capacity i : Nat} (h : i < capacity) :
    advance capacity i = (i + 1) % capacity := by
  unfold advance
  split
  · rename_i heq
    rw [heq, Nat.mod_self]
  · rw [Nat.mod_eq_of_lt (by omega)]

/-- Write the elements one by one from slot `front` on; returns the slots and the
next write position. -/
def writeFrom (capacity : Nat) : List α → Nat → List α → List α × Nat
  | slots, front, [] => (slots, front)
  | slots, front, x :: xs =>
      writeFrom capacity (slots.set front x) (advance capacity front) xs

@[simp]
theorem length_writeFrom (capacity : Nat) (slots : List α) (front : Nat) (data : List α) :
    (writeFrom capacity slots front data).1.length = slots.length := by
  induction data generalizing slots front with
  | nil => rfl
  | cons x xs ih => rw [writeFrom, ih, List.length_set]

/-- The write position moves on by the number of elements written. -/
theorem front_writeFrom {capacity front : Nat} (slots data : List α)
    (h : front < capacity) :
    (writeFrom capacity slots front data).2 = (front + data.length) % capacity := by
  induction data generalizing slots front with
  | nil => rw [writeFrom, List.length_nil, Nat.add_zero, Nat.mod_eq_of_lt h]
  | cons x xs ih =>
      rw [writeFrom, advance_eq_mod h, ih _ (Nat.mod_lt _ (by omega)), List.length_cons,
        Nat.mod_add_mod]
      congr 1
      omega

theorem advance_lt {capacity i : Nat} (h : i < capacity) : advance capacity i < capacity := by
  rw [advance_eq_mod h]
  exact Nat.mod_lt _ (by omega)

/-- The same with every access checked: it fails at the first slot that does not exist. -/
def writeChecked (capacity : Nat) : List α → Nat → List α → Option (List α × Nat)
  | slots, front, [] => some (slots, front)
  | slots, front, x :: xs =>
      if front < slots.length then
        writeChecked capacity (slots.set front x) (advance capacity front) xs
      else none

/-- A write that starts in bounds stays in bounds. -/
theorem writeChecked_eq_some {capacity front : Nat} {slots : List α} (data : List α)
    (hlen : slots.length = capacity) (h : front < capacity) :
    writeChecked capacity slots front data = some (writeFrom capacity slots front data) := by
  induction data generalizing slots front with
  | nil => rfl
  | cons x xs ih =>
      rw [writeChecked, if_pos (by rw [hlen]; exact h), writeFrom]
      exact ih (by rw [List.length_set, hlen]) (advance_lt h)

/-- Read `count` slots one by one from slot `start` on, failing at the first one that does
not exist. -/
def readChecked (capacity : Nat) (slots : List α) : Nat → Nat → Option (List α)
  | _, 0 => some []
  | start, count + 1 =>
      match slots[start]?, readChecked capacity slots (advance capacity start) count with
      | some x, some xs => some (x :: xs)
      | _, _ => none

variable [Inhabited α]

/-- Read `count` slots one by one from slot `start` on. -/
def readFrom (capacity : Nat) (slots : List α) : Nat → Nat → List α
  | _, 0 => []
  | start, count + 1 =>
      slots.getD start default :: readFrom capacity slots (advance capacity start) count

/-- The queue of `size` elements whose oldest one sits in slot `rear`. -/
def view (capacity : Nat) (slots : List α) (rear size : Nat) : List α :=
  (List.range size).map fun k => slots.getD ((rear + k) % capacity) default

@[simp]
theorem length_view (capacity : Nat) (slots : List α) (rear size : Nat) :
    (view capacity slots rear size).length = size := by
  simp [view]

@[simp]
theorem view_zero (capacity : Nat) (slots : List α) (rear : Nat) :
    view capacity slots rear 0 = [] :=
  rfl

/-- Reading slot by slot reads the view. -/
theorem readFrom_eq_view {capacity start : Nat} (slots : List α) (count : Nat)
    (h : start < capacity) :
    readFrom capacity slots start count = view capacity slots start count := by
  induction count generalizing start with
  | zero => rfl
  | succ count ih =>
      have hpos : 0 < capacity := by omega
      rw [readFrom, advance_eq_mod h, ih (Nat.mod_lt _ hpos), view, view,
        List.range_succ_eq_map, List.map_cons, List.map_map]
      congr 1
      · rw [Nat.add_zero, Nat.mod_eq_of_lt h]
      · apply List.map_congr_left
        intro k _
        simp only [Function.comp_apply, Nat.mod_add_mod]
        congr 2
        omega

/-- A read that starts in bounds stays in bounds. -/
theorem readChecked_eq_some {capacity start : Nat} {slots : List α} (count : Nat)
    (hlen : slots.length = capacity) (h : start < capacity) :
    readChecked capacity slots start count = some (readFrom capacity slots start count) := by
  induction count generalizing start with
  | zero => rfl
  | succ count ih =>
      have hslot : start < slots.length := by
        rw [hlen]
        exact h
      rw [readChecked, ih (advance_lt h), List.getElem?_eq_getElem hslot, readFrom,
        List.getD_eq_getElem slots default hslot]

/-- A shorter read of the same queue is a start of a longer one. -/
theorem take_view (capacity : Nat) (slots : List α) (rear : Nat) {count size : Nat}
    (h : count ≤ size) :
    (view capacity slots rear size).take count = view capacity slots rear count := by
  rw [view, view, ← List.map_take, List.take_range, Nat.min_eq_left h]

/-- Moving the read position drops elements of the queue. -/
theorem drop_view (capacity : Nat) (slots : List α) (rear count size : Nat) :
    (view capacity slots rear size).drop count =
      view capacity slots ((rear + count) % capacity) (size - count) := by
  apply List.ext_getElem
  · simp
  · intro k hk _
    simp only [length_view, List.length_drop] at hk
    simp only [view, List.getElem_drop, List.getElem_map, List.getElem_range,
      Nat.mod_add_mod]
    congr 2
    omega

/-- Two different places of a queue that fits never share a slot. -/
theorem slot_ne {capacity rear k size : Nat} (hk : k < size) (hsize : size < capacity) :
    (rear + k) % capacity ≠ (rear + size) % capacity := by
  intro heq
  have hmod : k ≡ size [MOD capacity] := Nat.ModEq.add_left_cancel' rear heq
  have := Nat.ModEq.eq_of_lt_of_lt hmod (by omega) hsize
  omega

/-- Filling the slot behind the queue appends one element. -/
theorem view_set {capacity rear size : Nat} {slots : List α} (x : α)
    (hlen : slots.length = capacity) (hsize : size < capacity) :
    view capacity (slots.set ((rear + size) % capacity) x) rear (size + 1) =
      view capacity slots rear size ++ [x] := by
  have hslot : (rear + size) % capacity < slots.length := by
    rw [hlen]
    exact Nat.mod_lt _ (by omega)
  rw [view, List.range_succ, List.map_append, List.map_singleton]
  congr 1
  · apply List.map_congr_left
    intro k hk
    rw [List.mem_range] at hk
    simp only [List.getD_eq_getElem?_getD]
    rw [List.getElem?_set_ne (slot_ne hk hsize).symm]
  · simp only [List.getD_eq_getElem?_getD]
    rw [List.getElem?_set_self hslot, Option.getD_some]

/-- Writing behind the queue appends to it, as long as everything fits. -/
theorem view_writeFrom {capacity : Nat} {slots : List α} (rear size : Nat) (data : List α)
    (hlen : slots.length = capacity) (hfit : size + data.length ≤ capacity) :
    view capacity (writeFrom capacity slots ((rear + size) % capacity) data).1 rear
        (size + data.length) =
      view capacity slots rear size ++ data := by
  induction data generalizing slots size with
  | nil => simp [writeFrom]
  | cons x xs ih =>
      rw [List.length_cons] at hfit
      have hpos : 0 < capacity := by omega
      have hnext : advance capacity ((rear + size) % capacity) =
          (rear + (size + 1)) % capacity := by
        rw [advance_eq_mod (Nat.mod_lt _ hpos), Nat.mod_add_mod, Nat.add_assoc]
      have hcount : size + (x :: xs).length = size + 1 + xs.length := by
        rw [List.length_cons]
        omega
      rw [writeFrom, hnext, hcount, ih (size + 1) (by rw [List.length_set, hlen]) (by omega),
        view_set x hlen (by omega), List.append_assoc, List.singleton_append]

end RingBuffer
end Library
end Sponge
