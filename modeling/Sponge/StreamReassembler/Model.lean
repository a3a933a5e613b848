import Sponge.ByteStream
import Sponge.Library.Fragment
import Sponge.Library.OrderedSet
import Sponge.Library.Word

/-!
# The stream reassembler

`StreamReassembler` of `libsponge/stream_reassembler.{hh,cc}`: excerpts of a byte
stream arrive in any order, possibly overlapping, and are put together into an
in-order stream.  Excerpts that cannot be written yet wait in `_auxiliary_cache`, a
`std::set` of index and string ordered by index and then by string.

The definitions follow the source branch by branch, with its 64-bit sums and
differences.  The loops over the set carry the size of the set as fuel; each of
their rounds erases an element.  The member `_capacity` is read by no function and is
left out.
-/

namespace Sponge

open Library

/-- `E`: an index and the string that starts there. -/
abbrev E := Fragment Byte

/-- Strings compare by unsigned bytes, pairs by index first. -/
def E.key (e : E) : Nat ×ₗ List Nat :=
  toLex (e.first, e.second.map UInt8.toNat)

theorem E.key_injective : Function.Injective E.key := by
  intro a b h
  have hpair := Prod.ext_iff.mp (toLex.injective h)
  have hbytes : Function.Injective UInt8.toNat := fun _ _ => UInt8.toNat_inj.mp
  exact Fragment.ext hpair.1 (List.map_injective_iff.mpr hbytes hpair.2)

/-- The order of `std::pair<size_t, std::string>`. -/
instance : LinearOrder E :=
  LinearOrder.lift' E.key E.key_injective

/-- `StreamReassembler`. -/
structure StreamReassembler where
  unassembledBytes : Nat
  headIndex : Nat
  auxiliaryCache : OrderedSet E
  eof : Bool
  output : ByteStream

namespace StreamReassembler

/-- `StreamReassembler(capacity)`. -/
def new (capacity : Nat) : StreamReassembler where
  unassembledBytes := 0
  headIndex := 0
  auxiliaryCache := OrderedSet.empty
  eof := false
  output := ByteStream.new capacity

/-- `stream_out()`. -/
def streamOut (r : StreamReassembler) : ByteStream :=
  r.output

/-- `empty()`. -/
def empty (r : StreamReassembler) : Bool :=
  r.unassembledBytes == 0

/-- `merge(pa, pb)`: the new value of `pa` and the number of bytes that overlap. -/
def merge (pa pb : E) : E × Nat :=
  if pa.stop ≤ pb.first then (pa, 0)
  else if pb.stop ≤ pa.stop then (pa, pb.second.length)
  else (pa.join pb, pa.stop - pb.first)

/-- The first loop of `push_substring`: `node` takes in the fragments behind it.
Fragments that end inside the new data are erased; the first one that reaches further
is merged if it overlaps, and ends the loop.  The result is the node, the set and the
count of unassembled bytes. -/
def mergeAfter (newEnd : Nat) : Nat → E → OrderedSet E → Nat → E × OrderedSet E × Nat
  | 0, node, cache, unassembled => (node, cache, unassembled)
  | fuel + 1, node, cache, unassembled =>
      match cache.lowerBound node with
      | none => (node, cache, unassembled)
      | some it =>
          if it.stop ≤ newEnd then
            mergeAfter newEnd fuel node (cache.erase it)
              (wordSub 64 unassembled it.second.length)
          else
            ((merge node it).1,
              if (merge node it).2 = 0 then cache else cache.erase it,
              wordSub 64 unassembled (merge node it).2)

/-- The second half of the insertion: `node` is merged into the fragment in front of
it, or becomes a fragment of its own. -/
def mergeBefore (writeLen : Nat) (node : E) (cache : OrderedSet E) (unassembled : Nat) :
    OrderedSet E × Nat :=
  match cache.before node with
  | none => (cache.insert node, word 64 (unassembled + writeLen))
  | some preNode =>
      (if (merge preNode node).2 = 0 then cache.insert node
        else (cache.erase preNode).insert (merge preNode node).1,
        wordSub 64 (word 64 (unassembled + writeLen)) (merge preNode node).2)

/-- Both merges: store `node`, which holds `writeLen` new bytes. -/
def insertNode (r : StreamReassembler) (node : E) (writeLen : Nat) : StreamReassembler :=
  let after := mergeAfter (word 64 (node.first + writeLen))
    r.auxiliaryCache.toList.length node r.auxiliaryCache r.unassembledBytes
  let before := mergeBefore writeLen after.1 after.2.1 after.2.2
  { r with auxiliaryCache := before.1, unassembledBytes := before.2 }

/-- `assemble_string()`: write the fragments that the head has reached. -/
def assembleLoop : Nat → StreamReassembler → StreamReassembler
  | 0, r => r
  | fuel + 1, r =>
      match r.auxiliaryCache.toList with
      | [] => r
      | it :: _ =>
          if r.headIndex < it.first then r
          else
            let written := r.output.write it.second
            assembleLoop fuel
              { r with
                output := written.1
                auxiliaryCache := r.auxiliaryCache.erase it
                unassembledBytes := wordSub 64 r.unassembledBytes it.second.length
                headIndex := r.headIndex + written.2 }

@[inherit_doc assembleLoop]
def assembleString (r : StreamReassembler) : StreamReassembler :=
  assembleLoop r.auxiliaryCache.toList.length r

/-- `if (empty() && _eof) _output.end_input();` -/
def endIfDone (r : StreamReassembler) : StreamReassembler :=
  if r.eof && r.empty then { r with output := r.output.endInput } else r

/-- `_head_index + _output.remaining_capacity()`: the first index beyond the window. -/
def windowEnd (r : StreamReassembler) : Nat :=
  word 64 (r.headIndex + r.output.remainingCapacity)

/-- The end of the stream is remembered when the substring that carries it fits. -/
def noteEof (r : StreamReassembler) (dataEnd : Nat) (eof : Bool) : StreamReassembler :=
  if dataEnd ≤ r.windowEnd then { r with eof := r.eof || eof } else r

/-- `push_substring(data, index, eof)`. -/
def pushSubstring (r : StreamReassembler) (data : List Byte) (index : Nat) (eof : Bool) :
    StreamReassembler :=
  let dataEnd := word 64 (index + data.length)
  let noted := r.noteEof dataEnd eof
  if r.windowEnd ≤ index ∨ dataEnd ≤ r.headIndex then noted.endIfDone
  else
    let startIndex := max index r.headIndex
    let writeLen := wordSub 64 (min r.windowEnd dataEnd) startIndex
    let node : E := ⟨startIndex, (data.drop (startIndex - index)).take writeLen⟩
    ((noted.insertNode node writeLen).assembleString).endIfDone

/-- An application read of `stream_out()`: the bytes it gets are dropped. -/
def popOutput (r : StreamReassembler) (len : Nat) : StreamReassembler :=
  { r with output := r.output.popOutput len }

end StreamReassembler
end Sponge
