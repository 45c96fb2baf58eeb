import OwlStructure.Collections.SortedSet

/-!
The sets of a list that no other set of the list contains. Once the sets are ordered by size, only
a later one can contain another.
-/
namespace OwlStructure

variable {α : Type u} [Keyed α]

namespace SortedSet

/-- Smaller sets first; sets of one size compare by their members. -/
def sizeOrder (s t : SortedSet α) : Ordering := (compare s.size t.size).then (compare s t)

/-- Keeps the sets that no later set contains. -/
def dropCovered : List (SortedSet α) → List (SortedSet α)
  | [] => []
  | s :: rest =>
    if rest.any s.isSubset then dropCovered rest else s :: dropCovered rest

/-- The sets that are maximal among those of a list, in ascending order. -/
def maximal (sets : List (SortedSet α)) : List (SortedSet α) :=
  (dropCovered (sets.mergeSort fun s t => (sizeOrder s t).isLE)).mergeSort
    fun s t => (compare s t).isLE

end SortedSet

end OwlStructure
