import OwlStructure.Collections.Count
import OwlStructure.Collections.SortedMap

/-!
What can be reached from a start along the arrows of a map, in any number of steps. Each visit of a
key uses the key up, which bounds the search.
-/
namespace OwlStructure

namespace SortedMap

variable {κ : Type u} [Keyed κ]

/-- The values that a key leads to in one step. -/
def next (m : SortedMap κ (SortedSet κ)) (k : κ) : SortedSet κ := (m.find? k).getD ∅

/-- Adds an arrow. -/
def addArrow (m : SortedMap κ (SortedSet κ)) (k x : κ) : SortedMap κ (SortedSet κ) :=
  m.alter k fun s => some ((s.getD ∅).insert x)

/-- The map of a list of arrows. -/
def ofArrows (arrows : List (κ × κ)) : SortedMap κ (SortedSet κ) :=
  arrows.foldl (fun m a => m.addArrow a.1 a.2) ∅

/-- How many keys have not been visited. -/
def unvisited (m : SortedMap κ ν) (visited : SortedSet κ) : Nat :=
  m.keys.toList.countP fun k => decide (k ∉ visited)

theorem mem_keys_of_findIn {k : κ} {v : ν} {l : List (κ × ν)} (h : findIn k l = some v) :
    k ∈ l.map Prod.fst := by
  induction l with
  | nil => cases h
  | cons e l ih =>
    rw [findIn] at h
    split at h
    · next he => exact List.mem_cons.2 (.inl (Std.LawfulEqCmp.eq_of_compare he))
    · exact List.mem_cons_of_mem _ (ih h)

theorem mem_keys_of_find? {m : SortedMap κ ν} {k : κ} {v : ν} (h : m.find? k = some v) :
    k ∈ m.keys := mem_keys_of_findIn h

theorem unvisited_insert_le {m : SortedMap κ ν} {visited : SortedSet κ} {k : κ} :
    m.unvisited (visited.insert k) ≤ m.unvisited visited :=
  countP_le_of_imp fun x _ h => by
    simp only [SortedSet.mem_insert, decide_eq_true_eq] at h ⊢
    exact fun hx => h (.inr hx)

theorem unvisited_insert_lt {m : SortedMap κ ν} {visited : SortedSet κ} {k : κ} (hk : k ∈ m.keys)
    (hv : k ∉ visited) : m.unvisited (visited.insert k) < m.unvisited visited := by
  refine countP_lt_of_imp (a := k) (fun x _ h => ?_) hk (decide_eq_true hv) ?_
  · simp only [SortedSet.mem_insert, decide_eq_true_eq] at h ⊢
    exact fun hx => h (.inr hx)
  · simp

/-- Visits what is pending, and all that it leads to. -/
def visit (m : SortedMap κ (SortedSet κ)) (pending : List κ) (visited : SortedSet κ) :
    SortedSet κ :=
  match pending with
  | [] => visited
  | k :: rest =>
    if _hv : k ∈ visited then visit m rest visited
    else
      match _hk : m.find? k with
      | none => visit m rest (visited.insert k)
      | some s => visit m (s.toList ++ rest) (visited.insert k)
termination_by (m.unvisited visited, pending.length)
decreasing_by
  · exact Prod.Lex.right _ (by simp)
  · exact Prod.Lex.right' _ unvisited_insert_le (by simp)
  · exact Prod.Lex.left _ _ (unvisited_insert_lt (mem_keys_of_find? _hk) _hv)

/-- All that a start leads to, itself included. -/
def reachable (m : SortedMap κ (SortedSet κ)) (start : κ) : SortedSet κ := m.visit [start] ∅

end SortedMap

end OwlStructure
