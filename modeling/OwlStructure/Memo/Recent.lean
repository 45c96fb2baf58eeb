/-!
Memoised results of a function on shared objects. At most a given number of results is kept; the
object looked up longest ago gives way first. Every entry carries the proof that its result is the
function's, so a lookup answers what the function would.
-/
namespace OwlStructure

universe u v

variable {α : Type u} {β : Type v}

/-- A value with an identity of its own. Equal values under two identities are two objects. -/
structure Shared (α : Type u) where
  id : Nat
  value : α
  deriving DecidableEq

/-- A result that was kept for an object. -/
structure MemoEntry (f : α → β) where
  object : Shared α
  result : β
  result_eq : result = f object.value

namespace MemoEntry

variable {f : α → β}

def compute (f : α → β) (o : Shared α) : MemoEntry f := ⟨o, f o.value, rfl⟩

end MemoEntry

/-- Kept results, the one asked for last in front, and the counts of lookups that found a result,
of lookups that did not, and of results given up to make room. -/
structure Recent (f : α → β) where
  entries : List (MemoEntry f)
  hits : Nat
  misses : Nat
  evictions : Nat

namespace Recent

variable {f : α → β}

def empty : Recent f := ⟨[], 0, 0, 0⟩

def size (m : Recent f) : Nat := m.entries.length

/-- The kept result of an object. -/
def find? [DecidableEq α] (m : Recent f) (o : Shared α) : Option (MemoEntry f) :=
  m.entries.find? fun e => decide (e.object = o)

/-- The entries of all other objects, in order. -/
def others [DecidableEq α] (m : Recent f) (o : Shared α) : List (MemoEntry f) :=
  m.entries.filter fun e => decide (e.object ≠ o)

/-- The result for an object. It stands in front afterwards; if it had to be computed and there is
no room, the last entry goes. -/
def lookup [DecidableEq α] (capacity : Nat) (m : Recent f) (o : Shared α) : β × Recent f :=
  match m.find? o with
  | some e => (e.result, { m with entries := e :: m.others o, hits := m.hits + 1 })
  | none =>
    let e := MemoEntry.compute f o
    let kept := (e :: m.entries).take capacity
    (e.result,
      { m with
        entries := kept
        misses := m.misses + 1
        evictions := m.evictions + (m.entries.length + 1 - kept.length) })

theorem lookup_result [DecidableEq α] (capacity : Nat) (m : Recent f) (o : Shared α) :
    (m.lookup capacity o).1 = f o.value := by
  unfold lookup
  split
  · next e h =>
    have := List.find?_some h
    simp only [decide_eq_true_eq] at this
    subst this
    exact e.result_eq
  · rfl

/-- Keeps the results of the objects that are alive. -/
def retain (m : Recent f) (alive : Nat → Bool) : Recent f :=
  { m with entries := m.entries.filter fun e => alive e.object.id }

/-- Drops all results; the counts stay. -/
def clear (m : Recent f) : Recent f := { m with entries := [] }

end Recent

end OwlStructure
