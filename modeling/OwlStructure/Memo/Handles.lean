import OwlStructure.Memo.Recent

/-!
Names for shared objects. An object is alive as long as a name holds it.
-/
namespace OwlStructure

structure Handles (α : Type u) where
  named : List (String × Shared α)
  next : Nat

namespace Handles

variable {α : Type u}

def empty : Handles α := ⟨[], 0⟩

def find? (h : Handles α) (name : String) : Option (Shared α) := h.named.lookup name

/-- The names without one of them. -/
def without (h : Handles α) (name : String) : List (String × Shared α) :=
  h.named.filter fun e => e.1 != name

/-- Makes a new object of a value, and lets the name hold it instead of what it held. -/
def make (h : Handles α) (name : String) (value : α) : Handles α :=
  ⟨(name, ⟨h.next, value⟩) :: h.without name, h.next + 1⟩

/-- Lets a further name hold an object. -/
def hold (h : Handles α) (name : String) (o : Shared α) : Handles α :=
  { h with named := (name, o) :: h.without name }

def drop (h : Handles α) (name : String) : Handles α := { h with named := h.without name }

def isAlive (h : Handles α) (id : Nat) : Bool := h.named.any fun e => e.2.id == id

end Handles

end OwlStructure
