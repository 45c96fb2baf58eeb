import OwlStructure.AxiomIndex
import OwlStructure.Explanation.Sides

/-!
The map of a justification: its axioms by the entities on their left sides, and the entities on the
right side of each axiom.
-/
namespace OwlStructure

structure AxiomMap where
  left : SortedMap Entity (List Axiom)
  right : SortedMap Axiom (SortedSet Entity)

namespace AxiomMap

def empty : AxiomMap := ⟨∅, ∅⟩

/-- A set with more entities; a missing set counts as empty. -/
def extend (more : SortedSet Entity) (set : Option (SortedSet Entity)) :
    Option (SortedSet Entity) :=
  some ((set.getD ∅).insertAll more.toList)

def add (m : AxiomMap) (a : Axiom) : AxiomMap where
  left := AxiomIndex.addUnder m.left a.kind.leftSide a
  right := m.right.alter a (extend a.kind.rightSide)

def build (axioms : List Axiom) : AxiomMap := axioms.foldl add empty

/-- The axioms that have an entity on their left side. -/
def filedUnder (m : AxiomMap) (e : Entity) : List Axiom := (m.left.find? e).getD []

/-- The entities on the right side of an axiom. -/
def rightOf (m : AxiomMap) (a : Axiom) : SortedSet Entity := (m.right.find? a).getD ∅

end AxiomMap

end OwlStructure
