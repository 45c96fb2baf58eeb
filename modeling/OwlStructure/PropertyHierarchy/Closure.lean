import OwlStructure.PropertyHierarchy.Direct

/-!
Reflexive-transitive closures of property relations. Every property that the axioms mention, the
inverse of each, and every property in the relation has an entry, which holds at least itself; any
other property is related to itself alone.
-/
namespace OwlStructure.PropertyHierarchy

/-- The properties that have an entry in the closure of a relation. -/
def domain (axioms : List Axiom) (m : PropertyMap) : SortedSet ObjectPropertyExpression :=
  .ofList <|
    (mentioned axioms).toList.flatMap (fun p => [.named p, .inverse (.named p)]) ++
      m.entries.flatMap fun e => e.1 :: e.2.toList

/-- What each property leads to in any number of steps. -/
def closure (axioms : List Axiom) (m : PropertyMap) : PropertyMap :=
  .tabulate (domain axioms m) m.reachable

/-- The closure of the direct relation together with the property chains. -/
def ordering (axioms : List Axiom) (m : PropertyMap) : PropertyMap :=
  closure axioms (withChains axioms m)

/-- In a closure, the first property stands at or below the second. -/
def isAtOrBelow (closed : PropertyMap) (p q : ObjectPropertyExpression) : Bool :=
  match closed.find? p.simplified with
  | some above => decide (q.simplified ∈ above)
  | none => decide (p.simplified = q.simplified)

end OwlStructure.PropertyHierarchy
