import OwlStructure.Collections.Components
import OwlStructure.Collections.Distinct
import OwlStructure.Collections.MaximalSets
import OwlStructure.PropertyHierarchy.Direct

/-!
Equivalence classes: sets of properties that are below each other through cycles of sub-property
axioms alone. They are the strongly connected components with more than one member.
-/
namespace OwlStructure.PropertyHierarchy

/-- The arrow of a sub-property axiom; its inverse counts as another property here. -/
def subPropertyArrow? : AxiomKind → Option PropertyArrow
  | .subObjectPropertyOf sub sup => some (sub.simplified, sup.simplified)
  | _ => none

/-- The arrows of all sub-property axioms. -/
def subPropertyArrows (axioms : List Axiom) : SortedSet PropertyArrow :=
  .ofList (axioms.filterMap fun a => subPropertyArrow? a.kind)

/-- The named properties that the axioms mention, in order, and after them the other ends of the
arrows, as the arrows bring them up. -/
def nodes (axioms : List Axiom) : List ObjectPropertyExpression :=
  ((subPropertyArrows axioms).toList.flatMap fun e => [e.1, e.2]).foldl appendNew
    ((mentioned axioms).toList.map .named)

/-- The graph that some arrows make on the members of a list, by position. -/
def arrowGraph [DecidableEq α] (members : List α) (arrows : List (α × α)) :
    Digraph members.length :=
  ⟨.ofFn fun i => arrows.filterMap fun e =>
    if e.1 = members[i] then members.finIdxOf? e.2 else none⟩

/-- The sets of properties that lead to each other, in ascending order. -/
def equivalenceClasses (axioms : List Axiom) : List (SortedSet ObjectPropertyExpression) :=
  let members := nodes axioms
  let components := (arrowGraph members (subPropertyArrows axioms).toList).components
  SortedSet.maximal <|
    (components.filter fun c => 1 < c.length).map fun c => .ofList (c.map (members[·]))

end OwlStructure.PropertyHierarchy
