import OwlStructure.Axiom.Basic
import OwlStructure.Collections.Reachability

/-!
The direct sub-property relation. Whatever puts a property below another puts the inverse of the
first below the inverse of the second as well; expressions are taken up to simplification.
-/
namespace OwlStructure

/-- For each property, a set of related properties. -/
abbrev PropertyMap := SortedMap ObjectPropertyExpression (SortedSet ObjectPropertyExpression)

/-- A property, and one that stands directly above it. -/
abbrev PropertyArrow := ObjectPropertyExpression × ObjectPropertyExpression

namespace PropertyHierarchy

/-- The arrows by which one property stands below another. -/
def arrowsBelow (sub sup : ObjectPropertyExpression) : List PropertyArrow :=
  [(sub.simplified, sup.simplified), (sub.inverseSimplified, sup.inverseSimplified)]

/-- The arrows that an axiom declares. Different operands of an equivalence stand below each other;
each side of an inverse axiom stands below the inverse of the other, and a symmetric property below
its own inverse. -/
def declaredArrows : AxiomKind → List PropertyArrow
  | .subObjectPropertyOf sub sup => arrowsBelow sub sup
  | .equivalentObjectProperties ops =>
    ops.toList.flatMap fun p => ops.toList.flatMap fun q => if p = q then [] else arrowsBelow p q
  | .inverseObjectProperties first second =>
    arrowsBelow first (.inverse second) ++ arrowsBelow second (.inverse first)
  | .symmetricObjectProperty p => arrowsBelow p (.inverse p)
  | _ => []

/-- The direct sub-property relation of some axioms. -/
def direct (axioms : List Axiom) : PropertyMap :=
  .ofArrows (axioms.flatMap fun a => declaredArrows a.kind)

/-- The arrows from the members of a property chain to the property above it. -/
def chainArrows : AxiomKind → List PropertyArrow
  | .subPropertyChainOf chain sup => chain.flatMap fun member => arrowsBelow member sup
  | _ => []

/-- Adds the arrows of the property chains to a relation. -/
def withChains (axioms : List Axiom) (m : PropertyMap) : PropertyMap :=
  (axioms.flatMap fun a => chainArrows a.kind).foldl (fun m a => m.addArrow a.1 a.2) m

/-- The object properties that some axioms mention. -/
def mentioned (axioms : List Axiom) : SortedSet ObjectProperty :=
  .ofList ((axioms.flatMap Axiom.entities).filterMap Entity.asObjectProperty?)

end PropertyHierarchy

end OwlStructure
