import OwlStructure.PropertyHierarchy.Closure

/-!
Composite properties: the built-in top and bottom property, transitive properties, the properties
above chains of more than one member, their inverses, and what is declared inverse or equivalent to
any of these. The properties that are not simple are those at or above a composite one, and their
inverses.
-/
namespace OwlStructure.PropertyHierarchy

/-- The properties that an axiom makes composite by itself. -/
def compositeSeeds : AxiomKind → List ObjectPropertyExpression
  | .transitiveObjectProperty p => [p]
  | .subPropertyChainOf chain sup => if 1 < chain.length then [sup] else []
  | _ => []

/-- The seeds of some axioms, after the two built-in properties. -/
def seeds (axioms : List Axiom) : List ObjectPropertyExpression :=
  .named .top :: .named .bottom :: axioms.flatMap fun a => compositeSeeds a.kind

/-- What an axiom declares inverse or equivalent to a simplified expression. -/
def partners (target : ObjectPropertyExpression) : AxiomKind → List ObjectPropertyExpression
  | .inverseObjectProperties first second =>
    if first.simplified = target then [second]
    else if second.simplified = target then [first]
    else []
  | .equivalentObjectProperties ops =>
    if ops.toList.any fun p => decide (p.simplified = target) then ops.toList else []
  | _ => []

/-- A property and its inverse, simplified. -/
def bothWays (p : ObjectPropertyExpression) : List ObjectPropertyExpression :=
  [p.simplified, p.inverseSimplified]

/-- Every property that becomes composite with one that is. -/
def marked (axioms : List Axiom) (seed : ObjectPropertyExpression) :
    List ObjectPropertyExpression :=
  (bothWays seed).flatMap fun target =>
    (axioms.flatMap fun a => (partners target a.kind).flatMap bothWays) ++ [target]

/-- The composite properties of some axioms. -/
def composite (axioms : List Axiom) : SortedSet ObjectPropertyExpression :=
  .ofList ((seeds axioms).flatMap (marked axioms))

/-- The composite properties that have an entry in a closure, with everything above them. -/
def aboveComposite (composite : SortedSet ObjectPropertyExpression) (closed : PropertyMap) :
    List ObjectPropertyExpression :=
  closed.entries.flatMap fun e => if e.1 ∈ composite then e.1 :: e.2.toList else []

/-- The properties that are not simple. -/
def nonSimple (composite : SortedSet ObjectPropertyExpression) (closed : PropertyMap) :
    SortedSet ObjectPropertyExpression :=
  let above := aboveComposite composite closed
  .ofList (above ++ above.map ObjectPropertyExpression.inverseSimplified)

end OwlStructure.PropertyHierarchy
