import OwlStructure.Signature

/-!
The two sides of an axiom. An axiom explains the entities on its left side, and leads on to the
entities on its right side.
-/
namespace OwlStructure.AxiomKind

/-- The named entities that an axiom is filed under. -/
def leftSide : AxiomKind → List Entity
  | .subClassOf sub _ => sub.namedEntity?.toList
  | .equivalentClasses ops => ops.toList.filterMap ClassExpression.namedEntity?
  | .disjointClasses ops => ops.toList.filterMap ClassExpression.namedEntity?
  | .disjointUnion c _ => [.namedClass c]
  | .subObjectPropertyOf sub _ => sub.namedEntity?.toList
  | .equivalentObjectProperties ops =>
    ops.toList.filterMap ObjectPropertyExpression.namedEntity?
  | .disjointObjectProperties ops => ops.toList.filterMap ObjectPropertyExpression.namedEntity?
  | .inverseObjectProperties first _ => first.namedEntity?.toList
  | .objectPropertyDomain p _ => p.namedEntity?.toList
  | .objectPropertyRange p _ => p.namedEntity?.toList
  | .functionalObjectProperty p => p.namedEntity?.toList
  | .inverseFunctionalObjectProperty p => p.namedEntity?.toList
  | .reflexiveObjectProperty p => p.namedEntity?.toList
  | .irreflexiveObjectProperty p => p.namedEntity?.toList
  | .symmetricObjectProperty p => p.namedEntity?.toList
  | .asymmetricObjectProperty p => p.namedEntity?.toList
  | .transitiveObjectProperty p => p.namedEntity?.toList
  | .subDataPropertyOf sub _ => [.dataProperty sub]
  | .equivalentDataProperties ops => ops.toList.map .dataProperty
  | .disjointDataProperties ops => ops.toList.map .dataProperty
  | .dataPropertyDomain p _ => [.dataProperty p]
  | .dataPropertyRange p _ => [.dataProperty p]
  | .functionalDataProperty p => [.dataProperty p]
  | .classAssertion _ i => i.namedEntity?.toList
  | .sameIndividual ops => ops.toList.filterMap Individual.namedEntity?
  | .differentIndividuals ops => ops.toList.filterMap Individual.namedEntity?
  | _ => []

/-- The signature of a part, if the other part of the axiom is named. -/
def signatureIf [HasEntities α] (other : Option Entity) (part : α) : SortedSet Entity :=
  if other.isSome then signature part else ∅

/-- The named entities that an axiom leads to. -/
def rightSide : AxiomKind → SortedSet Entity
  | .subClassOf sub sup => signatureIf sub.namedEntity? sup
  | .equivalentClasses ops => signature ops
  | .disjointClasses ops => signature ops
  | .subObjectPropertyOf sub sup => signatureIf sub.namedEntity? sup
  | .equivalentObjectProperties ops => signature ops
  | .disjointObjectProperties ops => signature ops
  | .inverseObjectProperties first second => signature [first, second]
  | .objectPropertyDomain p c => signatureIf p.namedEntity? c
  | .objectPropertyRange p c => signatureIf p.namedEntity? c
  | .subDataPropertyOf _ sup => .ofList [.dataProperty sup]
  | .equivalentDataProperties ops => .ofList (ops.toList.map .dataProperty)
  | .disjointDataProperties ops => .ofList (ops.toList.map .dataProperty)
  | .dataPropertyDomain _ c => signature c
  | .dataPropertyRange _ r => signature r
  | .classAssertion c i => signatureIf i.namedEntity? c
  | .sameIndividual ops => .ofList (ops.toList.filterMap Individual.namedEntity?)
  | .differentIndividuals ops => .ofList (ops.toList.filterMap Individual.namedEntity?)
  | .dataPropertyAssertion _ s _ => signature s
  | .hasKey c _ _ => .ofList c.namedEntity?.toList
  | _ => ∅

end OwlStructure.AxiomKind
