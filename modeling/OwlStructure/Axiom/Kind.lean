import OwlStructure.Expression.ClassExpression

/-!
What an axiom says: one alternative for each axiom type, with its operands. Operands without an
order are sets; a property chain keeps its order.
-/
namespace OwlStructure

inductive AxiomKind where
  | declaration (entity : Entity)
  | subClassOf (sub sup : ClassExpression)
  | equivalentClasses (operands : SortedSet ClassExpression)
  | disjointClasses (operands : SortedSet ClassExpression)
  | disjointUnion (whole : Class) (operands : SortedSet ClassExpression)
  | subObjectPropertyOf (sub sup : ObjectPropertyExpression)
  | subPropertyChainOf (chain : List ObjectPropertyExpression) (sup : ObjectPropertyExpression)
  | equivalentObjectProperties (operands : SortedSet ObjectPropertyExpression)
  | disjointObjectProperties (operands : SortedSet ObjectPropertyExpression)
  | inverseObjectProperties (first second : ObjectPropertyExpression)
  | objectPropertyDomain (property : ObjectPropertyExpression) (domain : ClassExpression)
  | objectPropertyRange (property : ObjectPropertyExpression) (range : ClassExpression)
  | functionalObjectProperty (property : ObjectPropertyExpression)
  | inverseFunctionalObjectProperty (property : ObjectPropertyExpression)
  | reflexiveObjectProperty (property : ObjectPropertyExpression)
  | irreflexiveObjectProperty (property : ObjectPropertyExpression)
  | symmetricObjectProperty (property : ObjectPropertyExpression)
  | asymmetricObjectProperty (property : ObjectPropertyExpression)
  | transitiveObjectProperty (property : ObjectPropertyExpression)
  | subDataPropertyOf (sub sup : DataProperty)
  | equivalentDataProperties (operands : SortedSet DataProperty)
  | disjointDataProperties (operands : SortedSet DataProperty)
  | dataPropertyDomain (property : DataProperty) (domain : ClassExpression)
  | dataPropertyRange (property : DataProperty) (range : DataRange)
  | functionalDataProperty (property : DataProperty)
  | classAssertion (type : ClassExpression) (individual : Individual)
  | objectPropertyAssertion (property : ObjectPropertyExpression) (subject object : Individual)
  | negativeObjectPropertyAssertion (property : ObjectPropertyExpression)
      (subject object : Individual)
  | dataPropertyAssertion (property : DataProperty) (subject : Individual) (value : Literal)
  | sameIndividual (operands : SortedSet Individual)
  | differentIndividuals (operands : SortedSet Individual)
  | hasKey (keyed : ClassExpression) (objectProperties : SortedSet ObjectPropertyExpression)
      (dataProperties : SortedSet DataProperty)
  | annotationAssertion (property : AnnotationProperty) (subject : Iri) (value : Literal)

namespace AxiomKind

def type : AxiomKind → AxiomType
  | .declaration _ => .declaration
  | .subClassOf .. => .subClassOf
  | .equivalentClasses _ => .equivalentClasses
  | .disjointClasses _ => .disjointClasses
  | .disjointUnion .. => .disjointUnion
  | .subObjectPropertyOf .. => .subObjectPropertyOf
  | .subPropertyChainOf .. => .subPropertyChainOf
  | .equivalentObjectProperties _ => .equivalentObjectProperties
  | .disjointObjectProperties _ => .disjointObjectProperties
  | .inverseObjectProperties .. => .inverseObjectProperties
  | .objectPropertyDomain .. => .objectPropertyDomain
  | .objectPropertyRange .. => .objectPropertyRange
  | .functionalObjectProperty _ => .functionalObjectProperty
  | .inverseFunctionalObjectProperty _ => .inverseFunctionalObjectProperty
  | .reflexiveObjectProperty _ => .reflexiveObjectProperty
  | .irreflexiveObjectProperty _ => .irreflexiveObjectProperty
  | .symmetricObjectProperty _ => .symmetricObjectProperty
  | .asymmetricObjectProperty _ => .asymmetricObjectProperty
  | .transitiveObjectProperty _ => .transitiveObjectProperty
  | .subDataPropertyOf .. => .subDataPropertyOf
  | .equivalentDataProperties _ => .equivalentDataProperties
  | .disjointDataProperties _ => .disjointDataProperties
  | .dataPropertyDomain .. => .dataPropertyDomain
  | .dataPropertyRange .. => .dataPropertyRange
  | .functionalDataProperty _ => .functionalDataProperty
  | .classAssertion .. => .classAssertion
  | .objectPropertyAssertion .. => .objectPropertyAssertion
  | .negativeObjectPropertyAssertion .. => .negativeObjectPropertyAssertion
  | .dataPropertyAssertion .. => .dataPropertyAssertion
  | .sameIndividual _ => .sameIndividual
  | .differentIndividuals _ => .differentIndividuals
  | .hasKey .. => .hasKey
  | .annotationAssertion .. => .annotationAssertion

/-- An axiom over a set of operands needs one, and a property chain needs a member. A key may be
made of no properties at all. -/
def fault? (k : AxiomKind) : Option ModelError :=
  let needs (isEmpty : Bool) : Option ModelError :=
    if isEmpty then some (.noOperands k.type) else none
  match k with
  | .equivalentClasses ops => needs ops.isEmpty
  | .disjointClasses ops => needs ops.isEmpty
  | .disjointUnion _ ops => needs ops.isEmpty
  | .equivalentObjectProperties ops => needs ops.isEmpty
  | .disjointObjectProperties ops => needs ops.isEmpty
  | .equivalentDataProperties ops => needs ops.isEmpty
  | .disjointDataProperties ops => needs ops.isEmpty
  | .sameIndividual ops => needs ops.isEmpty
  | .differentIndividuals ops => needs ops.isEmpty
  | .subPropertyChainOf chain _ => if chain.isEmpty then some .emptyChain else none
  | _ => none

/-- The arguments of the functional form. -/
def arguments : AxiomKind → List String
  | .declaration e => [e.render]
  | .subClassOf sub sup => [sub.render, sup.render]
  | .equivalentClasses ops => ops.toList.map ClassExpression.render
  | .disjointClasses ops => ops.toList.map ClassExpression.render
  | .disjointUnion c ops => c.iri.render :: ops.toList.map ClassExpression.render
  | .subObjectPropertyOf sub sup => [sub.render, sup.render]
  | .subPropertyChainOf chain sup =>
    [renderForm "ObjectPropertyChain" (chain.map ObjectPropertyExpression.render), sup.render]
  | .equivalentObjectProperties ops => ops.toList.map ObjectPropertyExpression.render
  | .disjointObjectProperties ops => ops.toList.map ObjectPropertyExpression.render
  | .inverseObjectProperties first second => [first.render, second.render]
  | .objectPropertyDomain p c => [p.render, c.render]
  | .objectPropertyRange p c => [p.render, c.render]
  | .functionalObjectProperty p => [p.render]
  | .inverseFunctionalObjectProperty p => [p.render]
  | .reflexiveObjectProperty p => [p.render]
  | .irreflexiveObjectProperty p => [p.render]
  | .symmetricObjectProperty p => [p.render]
  | .asymmetricObjectProperty p => [p.render]
  | .transitiveObjectProperty p => [p.render]
  | .subDataPropertyOf sub sup => [sub.iri.render, sup.iri.render]
  | .equivalentDataProperties ops => ops.toList.map fun p => p.iri.render
  | .disjointDataProperties ops => ops.toList.map fun p => p.iri.render
  | .dataPropertyDomain p c => [p.iri.render, c.render]
  | .dataPropertyRange p r => [p.iri.render, r.render]
  | .functionalDataProperty p => [p.iri.render]
  | .classAssertion c i => [c.render, i.render]
  | .objectPropertyAssertion p s o => [p.render, s.render, o.render]
  | .negativeObjectPropertyAssertion p s o => [p.render, s.render, o.render]
  | .dataPropertyAssertion p s v => [p.iri.render, s.render, v.render]
  | .sameIndividual ops => ops.toList.map Individual.render
  | .differentIndividuals ops => ops.toList.map Individual.render
  | .hasKey c ps ds =>
    [c.render, renderForm "" (ps.toList.map ObjectPropertyExpression.render),
      renderForm "" (ds.toList.map fun d => d.iri.render)]
  | .annotationAssertion p s v => [p.iri.render, s.render, v.render]

/-- The entities at each place, from left to right. The subject of an annotation is an IRI and not
an entity. -/
def entities : AxiomKind → List Entity
  | .declaration e => [e]
  | .subClassOf sub sup => sub.entities ++ sup.entities
  | .equivalentClasses ops => ops.toList.flatMap ClassExpression.entities
  | .disjointClasses ops => ops.toList.flatMap ClassExpression.entities
  | .disjointUnion c ops => .namedClass c :: ops.toList.flatMap ClassExpression.entities
  | .subObjectPropertyOf sub sup => [sub.entity, sup.entity]
  | .subPropertyChainOf chain sup => chain.map ObjectPropertyExpression.entity ++ [sup.entity]
  | .equivalentObjectProperties ops => ops.toList.map ObjectPropertyExpression.entity
  | .disjointObjectProperties ops => ops.toList.map ObjectPropertyExpression.entity
  | .inverseObjectProperties first second => [first.entity, second.entity]
  | .objectPropertyDomain p c => p.entity :: c.entities
  | .objectPropertyRange p c => p.entity :: c.entities
  | .functionalObjectProperty p => [p.entity]
  | .inverseFunctionalObjectProperty p => [p.entity]
  | .reflexiveObjectProperty p => [p.entity]
  | .irreflexiveObjectProperty p => [p.entity]
  | .symmetricObjectProperty p => [p.entity]
  | .asymmetricObjectProperty p => [p.entity]
  | .transitiveObjectProperty p => [p.entity]
  | .subDataPropertyOf sub sup => [.dataProperty sub, .dataProperty sup]
  | .equivalentDataProperties ops => ops.toList.map .dataProperty
  | .disjointDataProperties ops => ops.toList.map .dataProperty
  | .dataPropertyDomain p c => .dataProperty p :: c.entities
  | .dataPropertyRange p r => .dataProperty p :: r.entities
  | .functionalDataProperty p => [.dataProperty p]
  | .classAssertion c i => c.entities ++ [i.entity]
  | .objectPropertyAssertion p s o => [p.entity, s.entity, o.entity]
  | .negativeObjectPropertyAssertion p s o => [p.entity, s.entity, o.entity]
  | .dataPropertyAssertion p s v => [.dataProperty p, s.entity, v.entity]
  | .sameIndividual ops => ops.toList.map Individual.entity
  | .differentIndividuals ops => ops.toList.map Individual.entity
  | .hasKey c ps ds =>
    c.entities ++ ps.toList.map ObjectPropertyExpression.entity ++ ds.toList.map .dataProperty
  | .annotationAssertion p _ v => [.annotationProperty p, v.entity]

/-- The anonymous individuals of an axiom, from left to right. No property, literal or range has
one. -/
def unnamed : AxiomKind → List AnonymousIndividual
  | .declaration e => e.asAnonymous?.toList
  | .subClassOf sub sup => sub.unnamed ++ sup.unnamed
  | .equivalentClasses ops => ops.toList.flatMap ClassExpression.unnamed
  | .disjointClasses ops => ops.toList.flatMap ClassExpression.unnamed
  | .disjointUnion _ ops => ops.toList.flatMap ClassExpression.unnamed
  | .objectPropertyDomain _ c => c.unnamed
  | .objectPropertyRange _ c => c.unnamed
  | .dataPropertyDomain _ c => c.unnamed
  | .hasKey c _ _ => c.unnamed
  | .classAssertion c i => c.unnamed ++ i.asAnonymous?.toList
  | .objectPropertyAssertion _ s o => s.asAnonymous?.toList ++ o.asAnonymous?.toList
  | .negativeObjectPropertyAssertion _ s o => s.asAnonymous?.toList ++ o.asAnonymous?.toList
  | .dataPropertyAssertion _ s _ => s.asAnonymous?.toList
  | .sameIndividual ops => ops.toList.filterMap Individual.asAnonymous?
  | .differentIndividuals ops => ops.toList.filterMap Individual.asAnonymous?
  | _ => []

/-- What is passed over has no anonymous individual: nothing is missed. -/
theorem unnamed_eq (k : AxiomKind) : k.unnamed = k.entities.filterMap Entity.asAnonymous? := by
  have hclasses (ops : SortedSet ClassExpression) :
      ops.toList.flatMap ClassExpression.unnamed =
        (ops.toList.flatMap ClassExpression.entities).filterMap Entity.asAnonymous? := by
    rw [List.filterMap_flatMap, funext ClassExpression.unnamed_eq]
  have hindividuals (ops : SortedSet Individual) :
      ops.toList.filterMap Individual.asAnonymous? =
        (ops.toList.map Individual.entity).filterMap Entity.asAnonymous? := by
    simp only [List.filterMap_map, Function.comp_def, Individual.asAnonymous?_entity]
  have hproperties (ps : List ObjectPropertyExpression) :
      (ps.map ObjectPropertyExpression.entity).filterMap Entity.asAnonymous? = [] := by
    simp [ObjectPropertyExpression.entity, Entity.asAnonymous?]
  have hdata (ps : List DataProperty) :
      (ps.map Entity.dataProperty).filterMap Entity.asAnonymous? = [] := by
    simp [Entity.asAnonymous?]
  cases k
  case declaration e => cases e <;> rfl
  case subClassOf sub sup =>
    rw [unnamed, entities, List.filterMap_append, sub.unnamed_eq, sup.unnamed_eq]
  case equivalentClasses ops | disjointClasses ops | disjointUnion _ ops => exact hclasses ops
  case subPropertyChainOf chain sup =>
    rw [entities, List.filterMap_append, hproperties]
    rfl
  case equivalentObjectProperties ops | disjointObjectProperties ops =>
    exact (hproperties ops.toList).symm
  case objectPropertyDomain _ c | objectPropertyRange _ c | dataPropertyDomain _ c =>
    exact c.unnamed_eq
  case equivalentDataProperties ops | disjointDataProperties ops => exact (hdata ops.toList).symm
  case dataPropertyRange _ r => exact r.no_anonymous.symm
  case classAssertion c i =>
    rw [unnamed, entities, List.filterMap_append, c.unnamed_eq]
    cases i <;> rfl
  case objectPropertyAssertion _ s o | negativeObjectPropertyAssertion _ s o =>
    cases s <;> cases o <;> rfl
  case dataPropertyAssertion _ s _ => cases s <;> rfl
  case sameIndividual ops | differentIndividuals ops => exact hindividuals ops
  case hasKey c ps ds =>
    rw [entities, List.filterMap_append, List.filterMap_append, hproperties, hdata,
      List.append_nil, List.append_nil]
    exact c.unnamed_eq
  all_goals rfl

/-- The entities that an axiom is about: the named subclass, every named operand, the property of a
characteristic, domain or range, the subject of an assertion. Nothing is defined by a declaration,
a property chain or an annotation. -/
def defining : AxiomKind → List Entity
  | .declaration _ => []
  | .subClassOf sub _ => sub.namedEntity?.toList
  | .equivalentClasses ops => ops.toList.filterMap ClassExpression.namedEntity?
  | .disjointClasses ops => ops.toList.filterMap ClassExpression.namedEntity?
  | .disjointUnion c _ => [.namedClass c]
  | .subObjectPropertyOf sub _ => [sub.entity]
  | .subPropertyChainOf .. => []
  | .equivalentObjectProperties ops => ops.toList.map ObjectPropertyExpression.entity
  | .disjointObjectProperties ops => ops.toList.map ObjectPropertyExpression.entity
  | .inverseObjectProperties first second =>
    if first.entity = second.entity then [first.entity] else [first.entity, second.entity]
  | .objectPropertyDomain p _ => [p.entity]
  | .objectPropertyRange p _ => [p.entity]
  | .functionalObjectProperty p => [p.entity]
  | .inverseFunctionalObjectProperty p => [p.entity]
  | .reflexiveObjectProperty p => [p.entity]
  | .irreflexiveObjectProperty p => [p.entity]
  | .symmetricObjectProperty p => [p.entity]
  | .asymmetricObjectProperty p => [p.entity]
  | .transitiveObjectProperty p => [p.entity]
  | .subDataPropertyOf sub _ => [.dataProperty sub]
  | .equivalentDataProperties ops => ops.toList.map .dataProperty
  | .disjointDataProperties ops => ops.toList.map .dataProperty
  | .dataPropertyDomain p _ => [.dataProperty p]
  | .dataPropertyRange p _ => [.dataProperty p]
  | .functionalDataProperty p => [.dataProperty p]
  | .classAssertion _ i => [i.entity]
  | .objectPropertyAssertion _ s _ => [s.entity]
  | .negativeObjectPropertyAssertion _ s _ => [s.entity]
  | .dataPropertyAssertion _ s _ => [s.entity]
  | .sameIndividual ops => ops.toList.map Individual.entity
  | .differentIndividuals ops => ops.toList.map Individual.entity
  | .hasKey c _ _ => c.namedEntity?.toList
  | .annotationAssertion .. => []

/-! ### Order -/

open Keyed (key)

/-- The parts in order; kinds of one type compare by them. -/
def partsKey : AxiomKind → List KeySymbol
  | .declaration e => key e
  | .subClassOf sub sup => key sub ++ key sup
  | .equivalentClasses ops => key ops
  | .disjointClasses ops => key ops
  | .disjointUnion c ops => key c ++ key ops
  | .subObjectPropertyOf sub sup => key sub ++ key sup
  | .subPropertyChainOf chain sup => Keyed.listKey chain ++ key sup
  | .equivalentObjectProperties ops => key ops
  | .disjointObjectProperties ops => key ops
  | .inverseObjectProperties first second => key first ++ key second
  | .objectPropertyDomain p c => key p ++ key c
  | .objectPropertyRange p c => key p ++ key c
  | .functionalObjectProperty p => key p
  | .inverseFunctionalObjectProperty p => key p
  | .reflexiveObjectProperty p => key p
  | .irreflexiveObjectProperty p => key p
  | .symmetricObjectProperty p => key p
  | .asymmetricObjectProperty p => key p
  | .transitiveObjectProperty p => key p
  | .subDataPropertyOf sub sup => key sub ++ key sup
  | .equivalentDataProperties ops => key ops
  | .disjointDataProperties ops => key ops
  | .dataPropertyDomain p c => key p ++ key c
  | .dataPropertyRange p r => key p ++ key r
  | .functionalDataProperty p => key p
  | .classAssertion c i => key c ++ key i
  | .objectPropertyAssertion p s o => key p ++ (key s ++ key o)
  | .negativeObjectPropertyAssertion p s o => key p ++ (key s ++ key o)
  | .dataPropertyAssertion p s v => key p ++ (key s ++ key v)
  | .sameIndividual ops => key ops
  | .differentIndividuals ops => key ops
  | .hasKey c ps ds => key c ++ (key ps ++ key ds)
  | .annotationAssertion p s v => key p ++ (key s ++ key v)

theorem partsKey_split {a b : AxiomKind} {r s : List KeySymbol} (ht : a.type = b.type)
    (h : a.partsKey ++ r = b.partsKey ++ s) : a = b ∧ r = s := by
  cases a <;> cases b <;> simp only [type, reduceCtorEq] at ht <;>
    simp only [partsKey, List.append_assoc] at h
  case subClassOf | disjointUnion | subObjectPropertyOf | inverseObjectProperties |
      objectPropertyDomain | objectPropertyRange | subDataPropertyOf | dataPropertyDomain |
      dataPropertyRange | classAssertion =>
    obtain ⟨rfl, h₁⟩ := Keyed.split h
    obtain ⟨rfl, h₂⟩ := Keyed.split h₁
    exact ⟨rfl, h₂⟩
  case subPropertyChainOf =>
    obtain ⟨rfl, h₁⟩ := Keyed.listKey_split h
    obtain ⟨rfl, h₂⟩ := Keyed.split h₁
    exact ⟨rfl, h₂⟩
  case objectPropertyAssertion | negativeObjectPropertyAssertion | dataPropertyAssertion | hasKey |
      annotationAssertion =>
    obtain ⟨rfl, h₁⟩ := Keyed.split h
    obtain ⟨rfl, h₂⟩ := Keyed.split h₁
    obtain ⟨rfl, h₃⟩ := Keyed.split h₂
    exact ⟨rfl, h₃⟩
  all_goals
    obtain ⟨rfl, h₁⟩ := Keyed.split h
    exact ⟨rfl, h₁⟩

/-- Kinds compare by type first. -/
instance : Keyed AxiomKind where
  key k := key k.type ++ k.partsKey
  starts k := ⟨_, _, rfl, by simp⟩
  split h := by
    simp only [List.append_assoc] at h
    obtain ⟨ht, h⟩ := Keyed.split h
    exact partsKey_split ht h

instance : DecidableEq AxiomKind := Keyed.decEq

end AxiomKind

end OwlStructure
