import OwlStructure.Collections.SortKey

/-!
The types of axioms, in their fixed order. The position of a type in `AxiomType.all` is its
ordinal, and types compare by it.
-/
namespace OwlStructure

inductive AxiomType where
  | declaration
  | subClassOf
  | equivalentClasses
  | disjointClasses
  | disjointUnion
  | subObjectPropertyOf
  | subPropertyChainOf
  | equivalentObjectProperties
  | disjointObjectProperties
  | inverseObjectProperties
  | objectPropertyDomain
  | objectPropertyRange
  | functionalObjectProperty
  | inverseFunctionalObjectProperty
  | reflexiveObjectProperty
  | irreflexiveObjectProperty
  | symmetricObjectProperty
  | asymmetricObjectProperty
  | transitiveObjectProperty
  | subDataPropertyOf
  | equivalentDataProperties
  | disjointDataProperties
  | dataPropertyDomain
  | dataPropertyRange
  | functionalDataProperty
  | classAssertion
  | objectPropertyAssertion
  | negativeObjectPropertyAssertion
  | dataPropertyAssertion
  | sameIndividual
  | differentIndividuals
  | hasKey
  | annotationAssertion
  deriving DecidableEq, Repr

namespace AxiomType

/-- Every type, in order. -/
def all : List AxiomType :=
  [.declaration, .subClassOf, .equivalentClasses, .disjointClasses, .disjointUnion,
    .subObjectPropertyOf, .subPropertyChainOf, .equivalentObjectProperties,
    .disjointObjectProperties, .inverseObjectProperties, .objectPropertyDomain,
    .objectPropertyRange, .functionalObjectProperty, .inverseFunctionalObjectProperty,
    .reflexiveObjectProperty, .irreflexiveObjectProperty, .symmetricObjectProperty,
    .asymmetricObjectProperty, .transitiveObjectProperty, .subDataPropertyOf,
    .equivalentDataProperties, .disjointDataProperties, .dataPropertyDomain, .dataPropertyRange,
    .functionalDataProperty, .classAssertion, .objectPropertyAssertion,
    .negativeObjectPropertyAssertion, .dataPropertyAssertion, .sameIndividual,
    .differentIndividuals, .hasKey, .annotationAssertion]

theorem mem_all (t : AxiomType) : t ∈ all := by cases t <;> decide

/-- The position of a type in the order. -/
def ordinal (t : AxiomType) : Nat := all.idxOf t

theorem getElem?_ordinal (t : AxiomType) : all[t.ordinal]? = some t := by cases t <;> rfl

theorem ordinal_injective {s t : AxiomType} (h : s.ordinal = t.ordinal) : s = t := by
  have := getElem?_ordinal s
  rw [h, getElem?_ordinal t] at this
  exact (Option.some.inj this).symm

instance : Keyed AxiomType where
  key t := [.tag t.ordinal]
  starts t := ⟨_, _, rfl, by simp⟩
  split h := by
    simp only [List.cons_append, List.nil_append, List.cons.injEq, KeySymbol.tag.injEq] at h
    exact ⟨ordinal_injective h.1, h.2⟩

/-- The name in functional-style syntax. -/
def name : AxiomType → String
  | .declaration => "Declaration"
  | .subClassOf => "SubClassOf"
  | .equivalentClasses => "EquivalentClasses"
  | .disjointClasses => "DisjointClasses"
  | .disjointUnion => "DisjointUnion"
  | .subObjectPropertyOf => "SubObjectPropertyOf"
  | .subPropertyChainOf => "SubPropertyChainOf"
  | .equivalentObjectProperties => "EquivalentObjectProperties"
  | .disjointObjectProperties => "DisjointObjectProperties"
  | .inverseObjectProperties => "InverseObjectProperties"
  | .objectPropertyDomain => "ObjectPropertyDomain"
  | .objectPropertyRange => "ObjectPropertyRange"
  | .functionalObjectProperty => "FunctionalObjectProperty"
  | .inverseFunctionalObjectProperty => "InverseFunctionalObjectProperty"
  | .reflexiveObjectProperty => "ReflexiveObjectProperty"
  | .irreflexiveObjectProperty => "IrreflexiveObjectProperty"
  | .symmetricObjectProperty => "SymmetricObjectProperty"
  | .asymmetricObjectProperty => "AsymmetricObjectProperty"
  | .transitiveObjectProperty => "TransitiveObjectProperty"
  | .subDataPropertyOf => "SubDataPropertyOf"
  | .equivalentDataProperties => "EquivalentDataProperties"
  | .disjointDataProperties => "DisjointDataProperties"
  | .dataPropertyDomain => "DataPropertyDomain"
  | .dataPropertyRange => "DataPropertyRange"
  | .functionalDataProperty => "FunctionalDataProperty"
  | .classAssertion => "ClassAssertion"
  | .objectPropertyAssertion => "ObjectPropertyAssertion"
  | .negativeObjectPropertyAssertion => "NegativeObjectPropertyAssertion"
  | .dataPropertyAssertion => "DataPropertyAssertion"
  | .sameIndividual => "SameIndividual"
  | .differentIndividuals => "DifferentIndividuals"
  | .hasKey => "HasKey"
  | .annotationAssertion => "AnnotationAssertion"

/-- The type with a name. -/
def ofName? (n : String) : Option AxiomType := all.find? fun t => t.name == n

theorem ofName?_name (t : AxiomType) : ofName? t.name = some t := by cases t <;> decide

/-- The types of axioms about object properties and data properties. -/
def isPropertyAxiom : AxiomType → Bool
  | .subObjectPropertyOf | .subPropertyChainOf | .equivalentObjectProperties
  | .disjointObjectProperties | .inverseObjectProperties | .objectPropertyDomain
  | .objectPropertyRange | .functionalObjectProperty | .inverseFunctionalObjectProperty
  | .reflexiveObjectProperty | .irreflexiveObjectProperty | .symmetricObjectProperty
  | .asymmetricObjectProperty | .transitiveObjectProperty | .subDataPropertyOf
  | .equivalentDataProperties | .disjointDataProperties | .dataPropertyDomain
  | .dataPropertyRange | .functionalDataProperty => true
  | _ => false

/-- All types but declarations and annotation assertions. -/
def isLogical (t : AxiomType) : Bool := t != .declaration && t != .annotationAssertion

end AxiomType

end OwlStructure
