import OwlStructure.Axiom.Basic
import OwlStructure.Proofs.Collections.SortedSet

/-!
Renaming. A renaming gives every entity a name of its kind; applied to an object it changes the name
at every place that an entity stands in, and nothing else. Places are found by walking through the
object and not through its list of entities. Operands that get one name become one operand.
-/
namespace OwlStructure

/-- New names for the entities of each kind. -/
abbrev Renaming := EntityKind → String → String

/-- The renaming that puts one entity in place of another of its kind. -/
def Renaming.replacing (e e' : Entity) : Renaming := fun k n =>
  if k = e.kind ∧ n = e.name then e'.name else n

/-! ### Entities -/

def Entity.renamed (ρ : Renaming) (e : Entity) : Entity := ofKind e.kind (ρ e.kind e.name)

def Class.renamed (ρ : Renaming) (c : Class) : Class := ⟨⟨ρ .namedClass c.iri.text⟩⟩

def ObjectProperty.renamed (ρ : Renaming) (p : ObjectProperty) : ObjectProperty :=
  ⟨⟨ρ .objectProperty p.iri.text⟩⟩

def DataProperty.renamed (ρ : Renaming) (p : DataProperty) : DataProperty :=
  ⟨⟨ρ .dataProperty p.iri.text⟩⟩

def AnnotationProperty.renamed (ρ : Renaming) (p : AnnotationProperty) : AnnotationProperty :=
  ⟨⟨ρ .annotationProperty p.iri.text⟩⟩

def Datatype.renamed (ρ : Renaming) (d : Datatype) : Datatype := ⟨⟨ρ .datatype d.iri.text⟩⟩

/-! ### Expressions -/

def ObjectPropertyExpression.renamed (ρ : Renaming) :
    ObjectPropertyExpression → ObjectPropertyExpression
  | .named p => .named (p.renamed ρ)
  | .inverse e => .inverse (e.renamed ρ)

def Individual.renamed (ρ : Renaming) : Individual → Individual
  | .named i => .named ⟨⟨ρ .namedIndividual i.iri.text⟩⟩
  | .anonymous a => .anonymous ⟨ρ .anonymousIndividual a.id⟩

/-- The lexical form and the language tag name no entity. -/
def Literal.renamed (ρ : Renaming) (l : Literal) : Literal :=
  { l with datatype := l.datatype.renamed ρ }

def DataRange.renamed (ρ : Renaming) : DataRange → DataRange
  | .datatype d => .datatype (d.renamed ρ)
  | .oneOf values => .oneOf (values.map (Literal.renamed ρ))

namespace ClassTerm

mutual

def renamed (ρ : Renaming) : ClassTerm → ClassTerm
  | .named c => .named (c.renamed ρ)
  | .intersection ops => .intersection (renamedOperands ρ ops)
  | .union ops => .union (renamedOperands ρ ops)
  | .complement c => .complement (renamed ρ c)
  | .oneOf is => .oneOf (is.map (Individual.renamed ρ))
  | .someValues p c => .someValues (p.renamed ρ) (renamed ρ c)
  | .allValues p c => .allValues (p.renamed ρ) (renamed ρ c)
  | .hasValue p i => .hasValue (p.renamed ρ) (i.renamed ρ)
  | .minCardinality n p c => .minCardinality n (p.renamed ρ) (renamed ρ c)
  | .exactCardinality n p c => .exactCardinality n (p.renamed ρ) (renamed ρ c)
  | .maxCardinality n p c => .maxCardinality n (p.renamed ρ) (renamed ρ c)
  | .hasSelf p => .hasSelf (p.renamed ρ)
  | .dataSomeValues p r => .dataSomeValues (p.renamed ρ) (r.renamed ρ)
  | .dataAllValues p r => .dataAllValues (p.renamed ρ) (r.renamed ρ)
  | .dataHasValue p v => .dataHasValue (p.renamed ρ) (v.renamed ρ)

def renamedOperands (ρ : Renaming) : List ClassTerm → List ClassTerm
  | [] => []
  | c :: rest => renamed ρ c :: renamedOperands ρ rest

end

end ClassTerm

/-- Renamed operands may come in another order, or fall together. -/
def ClassExpression.renamed (ρ : Renaming) (c : ClassExpression) : ClassExpression :=
  ofTerm (c.term.renamed ρ)

/-! ### Axioms -/

namespace AxiomKind

/-- The subject of an annotation is an IRI and keeps its name. -/
def renamed (ρ : Renaming) : AxiomKind → AxiomKind
  | .declaration e => .declaration (e.renamed ρ)
  | .subClassOf sub sup => .subClassOf (sub.renamed ρ) (sup.renamed ρ)
  | .equivalentClasses ops => .equivalentClasses (ops.map (ClassExpression.renamed ρ))
  | .disjointClasses ops => .disjointClasses (ops.map (ClassExpression.renamed ρ))
  | .disjointUnion c ops => .disjointUnion (c.renamed ρ) (ops.map (ClassExpression.renamed ρ))
  | .subObjectPropertyOf sub sup => .subObjectPropertyOf (sub.renamed ρ) (sup.renamed ρ)
  | .subPropertyChainOf chain sup =>
    .subPropertyChainOf (chain.map (ObjectPropertyExpression.renamed ρ)) (sup.renamed ρ)
  | .equivalentObjectProperties ops =>
    .equivalentObjectProperties (ops.map (ObjectPropertyExpression.renamed ρ))
  | .disjointObjectProperties ops =>
    .disjointObjectProperties (ops.map (ObjectPropertyExpression.renamed ρ))
  | .inverseObjectProperties first second =>
    .inverseObjectProperties (first.renamed ρ) (second.renamed ρ)
  | .objectPropertyDomain p c => .objectPropertyDomain (p.renamed ρ) (c.renamed ρ)
  | .objectPropertyRange p c => .objectPropertyRange (p.renamed ρ) (c.renamed ρ)
  | .functionalObjectProperty p => .functionalObjectProperty (p.renamed ρ)
  | .inverseFunctionalObjectProperty p => .inverseFunctionalObjectProperty (p.renamed ρ)
  | .reflexiveObjectProperty p => .reflexiveObjectProperty (p.renamed ρ)
  | .irreflexiveObjectProperty p => .irreflexiveObjectProperty (p.renamed ρ)
  | .symmetricObjectProperty p => .symmetricObjectProperty (p.renamed ρ)
  | .asymmetricObjectProperty p => .asymmetricObjectProperty (p.renamed ρ)
  | .transitiveObjectProperty p => .transitiveObjectProperty (p.renamed ρ)
  | .subDataPropertyOf sub sup => .subDataPropertyOf (sub.renamed ρ) (sup.renamed ρ)
  | .equivalentDataProperties ops => .equivalentDataProperties (ops.map (DataProperty.renamed ρ))
  | .disjointDataProperties ops => .disjointDataProperties (ops.map (DataProperty.renamed ρ))
  | .dataPropertyDomain p c => .dataPropertyDomain (p.renamed ρ) (c.renamed ρ)
  | .dataPropertyRange p r => .dataPropertyRange (p.renamed ρ) (r.renamed ρ)
  | .functionalDataProperty p => .functionalDataProperty (p.renamed ρ)
  | .classAssertion c i => .classAssertion (c.renamed ρ) (i.renamed ρ)
  | .objectPropertyAssertion p s o =>
    .objectPropertyAssertion (p.renamed ρ) (s.renamed ρ) (o.renamed ρ)
  | .negativeObjectPropertyAssertion p s o =>
    .negativeObjectPropertyAssertion (p.renamed ρ) (s.renamed ρ) (o.renamed ρ)
  | .dataPropertyAssertion p s v =>
    .dataPropertyAssertion (p.renamed ρ) (s.renamed ρ) (v.renamed ρ)
  | .sameIndividual ops => .sameIndividual (ops.map (Individual.renamed ρ))
  | .differentIndividuals ops => .differentIndividuals (ops.map (Individual.renamed ρ))
  | .hasKey c ps ds =>
    .hasKey (c.renamed ρ) (ps.map (ObjectPropertyExpression.renamed ρ))
      (ds.map (DataProperty.renamed ρ))
  | .annotationAssertion p s v => .annotationAssertion (p.renamed ρ) s (v.renamed ρ)

/-- Operands may fall together but never vanish, so the axiom keeps those that it needs. -/
theorem fault?_renamed (ρ : Renaming) (k : AxiomKind) : (k.renamed ρ).fault? = k.fault? := by
  cases k <;> simp [fault?, renamed, type, SortedSet.isEmpty_map]

end AxiomKind

def Axiom.renamed (ρ : Renaming) (a : Axiom) : Axiom :=
  ⟨a.kind.renamed ρ, (a.kind.fault?_renamed ρ).trans a.valid⟩

end OwlStructure
