import OwlStructure.Axiom.Basic
import OwlStructure.Outline

/-!
Outlines of axioms and of their parts.
-/
namespace OwlStructure

def Iri.outline (i : Iri) : Outline := .call "Iri" [.quoted i.text]

def Class.outline (c : Class) : Outline := .call "Class" [c.iri.outline]

def ObjectProperty.outline (p : ObjectProperty) : Outline := .call "ObjectProperty" [p.iri.outline]

def DataProperty.outline (p : DataProperty) : Outline := .call "DataProperty" [p.iri.outline]

def AnnotationProperty.outline (p : AnnotationProperty) : Outline :=
  .call "AnnotationProperty" [p.iri.outline]

def NamedIndividual.outline (i : NamedIndividual) : Outline :=
  .call "NamedIndividual" [i.iri.outline]

def Datatype.outline (d : Datatype) : Outline := .call "Datatype" [d.iri.outline]

def AnonymousIndividual.outline (a : AnonymousIndividual) : Outline :=
  .call "AnonymousIndividual" [.quoted a.id]

def Entity.outline (e : Entity) : Outline :=
  .call e.kind.name [
    match e with
    | .namedClass c => c.outline
    | .objectProperty p => p.outline
    | .dataProperty p => p.outline
    | .namedIndividual i => i.outline
    | .annotationProperty p => p.outline
    | .anonymousIndividual a => a.outline
    | .datatype d => d.outline]

def Individual.outline : Individual → Outline
  | .named i => .call "Named" [i.outline]
  | .anonymous a => .call "Anonymous" [a.outline]

def ObjectPropertyExpression.outline : ObjectPropertyExpression → Outline
  | .named p => .call "Named" [p.outline]
  | .inverse e => .call "Inverse" [e.outline]

def Literal.outline (l : Literal) : Outline :=
  .record "Literal" [
    ("lexical", .quoted l.lexical),
    ("datatype", l.datatype.outline),
    ("lang", match l.lang with
      | none => .word "None"
      | some t => .call "Some" [.quoted t])]

def DataRange.outline : DataRange → Outline
  | .datatype d => .call "Datatype" [d.outline]
  | .oneOf values => .call "OneOf" [.set (values.toList.map Literal.outline)]

namespace ClassTerm

mutual

def outline : ClassTerm → Outline
  | .named c => .call "Class" [c.outline]
  | .intersection ops => .call "ObjectIntersectionOf" [.set (outlineOperands ops)]
  | .union ops => .call "ObjectUnionOf" [.set (outlineOperands ops)]
  | .complement c => .call "ObjectComplementOf" [outline c]
  | .oneOf is => .call "ObjectOneOf" [.set (is.toList.map Individual.outline)]
  | .someValues p c =>
    .record "ObjectSomeValuesFrom" [("property", p.outline), ("filler", outline c)]
  | .allValues p c =>
    .record "ObjectAllValuesFrom" [("property", p.outline), ("filler", outline c)]
  | .hasValue p i => .record "ObjectHasValue" [("property", p.outline), ("individual", i.outline)]
  | .minCardinality n p c =>
    .record "ObjectMinCardinality" [
      ("cardinality", .nat n.toNat), ("property", p.outline), ("filler", outline c)]
  | .exactCardinality n p c =>
    .record "ObjectExactCardinality" [
      ("cardinality", .nat n.toNat), ("property", p.outline), ("filler", outline c)]
  | .maxCardinality n p c =>
    .record "ObjectMaxCardinality" [
      ("cardinality", .nat n.toNat), ("property", p.outline), ("filler", outline c)]
  | .hasSelf p => .call "ObjectHasSelf" [p.outline]
  | .dataSomeValues p r =>
    .record "DataSomeValuesFrom" [("property", p.outline), ("range", r.outline)]
  | .dataAllValues p r =>
    .record "DataAllValuesFrom" [("property", p.outline), ("range", r.outline)]
  | .dataHasValue p v => .record "DataHasValue" [("property", p.outline), ("value", v.outline)]

def outlineOperands : List ClassTerm → List Outline
  | [] => []
  | c :: rest => outline c :: outlineOperands rest

end

end ClassTerm

def ClassExpression.outline (c : ClassExpression) : Outline := c.term.outline

/-- The outline of a set shows its members in order. -/
def SortedSet.outline [Keyed α] (f : α → Outline) (s : SortedSet α) : Outline :=
  .set (s.toList.map f)

namespace AxiomKind

def outline (k : AxiomKind) : Outline :=
  let call (argument : Outline) : Outline := .call k.type.name [argument]
  let record (fields : List (String × Outline)) : Outline := .record k.type.name fields
  match k with
  | .declaration e => call e.outline
  | .subClassOf sub sup => record [("sub", sub.outline), ("sup", sup.outline)]
  | .equivalentClasses ops => call (ops.outline ClassExpression.outline)
  | .disjointClasses ops => call (ops.outline ClassExpression.outline)
  | .disjointUnion c ops =>
    record [("class", c.outline), ("operands", ops.outline ClassExpression.outline)]
  | .subObjectPropertyOf sub sup => record [("sub", sub.outline), ("sup", sup.outline)]
  | .subPropertyChainOf chain sup =>
    record [("chain", .list (chain.map ObjectPropertyExpression.outline)), ("sup", sup.outline)]
  | .equivalentObjectProperties ops => call (ops.outline ObjectPropertyExpression.outline)
  | .disjointObjectProperties ops => call (ops.outline ObjectPropertyExpression.outline)
  | .inverseObjectProperties first second =>
    record [("first", first.outline), ("second", second.outline)]
  | .objectPropertyDomain p c => record [("property", p.outline), ("domain", c.outline)]
  | .objectPropertyRange p c => record [("property", p.outline), ("range", c.outline)]
  | .functionalObjectProperty p => call p.outline
  | .inverseFunctionalObjectProperty p => call p.outline
  | .reflexiveObjectProperty p => call p.outline
  | .irreflexiveObjectProperty p => call p.outline
  | .symmetricObjectProperty p => call p.outline
  | .asymmetricObjectProperty p => call p.outline
  | .transitiveObjectProperty p => call p.outline
  | .subDataPropertyOf sub sup => record [("sub", sub.outline), ("sup", sup.outline)]
  | .equivalentDataProperties ops => call (ops.outline DataProperty.outline)
  | .disjointDataProperties ops => call (ops.outline DataProperty.outline)
  | .dataPropertyDomain p c => record [("property", p.outline), ("domain", c.outline)]
  | .dataPropertyRange p r => record [("property", p.outline), ("range", r.outline)]
  | .functionalDataProperty p => call p.outline
  | .classAssertion c i => record [("class", c.outline), ("individual", i.outline)]
  | .objectPropertyAssertion p s o =>
    record [("property", p.outline), ("subject", s.outline), ("object", o.outline)]
  | .negativeObjectPropertyAssertion p s o =>
    record [("property", p.outline), ("subject", s.outline), ("object", o.outline)]
  | .dataPropertyAssertion p s v =>
    record [("property", p.outline), ("subject", s.outline), ("value", v.outline)]
  | .sameIndividual ops => call (ops.outline Individual.outline)
  | .differentIndividuals ops => call (ops.outline Individual.outline)
  | .hasKey c ps ds =>
    record [("class", c.outline),
      ("object_properties", ps.outline ObjectPropertyExpression.outline),
      ("data_properties", ds.outline DataProperty.outline)]
  | .annotationAssertion p s v =>
    record [("property", p.outline), ("subject", s.outline), ("value", v.outline)]

end AxiomKind

def Axiom.outline (a : Axiom) : Outline := .call "Axiom" [a.kind.outline]

end OwlStructure
