import OwlStructure.Axiom.Basic
import OwlStructure.Encoding.ClassExpression

/-!
Axioms in JSON. An axiom is written as its kind; a kind without the operands that it needs is no
axiom and is refused.
-/
namespace OwlStructure

open Json

namespace AxiomType

def encode (t : AxiomType) : Json := .text t.name

def decode? (limit : Nat) (j : Json) : Option AxiomType := (unitVariant? limit j).bind ofName?

end AxiomType

/-- A set is an array of its members in order. -/
def encodeSet [Keyed α] (f : α → Json) (s : SortedSet α) : Json := .arr (s.toList.map f)

/-- An array is read as the set of its items. -/
def decodeSet? [Keyed α] (read : Nat → Json → Option α) (limit : Nat) (j : Json) :
    Option (SortedSet α) :=
  (listOf? read limit j).map .ofList

namespace AxiomKind

/-- What stands under the name of the type. -/
def payload : AxiomKind → Json
  | .declaration e => e.encode
  | .subClassOf sub sup => .record [("sub", sub.encode), ("sup", sup.encode)]
  | .equivalentClasses ops => encodeSet ClassExpression.encode ops
  | .disjointClasses ops => encodeSet ClassExpression.encode ops
  | .disjointUnion c ops =>
    .record [("class", c.iri.encode), ("operands", encodeSet ClassExpression.encode ops)]
  | .subObjectPropertyOf sub sup => .record [("sub", sub.encode), ("sup", sup.encode)]
  | .subPropertyChainOf chain sup =>
    .record [("chain", .arr (chain.map ObjectPropertyExpression.encode)), ("sup", sup.encode)]
  | .equivalentObjectProperties ops => encodeSet ObjectPropertyExpression.encode ops
  | .disjointObjectProperties ops => encodeSet ObjectPropertyExpression.encode ops
  | .inverseObjectProperties first second =>
    .record [("first", first.encode), ("second", second.encode)]
  | .objectPropertyDomain p c => .record [("property", p.encode), ("domain", c.encode)]
  | .objectPropertyRange p c => .record [("property", p.encode), ("range", c.encode)]
  | .functionalObjectProperty p => p.encode
  | .inverseFunctionalObjectProperty p => p.encode
  | .reflexiveObjectProperty p => p.encode
  | .irreflexiveObjectProperty p => p.encode
  | .symmetricObjectProperty p => p.encode
  | .asymmetricObjectProperty p => p.encode
  | .transitiveObjectProperty p => p.encode
  | .subDataPropertyOf sub sup => .record [("sub", sub.encode), ("sup", sup.encode)]
  | .equivalentDataProperties ops => encodeSet DataProperty.encode ops
  | .disjointDataProperties ops => encodeSet DataProperty.encode ops
  | .dataPropertyDomain p c => .record [("property", p.encode), ("domain", c.encode)]
  | .dataPropertyRange p r => .record [("property", p.encode), ("range", r.encode)]
  | .functionalDataProperty p => p.encode
  | .classAssertion c i => .record [("class", c.encode), ("individual", i.encode)]
  | .objectPropertyAssertion p s o =>
    .record [("property", p.encode), ("subject", s.encode), ("object", o.encode)]
  | .negativeObjectPropertyAssertion p s o =>
    .record [("property", p.encode), ("subject", s.encode), ("object", o.encode)]
  | .dataPropertyAssertion p s v =>
    .record [("property", p.encode), ("subject", s.encode), ("value", v.encode)]
  | .sameIndividual ops => encodeSet Individual.encode ops
  | .differentIndividuals ops => encodeSet Individual.encode ops
  | .hasKey c ps ds =>
    .record [("class", c.encode),
      ("object_properties", encodeSet ObjectPropertyExpression.encode ps),
      ("data_properties", encodeSet DataProperty.encode ds)]
  | .annotationAssertion p s v =>
    .record [("property", p.iri.encode), ("subject", s.encode), ("value", v.encode)]

def encode (k : AxiomKind) : Json := .variant k.type.name k.payload

/-- An alternative with two fields. -/
def decodePair? (positional : Bool) (names : List String) (first : Nat → Json → Option α)
    (second : Nat → Json → Option β) (make : α → β → γ) : Nat → Json → Option γ
  | n + 1, j =>
    match j.payload? positional names with
    | some [a, b] => do some (make (← first n a) (← second n b))
    | _ => none
  | _, _ => none

/-- An alternative with three fields. -/
def decodeTriple? (positional : Bool) (names : List String) (first : Nat → Json → Option α)
    (second : Nat → Json → Option β) (third : Nat → Json → Option γ) (make : α → β → γ → δ) :
    Nat → Json → Option δ
  | n + 1, j =>
    match j.payload? positional names with
    | some [a, b, c] => do some (make (← first n a) (← second n b) (← third n c))
    | _ => none
  | _, _ => none

/-- The operands of a kind of a given type. -/
def decodePayload? (positional : Bool) (type : AxiomType) (n : Nat) (j : Json) : Option AxiomKind :=
  let property := ObjectPropertyExpression.decode?
  let data := DataProperty.decode?
  let cls := ClassExpression.decode? positional
  let individual := Individual.decode?
  match type with
  | .declaration => (Entity.decode? n j).map .declaration
  | .subClassOf => decodePair? positional ["sub", "sup"] cls cls .subClassOf n j
  | .equivalentClasses => (decodeSet? cls n j).map .equivalentClasses
  | .disjointClasses => (decodeSet? cls n j).map .disjointClasses
  | .disjointUnion =>
    decodePair? positional ["class", "operands"] Iri.decode? (decodeSet? cls)
      (fun i ops => .disjointUnion ⟨i⟩ ops) n j
  | .subObjectPropertyOf =>
    decodePair? positional ["sub", "sup"] property property .subObjectPropertyOf n j
  | .subPropertyChainOf =>
    decodePair? positional ["chain", "sup"] (listOf? property) property .subPropertyChainOf n j
  | .equivalentObjectProperties => (decodeSet? property n j).map .equivalentObjectProperties
  | .disjointObjectProperties => (decodeSet? property n j).map .disjointObjectProperties
  | .inverseObjectProperties =>
    decodePair? positional ["first", "second"] property property .inverseObjectProperties n j
  | .objectPropertyDomain =>
    decodePair? positional ["property", "domain"] property cls .objectPropertyDomain n j
  | .objectPropertyRange =>
    decodePair? positional ["property", "range"] property cls .objectPropertyRange n j
  | .functionalObjectProperty => (property n j).map .functionalObjectProperty
  | .inverseFunctionalObjectProperty => (property n j).map .inverseFunctionalObjectProperty
  | .reflexiveObjectProperty => (property n j).map .reflexiveObjectProperty
  | .irreflexiveObjectProperty => (property n j).map .irreflexiveObjectProperty
  | .symmetricObjectProperty => (property n j).map .symmetricObjectProperty
  | .asymmetricObjectProperty => (property n j).map .asymmetricObjectProperty
  | .transitiveObjectProperty => (property n j).map .transitiveObjectProperty
  | .subDataPropertyOf => decodePair? positional ["sub", "sup"] data data .subDataPropertyOf n j
  | .equivalentDataProperties => (decodeSet? data n j).map .equivalentDataProperties
  | .disjointDataProperties => (decodeSet? data n j).map .disjointDataProperties
  | .dataPropertyDomain =>
    decodePair? positional ["property", "domain"] data cls .dataPropertyDomain n j
  | .dataPropertyRange =>
    decodePair? positional ["property", "range"] data DataRange.decode? .dataPropertyRange n j
  | .functionalDataProperty => (data n j).map .functionalDataProperty
  | .classAssertion =>
    decodePair? positional ["class", "individual"] cls individual .classAssertion n j
  | .objectPropertyAssertion =>
    decodeTriple? positional ["property", "subject", "object"] property individual individual
      .objectPropertyAssertion n j
  | .negativeObjectPropertyAssertion =>
    decodeTriple? positional ["property", "subject", "object"] property individual individual
      .negativeObjectPropertyAssertion n j
  | .dataPropertyAssertion =>
    decodeTriple? positional ["property", "subject", "value"] data individual Literal.decode?
      .dataPropertyAssertion n j
  | .sameIndividual => (decodeSet? individual n j).map .sameIndividual
  | .differentIndividuals => (decodeSet? individual n j).map .differentIndividuals
  | .hasKey =>
    decodeTriple? positional ["class", "object_properties", "data_properties"] cls
      (decodeSet? property) (decodeSet? data) .hasKey n j
  | .annotationAssertion =>
    decodeTriple? positional ["property", "subject", "value"] Iri.decode? Iri.decode?
      Literal.decode? (fun p s v => .annotationAssertion ⟨p⟩ s v) n j

def decode? (positional : Bool) : Nat → Json → Option AxiomKind
  | n + 1, .obj [(some tag, payload)] =>
    (AxiomType.ofName? tag).bind fun type => decodePayload? positional type n payload
  | _, _ => none

end AxiomKind

namespace Axiom

def encode (a : Axiom) : Json := a.kind.encode

def decode? (positional : Bool) (limit : Nat) (j : Json) : Option Axiom :=
  (AxiomKind.decode? positional limit j).bind fun k => (ofKind? k).toOption

end Axiom

end OwlStructure
