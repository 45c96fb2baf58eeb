import OwlStructure.Encoding.Entity
import OwlStructure.Expression.ClassExpression

/-!
Class expressions in JSON. What is read is a class term; its normal form is the expression.
-/
namespace OwlStructure

open Json

namespace ClassTerm

/-- A cardinality has 32 bits. -/
def cardinality? (j : Json) : Option UInt32 := (j.natBelow? 4294967296).map UInt32.ofNat

mutual

/-- What stands under the name of the outermost form. -/
def payload : ClassTerm → Json
  | .named c => c.iri.encode
  | .intersection ops => .arr (encodeOperands ops)
  | .union ops => .arr (encodeOperands ops)
  | .complement c => .variant c.form (payload c)
  | .oneOf is => .arr (is.toList.map Individual.encode)
  | .someValues p c => .record [("property", p.encode), ("filler", .variant c.form (payload c))]
  | .allValues p c => .record [("property", p.encode), ("filler", .variant c.form (payload c))]
  | .hasValue p i => .record [("property", p.encode), ("individual", i.encode)]
  | .minCardinality n p c =>
    .record [("cardinality", .int n.toNat), ("property", p.encode),
      ("filler", .variant c.form (payload c))]
  | .exactCardinality n p c =>
    .record [("cardinality", .int n.toNat), ("property", p.encode),
      ("filler", .variant c.form (payload c))]
  | .maxCardinality n p c =>
    .record [("cardinality", .int n.toNat), ("property", p.encode),
      ("filler", .variant c.form (payload c))]
  | .hasSelf p => p.encode
  | .dataSomeValues p r => .record [("property", p.encode), ("range", r.encode)]
  | .dataAllValues p r => .record [("property", p.encode), ("range", r.encode)]
  | .dataHasValue p v => .record [("property", p.encode), ("value", v.encode)]

def encodeOperands : List ClassTerm → List Json
  | [] => []
  | c :: rest => .variant c.form (payload c) :: encodeOperands rest

end

def encode (t : ClassTerm) : Json := .variant t.form t.payload

def decode? (positional : Bool) : Nat → Json → Option ClassTerm
  | n + 1, .obj [(some tag, payload)] =>
    match tag with
    | "Class" => (Iri.decode? n payload).map fun i => .named ⟨i⟩
    | "ObjectIntersectionOf" =>
      match n, payload with
      | m + 1, .arr items => (items.mapM fun j => decode? positional m j).map .intersection
      | _, _ => none
    | "ObjectUnionOf" =>
      match n, payload with
      | m + 1, .arr items => (items.mapM fun j => decode? positional m j).map .union
      | _, _ => none
    | "ObjectComplementOf" => (decode? positional n payload).map .complement
    | "ObjectOneOf" =>
      (listOf? Individual.decode? n payload).map fun is => .oneOf (.ofList is)
    | "ObjectSomeValuesFrom" =>
      match n, payload.payload? positional ["property", "filler"] with
      | m + 1, some [p, c] => do
        some (.someValues (← ObjectPropertyExpression.decode? m p) (← decode? positional m c))
      | _, _ => none
    | "ObjectAllValuesFrom" =>
      match n, payload.payload? positional ["property", "filler"] with
      | m + 1, some [p, c] => do
        some (.allValues (← ObjectPropertyExpression.decode? m p) (← decode? positional m c))
      | _, _ => none
    | "ObjectHasValue" =>
      match n, payload.payload? positional ["property", "individual"] with
      | m + 1, some [p, i] => do
        some (.hasValue (← ObjectPropertyExpression.decode? m p) (← Individual.decode? m i))
      | _, _ => none
    | "ObjectMinCardinality" =>
      match n, payload.payload? positional ["cardinality", "property", "filler"] with
      | m + 1, some [k, p, c] => do
        some (.minCardinality (← cardinality? k) (← ObjectPropertyExpression.decode? m p)
          (← decode? positional m c))
      | _, _ => none
    | "ObjectExactCardinality" =>
      match n, payload.payload? positional ["cardinality", "property", "filler"] with
      | m + 1, some [k, p, c] => do
        some (.exactCardinality (← cardinality? k) (← ObjectPropertyExpression.decode? m p)
          (← decode? positional m c))
      | _, _ => none
    | "ObjectMaxCardinality" =>
      match n, payload.payload? positional ["cardinality", "property", "filler"] with
      | m + 1, some [k, p, c] => do
        some (.maxCardinality (← cardinality? k) (← ObjectPropertyExpression.decode? m p)
          (← decode? positional m c))
      | _, _ => none
    | "ObjectHasSelf" => (ObjectPropertyExpression.decode? n payload).map .hasSelf
    | "DataSomeValuesFrom" =>
      match n, payload.payload? positional ["property", "range"] with
      | m + 1, some [p, r] => do
        some (.dataSomeValues (← DataProperty.decode? m p) (← DataRange.decode? m r))
      | _, _ => none
    | "DataAllValuesFrom" =>
      match n, payload.payload? positional ["property", "range"] with
      | m + 1, some [p, r] => do
        some (.dataAllValues (← DataProperty.decode? m p) (← DataRange.decode? m r))
      | _, _ => none
    | "DataHasValue" =>
      match n, payload.payload? positional ["property", "value"] with
      | m + 1, some [p, v] => do
        some (.dataHasValue (← DataProperty.decode? m p) (← Literal.decode? m v))
      | _, _ => none
    | _ => none
  | _, _ => none

end ClassTerm

namespace ClassExpression

def encode (c : ClassExpression) : Json := c.term.encode

def decode? (positional : Bool) (limit : Nat) (j : Json) : Option ClassExpression :=
  (ClassTerm.decode? positional limit j).map ofTerm

end ClassExpression

end OwlStructure
