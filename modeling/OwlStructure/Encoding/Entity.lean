import OwlStructure.Expression.Individual
import OwlStructure.Expression.Literal
import OwlStructure.Expression.Property
import OwlStructure.Json.Shape

/-!
Entities, individuals, literals, data ranges and property expressions in JSON. Names and ids are
bare strings and are not checked. A literal may leave out its language tag.
-/
namespace OwlStructure

open Json

namespace EntityKind

def encode (k : EntityKind) : Json := .text k.name

def decode? (limit : Nat) (j : Json) : Option EntityKind := (unitVariant? limit j).bind ofName?

end EntityKind

namespace Entity

def encode (e : Entity) : Json := .variant e.kind.name (.text e.name)

def decode? : Nat → Json → Option Entity
  | _ + 1, .obj [(some tag, payload)] =>
    (EntityKind.ofName? tag).bind fun k => payload.text?.map (ofKind k)
  | _, _ => none

end Entity

namespace Iri

def encode (i : Iri) : Json := .text i.text

def decode? (_ : Nat) (j : Json) : Option Iri := j.text?.map .mk

end Iri

namespace DataProperty

def encode (p : DataProperty) : Json := p.iri.encode

def decode? (limit : Nat) (j : Json) : Option DataProperty := (Iri.decode? limit j).map .mk

end DataProperty

namespace AnonymousIndividual

def encode (a : AnonymousIndividual) : Json := .text a.id

def decode? (_ : Nat) (j : Json) : Option AnonymousIndividual := j.text?.map .mk

end AnonymousIndividual

namespace Individual

def encode : Individual → Json
  | .named i => .variant "Named" i.iri.encode
  | .anonymous a => .variant "Anonymous" a.encode

def decode? : Nat → Json → Option Individual
  | n + 1, .obj [(some "Named", payload)] => (Iri.decode? n payload).map fun i => .named ⟨i⟩
  | n + 1, .obj [(some "Anonymous", payload)] =>
    (AnonymousIndividual.decode? n payload).map .anonymous
  | _, _ => none

end Individual

namespace Literal

def encodeLang : Option String → Json
  | some t => .text t
  | none => .null

def encode (l : Literal) : Json :=
  .record [("lexical", .text l.lexical), ("datatype", l.datatype.iri.encode),
    ("lang", encodeLang l.lang)]

def decodeLang? : Option Json → Option (Option String)
  | none => some none
  | some .null => some none
  | some j => j.text?.map some

def decode? : Nat → Json → Option Literal
  | n + 1, j =>
    match j.fields? ["lexical", "datatype", "lang"] false with
    | some [some lexical, some datatype, lang] => do
      let lexical ← lexical.text?
      let datatype ← Iri.decode? n datatype
      let lang ← decodeLang? lang
      some ⟨lexical, ⟨datatype⟩, lang⟩
    | _ => none
  | _, _ => none

end Literal

namespace DataRange

def encode : DataRange → Json
  | .datatype d => .variant "Datatype" d.iri.encode
  | .oneOf values => .variant "OneOf" (.arr (values.toList.map Literal.encode))

def decode? : Nat → Json → Option DataRange
  | n + 1, .obj [(some "Datatype", payload)] => (Iri.decode? n payload).map fun i => .datatype ⟨i⟩
  | n + 1, .obj [(some "OneOf", payload)] =>
    (listOf? Literal.decode? n payload).map fun values => .oneOf (.ofList values)
  | _, _ => none

end DataRange

namespace ObjectPropertyExpression

def encode : ObjectPropertyExpression → Json
  | .named p => .variant "Named" p.iri.encode
  | .inverse e => .variant "Inverse" e.encode

def decode? : Nat → Json → Option ObjectPropertyExpression
  | n + 1, .obj [(some "Named", payload)] => (Iri.decode? n payload).map fun i => .named ⟨i⟩
  | n + 1, .obj [(some "Inverse", payload)] => (decode? n payload).map .inverse
  | _, _ => none

end ObjectPropertyExpression

end OwlStructure
