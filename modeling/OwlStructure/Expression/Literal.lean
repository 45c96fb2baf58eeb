import OwlStructure.Collections.SortedSet
import OwlStructure.Entity

/-!
Literals, and the data ranges made of them. Literals compare by lexical form, datatype and language
tag, in this order.
-/
namespace OwlStructure

structure Literal where
  lexical : String
  datatype : Datatype
  lang : Option String
  deriving DecidableEq, Repr

namespace Literal

def typed (lexical : String) (datatype : Datatype) : Literal := ⟨lexical, datatype, none⟩

def string (lexical : String) : Literal := typed lexical .xsdString

def integer (value : Int) : Literal :=
  typed (match value with
    | .ofNat n => n.repr
    | .negSucc n => "-" ++ (n + 1).repr) .xsdInteger

def langString (lexical lang : String) : Literal := ⟨lexical, .xsdString, some lang⟩

def entity (l : Literal) : Entity := .datatype l.datatype

/-- The lexical form stands between quotes as it is. -/
def render (l : Literal) : String :=
  match l.lang with
  | some lang => "\"" ++ l.lexical ++ "\"@" ++ lang
  | none => "\"" ++ l.lexical ++ "\"^^" ++ l.datatype.iri.render

def langKey : Option String → List KeySymbol
  | none => [.tag 0]
  | some t => [.tag 1, .text t]

instance : Keyed Literal where
  key l := .text l.lexical :: .text l.datatype.iri.text :: langKey l.lang
  starts l := ⟨_, _, rfl, by simp⟩
  split {a b r s} h := by
    obtain ⟨a₁, ⟨⟨a₂⟩⟩, a₃⟩ := a
    obtain ⟨b₁, ⟨⟨b₂⟩⟩, b₃⟩ := b
    cases a₃ <;> cases b₃ <;> simp_all [langKey]

end Literal

inductive DataRange where
  | datatype (d : Datatype)
  | oneOf (values : SortedSet Literal)
  deriving DecidableEq

/-- A form of functional-style syntax: a name with its arguments. -/
def renderForm (name : String) (arguments : List String) : String :=
  name ++ "(" ++ " ".intercalate arguments ++ ")"

namespace DataRange

/-- The entities at each place of a range. -/
def entities : DataRange → List Entity
  | .datatype d => [.datatype d]
  | .oneOf values => values.toList.map Literal.entity

theorem no_anonymous (r : DataRange) : r.entities.filterMap Entity.asAnonymous? = [] := by
  cases r with
  | datatype d => rfl
  | oneOf values => simp [entities, Literal.entity, Entity.asAnonymous?]

def render : DataRange → String
  | .datatype d => d.iri.render
  | .oneOf values => renderForm "DataOneOf" (values.toList.map Literal.render)

instance : Keyed DataRange where
  key
    | .datatype d => [.tag 0, .text d.iri.text]
    | .oneOf values => .tag 1 :: Keyed.key values
  starts r := by cases r <;> exact ⟨_, _, rfl, by simp⟩
  split {a b r s} h := by
    cases a <;> cases b
    · next d e =>
      obtain ⟨⟨d⟩⟩ := d
      obtain ⟨⟨e⟩⟩ := e
      simpa using h
    · simp at h
    · simp at h
    · obtain ⟨rfl, h'⟩ := Keyed.split (List.cons.inj h).2
      exact ⟨rfl, h'⟩

end DataRange

end OwlStructure
