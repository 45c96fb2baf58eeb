import OwlStructure.Iri
import OwlStructure.Vocabulary

/-!
Entities: named classes, properties, individuals and datatypes, and anonymous individuals. Entities
compare by kind first and by name within a kind.
-/
namespace OwlStructure

structure Class where
  iri : Iri
  deriving DecidableEq, Repr

structure ObjectProperty where
  iri : Iri
  deriving DecidableEq, Repr

structure DataProperty where
  iri : Iri
  deriving DecidableEq, Repr

structure NamedIndividual where
  iri : Iri
  deriving DecidableEq, Repr

structure AnnotationProperty where
  iri : Iri
  deriving DecidableEq, Repr

structure Datatype where
  iri : Iri
  deriving DecidableEq, Repr

/-- An individual without IRI. Its id means something only next to the axioms that use it, and may
be any text. -/
structure AnonymousIndividual where
  id : String
  deriving DecidableEq, Repr

namespace Class

def parse? (text : String) : Except ModelError Class := (Iri.ofText? text).map .mk

def thing : Class := ⟨⟨Vocabulary.owlThing⟩⟩

def nothing : Class := ⟨⟨Vocabulary.owlNothing⟩⟩

def isThing (c : Class) : Bool := c == thing

def isNothing (c : Class) : Bool := c == nothing

instance : Keyed Class where
  key p := Keyed.key p.iri
  starts p := Keyed.starts p.iri
  split {a b _ _} h := by
    obtain ⟨a⟩ := a
    obtain ⟨b⟩ := b
    simpa using Keyed.split h

end Class

namespace ObjectProperty

def parse? (text : String) : Except ModelError ObjectProperty := (Iri.ofText? text).map .mk

def top : ObjectProperty := ⟨⟨Vocabulary.owlTopObjectProperty⟩⟩

def bottom : ObjectProperty := ⟨⟨Vocabulary.owlBottomObjectProperty⟩⟩

def isTop (p : ObjectProperty) : Bool := p == top

def isBottom (p : ObjectProperty) : Bool := p == bottom

def isBuiltin (p : ObjectProperty) : Bool := p.isTop || p.isBottom

instance : Keyed ObjectProperty where
  key p := Keyed.key p.iri
  starts p := Keyed.starts p.iri
  split {a b _ _} h := by
    obtain ⟨a⟩ := a
    obtain ⟨b⟩ := b
    simpa using Keyed.split h

end ObjectProperty

namespace DataProperty

instance : Keyed DataProperty where
  key p := Keyed.key p.iri
  starts p := Keyed.starts p.iri
  split {a b _ _} h := by
    obtain ⟨a⟩ := a
    obtain ⟨b⟩ := b
    simpa using Keyed.split h

end DataProperty

namespace Datatype

def parse? (text : String) : Except ModelError Datatype := (Iri.ofText? text).map .mk

def xsdString : Datatype := ⟨⟨Vocabulary.xsdString⟩⟩

def xsdInteger : Datatype := ⟨⟨Vocabulary.xsdInteger⟩⟩

def xsdBoolean : Datatype := ⟨⟨Vocabulary.xsdBoolean⟩⟩

def rdfsLiteral : Datatype := ⟨⟨Vocabulary.rdfsLiteral⟩⟩

end Datatype

namespace AnnotationProperty

def rdfsLabel : AnnotationProperty := ⟨⟨Vocabulary.rdfsLabel⟩⟩

def rdfsComment : AnnotationProperty := ⟨⟨Vocabulary.rdfsComment⟩⟩

instance : Keyed AnnotationProperty where
  key p := Keyed.key p.iri
  starts p := Keyed.starts p.iri
  split {a b _ _} h := by
    obtain ⟨a⟩ := a
    obtain ⟨b⟩ := b
    simpa using Keyed.split h

end AnnotationProperty

namespace AnonymousIndividual

/-- The individual that is made after `n` others: the counter is part of its id. -/
def fresh (n : Nat) : AnonymousIndividual := ⟨"_:genid" ++ n.repr⟩

instance : Keyed AnonymousIndividual where
  key a := [.text a.id]
  starts a := ⟨_, _, rfl, by simp⟩
  split {a b r s} h := by
    obtain ⟨a⟩ := a
    obtain ⟨b⟩ := b
    simpa using h

end AnonymousIndividual

/-- The kinds of entities, in order. -/
inductive EntityKind where
  | namedClass
  | objectProperty
  | dataProperty
  | namedIndividual
  | annotationProperty
  | anonymousIndividual
  | datatype
  deriving DecidableEq, Repr

namespace EntityKind

def all : List EntityKind :=
  [.namedClass, .objectProperty, .dataProperty, .namedIndividual, .annotationProperty,
    .anonymousIndividual, .datatype]

def name : EntityKind → String
  | .namedClass => "Class"
  | .objectProperty => "ObjectProperty"
  | .dataProperty => "DataProperty"
  | .namedIndividual => "NamedIndividual"
  | .annotationProperty => "AnnotationProperty"
  | .anonymousIndividual => "AnonymousIndividual"
  | .datatype => "Datatype"

def ofName? (n : String) : Option EntityKind := all.find? fun k => k.name == n

theorem ofName?_name (k : EntityKind) : ofName? k.name = some k := by cases k <;> decide

def ordinal (k : EntityKind) : Nat := all.idxOf k

theorem getElem?_ordinal (k : EntityKind) : all[k.ordinal]? = some k := by cases k <;> rfl

end EntityKind

inductive Entity where
  | namedClass (c : Class)
  | objectProperty (p : ObjectProperty)
  | dataProperty (p : DataProperty)
  | namedIndividual (i : NamedIndividual)
  | annotationProperty (p : AnnotationProperty)
  | anonymousIndividual (a : AnonymousIndividual)
  | datatype (d : Datatype)
  deriving DecidableEq, Repr

namespace Entity

def kind : Entity → EntityKind
  | .namedClass _ => .namedClass
  | .objectProperty _ => .objectProperty
  | .dataProperty _ => .dataProperty
  | .namedIndividual _ => .namedIndividual
  | .annotationProperty _ => .annotationProperty
  | .anonymousIndividual _ => .anonymousIndividual
  | .datatype _ => .datatype

/-- The IRI of a named entity, or the id of an anonymous individual. -/
def name : Entity → String
  | .namedClass c => c.iri.text
  | .objectProperty p => p.iri.text
  | .dataProperty p => p.iri.text
  | .namedIndividual i => i.iri.text
  | .annotationProperty p => p.iri.text
  | .anonymousIndividual a => a.id
  | .datatype d => d.iri.text

/-- The entity of a kind with a name. -/
def ofKind : EntityKind → String → Entity
  | .namedClass, s => .namedClass ⟨⟨s⟩⟩
  | .objectProperty, s => .objectProperty ⟨⟨s⟩⟩
  | .dataProperty, s => .dataProperty ⟨⟨s⟩⟩
  | .namedIndividual, s => .namedIndividual ⟨⟨s⟩⟩
  | .annotationProperty, s => .annotationProperty ⟨⟨s⟩⟩
  | .anonymousIndividual, s => .anonymousIndividual ⟨s⟩
  | .datatype, s => .datatype ⟨⟨s⟩⟩

@[simp] theorem ofKind_kind_name (e : Entity) : ofKind e.kind e.name = e := by cases e <;> rfl

@[simp] theorem kind_ofKind (k : EntityKind) (s : String) : (ofKind k s).kind = k := by
  cases k <;> rfl

@[simp] theorem name_ofKind (k : EntityKind) (s : String) : (ofKind k s).name = s := by
  cases k <;> rfl

/-- A named entity needs an IRI that is not blank; an anonymous individual takes any id. -/
def parse? (k : EntityKind) (text : String) : Except ModelError Entity :=
  match k with
  | .anonymousIndividual => .ok (.anonymousIndividual ⟨text⟩)
  | k => (Iri.ofText? text).map fun i => ofKind k i.text

def isAnonymous : Entity → Bool
  | .anonymousIndividual _ => true
  | _ => false

/-- Object, data and annotation properties. -/
def isProperty : Entity → Bool
  | .objectProperty _ | .dataProperty _ | .annotationProperty _ => true
  | _ => false

def iri? : Entity → Option Iri
  | .anonymousIndividual _ => none
  | e => some ⟨e.name⟩

def asClass? : Entity → Option Class
  | .namedClass c => some c
  | _ => none

def asObjectProperty? : Entity → Option ObjectProperty
  | .objectProperty p => some p
  | _ => none

def asDataProperty? : Entity → Option DataProperty
  | .dataProperty p => some p
  | _ => none

def asNamedIndividual? : Entity → Option NamedIndividual
  | .namedIndividual i => some i
  | _ => none

def asAnonymous? : Entity → Option AnonymousIndividual
  | .anonymousIndividual a => some a
  | _ => none

/-- Named entities show their IRI, anonymous individuals their bare id. -/
def render (e : Entity) : String :=
  match e.iri? with
  | some i => i.render
  | none => e.name

instance : Keyed Entity where
  key e := [.tag e.kind.ordinal, .text e.name]
  starts e := ⟨_, _, rfl, by simp⟩
  split {a b r s} h := by
    simp only [List.cons_append, List.nil_append, List.cons.injEq, KeySymbol.tag.injEq,
      KeySymbol.text.injEq] at h
    obtain ⟨hk, hn, hr⟩ := h
    have hk : a.kind = b.kind := by
      have := EntityKind.getElem?_ordinal a.kind
      rw [hk, EntityKind.getElem?_ordinal] at this
      exact (Option.some.inj this).symm
    exact ⟨by rw [← ofKind_kind_name a, ← ofKind_kind_name b, hk, hn], hr⟩

end Entity

end OwlStructure
