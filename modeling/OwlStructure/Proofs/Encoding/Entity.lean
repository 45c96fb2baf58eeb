import OwlStructure.Encoding.Entity
import OwlStructure.Proofs.Json.Shape

/-!
Entities, individuals, literals, data ranges and property expressions are restored from their JSON.
-/
namespace OwlStructure

open Json

theorem Iri.restores (i : Iri) : Restores Iri.decode? i.encode i := .flat rfl fun _ => rfl

theorem DataProperty.restores (p : DataProperty) : Restores DataProperty.decode? p.encode p :=
  p.iri.restores.map DataProperty.mk

theorem AnonymousIndividual.restores (a : AnonymousIndividual) :
    Restores AnonymousIndividual.decode? a.encode a := .flat rfl fun _ => rfl

theorem Entity.restores (e : Entity) : Restores Entity.decode? e.encode e := by
  have hname : Restores (fun _ j => j.text?.map (ofKind e.kind)) (.text e.name) e :=
    .flat rfl fun _ => congrArg some e.ofKind_kind_name
  refine hname.variant rfl fun limit => ?_
  simp only [Json.variant, record, List.map_cons, List.map_nil, decode?]
  rw [EntityKind.ofName?_name, Option.bind_some]

theorem Individual.restores : (i : Individual) → Restores Individual.decode? i.encode i
  | .named i => (i.iri.restores.map fun i => Individual.named ⟨i⟩).variant rfl fun _ => rfl
  | .anonymous a => (a.restores.map Individual.anonymous).variant rfl fun _ => rfl

namespace ObjectPropertyExpression

theorem restores : (e : ObjectPropertyExpression) →
    Restores ObjectPropertyExpression.decode? e.encode e
  | .named p => (p.iri.restores.map fun i => named ⟨i⟩).variant rfl fun _ => rfl
  | .inverse e => (e.restores.map inverse).variant rfl fun _ => rfl

end ObjectPropertyExpression

namespace Literal

theorem decodeLang?_encodeLang (lang : Option String) :
    decodeLang? (some (encodeLang lang)) = some lang := by
  cases lang <;> rfl

theorem depth_encodeLang (lang : Option String) : (encodeLang lang).depth = 0 := by
  cases lang <;> rfl

theorem restores (l : Literal) : Restores Literal.decode? l.encode l := by
  have hdepth : l.encode.depth = 0 + 1 := by
    simp [encode, Iri.encode, depthItems, depth_encodeLang]
  have hfields : l.encode.fields? ["lexical", "datatype", "lang"] false =
      some [some (.text l.lexical), some l.datatype.iri.encode, some (encodeLang l.lang)] :=
    fields?_record [("lexical", .text l.lexical), ("datatype", l.datatype.iri.encode),
      ("lang", encodeLang l.lang)] (by simp) false
  refine .nested hdepth rfl fun limit => ?_
  simp only [decode?, hfields, decodeLang?_encodeLang, if_pos (Nat.zero_le limit)]
  rfl

end Literal

theorem DataRange.restores : (r : DataRange) → Restores DataRange.decode? r.encode r
  | .datatype d => (d.iri.restores.map fun i => DataRange.datatype ⟨i⟩).variant rfl fun _ => rfl
  | .oneOf values => by
    have hvalues := (Restores.listOf fun l (_ : l ∈ values.toList) => l.restores).map
      fun values => DataRange.oneOf (.ofList values)
    rw [SortedSet.ofList_toList] at hvalues
    exact hvalues.variant rfl fun _ => rfl

end OwlStructure
