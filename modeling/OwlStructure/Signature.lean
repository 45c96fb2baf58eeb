import OwlStructure.Axiom.Basic

/-!
The signature of an object is the set of named entities at its places. Anonymous individuals are
gathered apart, from those parts of an object that can have any.
-/
namespace OwlStructure

/-- Objects with places that entities stand in. The anonymous individuals are those among the
entities. -/
class HasEntities (α : Type u) where
  entities : α → List Entity
  unnamed : α → List AnonymousIndividual
  unnamed_eq : ∀ a, unnamed a = (entities a).filterMap Entity.asAnonymous?

export HasEntities (entities)

instance : HasEntities Entity where
  entities e := [e]
  unnamed e := e.asAnonymous?.toList
  unnamed_eq e := by cases e <;> rfl

instance : HasEntities ObjectPropertyExpression where
  entities e := [e.entity]
  unnamed _ := []
  unnamed_eq _ := rfl

instance : HasEntities Individual where
  entities i := [i.entity]
  unnamed i := i.asAnonymous?.toList
  unnamed_eq i := by cases i <;> rfl

instance : HasEntities Literal where
  entities l := [l.entity]
  unnamed _ := []
  unnamed_eq _ := rfl

instance : HasEntities DataRange where
  entities := DataRange.entities
  unnamed _ := []
  unnamed_eq r := r.no_anonymous.symm

instance : HasEntities ClassExpression where
  entities := ClassExpression.entities
  unnamed := ClassExpression.unnamed
  unnamed_eq := ClassExpression.unnamed_eq

instance : HasEntities Axiom where
  entities := Axiom.entities
  unnamed := Axiom.unnamed
  unnamed_eq a := a.kind.unnamed_eq

instance [HasEntities α] : HasEntities (List α) where
  entities l := l.flatMap entities
  unnamed l := l.flatMap HasEntities.unnamed
  unnamed_eq l := by rw [List.filterMap_flatMap, funext HasEntities.unnamed_eq]

instance [Keyed α] [HasEntities α] : HasEntities (SortedSet α) where
  entities s := s.toList.flatMap entities
  unnamed s := s.toList.flatMap HasEntities.unnamed
  unnamed_eq s := by rw [List.filterMap_flatMap, funext HasEntities.unnamed_eq]

/-- The named entities of an object. -/
def signature [HasEntities α] (a : α) : SortedSet Entity :=
  .ofList ((entities a).filter fun e => !e.isAnonymous)

/-- The anonymous individuals of an object. -/
def anonymousIndividuals [HasEntities α] (a : α) : SortedSet AnonymousIndividual :=
  .ofList (HasEntities.unnamed a)

theorem mem_signature [HasEntities α] {a : α} {e : Entity} :
    e ∈ signature a ↔ e ∈ entities a ∧ e.isAnonymous = false := by
  simp [signature]

theorem mem_anonymousIndividuals [HasEntities α] {a : α} {i : AnonymousIndividual} :
    i ∈ anonymousIndividuals a ↔ .anonymousIndividual i ∈ entities a := by
  simp only [anonymousIndividuals, HasEntities.unnamed_eq, SortedSet.mem_ofList, List.mem_filterMap]
  constructor
  · rintro ⟨e, he, hi⟩
    cases e <;> simp only [Entity.asAnonymous?, reduceCtorEq, Option.some.injEq] at hi
    exact hi ▸ he
  · exact fun h => ⟨_, h, rfl⟩

/-- Every entity that an object mentions, named ones first. -/
def references [HasEntities α] (a : α) : List Entity :=
  (signature a).toList ++ (anonymousIndividuals a).toList.map .anonymousIndividual

end OwlStructure
