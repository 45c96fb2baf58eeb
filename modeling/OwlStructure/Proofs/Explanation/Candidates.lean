import OwlStructure.Explanation.Seeds
import OwlStructure.Proofs.Explanation.Placement
import OwlStructure.Proofs.Expression.ClassTerm

/-!
The two sides of an axiom, and the candidates of an entity. The left side is among the entities that
the axiom is about, so filing axioms under their left sides adds no candidates to those that the
index gives. The right side is part of the signature.
-/
namespace OwlStructure

variable {e : Entity}

/-! ### Named parts -/

theorem ObjectPropertyExpression.entity_of_named {p : ObjectPropertyExpression}
    (h : p.namedEntity? = some e) : p.entity = e := by
  cases p with
  | named p => exact Option.some.inj h
  | inverse p => cases h

theorem Individual.entity_of_named {i : Individual} (h : i.namedEntity? = some e) :
    i.entity = e := by
  cases i with
  | named i => exact Option.some.inj h
  | anonymous a => cases h

theorem ClassExpression.selects_of_named {c : ClassExpression} (h : c.namedEntity? = some e) :
    Staging.selects e = true := by
  obtain ⟨d, _, rfl⟩ := Option.map_eq_some_iff.1 h
  rfl

theorem ObjectPropertyExpression.selects_of_named {p : ObjectPropertyExpression}
    (h : p.namedEntity? = some e) : Staging.selects e = true := entity_of_named h ▸ rfl

theorem Individual.selects_of_named {i : Individual} (h : i.namedEntity? = some e) :
    Staging.selects e = true := by
  obtain ⟨d, _, rfl⟩ := Option.map_eq_some_iff.1 h
  rfl

theorem Staging.selects_iff :
    selects e = true ↔
      e.kind ∈ [.namedClass, .objectProperty, .dataProperty, .namedIndividual] := by
  cases e <;> simp [Staging.selects, Entity.kind]

theorem not_isAnonymous_of_selects (h : Staging.selects e = true) : e.isAnonymous = false := by
  cases e <;> first | rfl | cases h

/-! ### Left sides -/

namespace AxiomKind

open Staging (selects)

variable {k : AxiomKind}

theorem defining_of_mem_leftSide (h : e ∈ k.leftSide) : e ∈ k.defining := by
  have hproperty {p : ObjectPropertyExpression} (he : e ∈ p.namedEntity?.toList) :
      e ∈ [p.entity] :=
    List.mem_singleton.2 (ObjectPropertyExpression.entity_of_named (Option.mem_toList.1 he)).symm
  cases k <;> simp only [leftSide, List.not_mem_nil] at h
  case subClassOf | equivalentClasses | disjointClasses | disjointUnion | subDataPropertyOf
      | equivalentDataProperties | disjointDataProperties | dataPropertyDomain
      | dataPropertyRange | functionalDataProperty => exact h
  case subObjectPropertyOf | objectPropertyDomain | objectPropertyRange | functionalObjectProperty
      | inverseFunctionalObjectProperty | reflexiveObjectProperty | irreflexiveObjectProperty
      | symmetricObjectProperty | asymmetricObjectProperty | transitiveObjectProperty =>
    exact hproperty h
  case equivalentObjectProperties | disjointObjectProperties =>
    obtain ⟨p, hp, he⟩ := List.mem_filterMap.1 h
    exact List.mem_map.2 ⟨p, hp, ObjectPropertyExpression.entity_of_named he⟩
  case inverseObjectProperties first second =>
    obtain rfl := List.mem_singleton.1 (hproperty h)
    simp only [defining]
    split
    · exact List.mem_cons_self
    · exact List.mem_cons_self
  case classAssertion =>
    exact List.mem_singleton.2 (Individual.entity_of_named (Option.mem_toList.1 h)).symm
  case sameIndividual | differentIndividuals =>
    obtain ⟨i, hi, he⟩ := List.mem_filterMap.1 h
    exact List.mem_map.2 ⟨i, hi, Individual.entity_of_named he⟩

theorem selects_of_mem_leftSide (h : e ∈ k.leftSide) : selects e = true := by
  cases k <;> simp only [leftSide, List.not_mem_nil] at h
  case subClassOf => exact ClassExpression.selects_of_named (Option.mem_toList.1 h)
  case equivalentClasses | disjointClasses =>
    obtain ⟨c, _, he⟩ := List.mem_filterMap.1 h
    exact ClassExpression.selects_of_named he
  case disjointUnion | subDataPropertyOf | dataPropertyDomain | dataPropertyRange
      | functionalDataProperty =>
    obtain rfl := List.mem_singleton.1 h
    rfl
  case subObjectPropertyOf | inverseObjectProperties | objectPropertyDomain | objectPropertyRange
      | functionalObjectProperty | inverseFunctionalObjectProperty | reflexiveObjectProperty
      | irreflexiveObjectProperty | symmetricObjectProperty | asymmetricObjectProperty
      | transitiveObjectProperty =>
    exact ObjectPropertyExpression.selects_of_named (Option.mem_toList.1 h)
  case equivalentObjectProperties | disjointObjectProperties =>
    obtain ⟨p, _, he⟩ := List.mem_filterMap.1 h
    exact ObjectPropertyExpression.selects_of_named he
  case equivalentDataProperties | disjointDataProperties =>
    obtain ⟨p, _, rfl⟩ := List.mem_map.1 h
    rfl
  case classAssertion => exact Individual.selects_of_named (Option.mem_toList.1 h)
  case sameIndividual | differentIndividuals =>
    obtain ⟨i, _, he⟩ := List.mem_filterMap.1 h
    exact Individual.selects_of_named he

/-! ### Right sides -/

theorem mem_signature_of_mem_signatureIf [HasEntities α] {other : Option Entity} {part : α}
    (h : e ∈ signatureIf other part) : e ∈ signature part := by
  unfold signatureIf at h
  split at h
  · exact h
  · exact absurd h (SortedSet.not_mem_empty e)

/-- An axiom leads to named entities at its own places. -/
theorem mem_entities_of_mem_rightSide (h : e ∈ k.rightSide) :
    e ∈ k.entities ∧ e.isAnonymous = false := by
  cases k <;> simp only [rightSide, SortedSet.not_mem_empty] at h
  case subClassOf =>
    exact (mem_signature.1 (mem_signature_of_mem_signatureIf h)).imp_left
      (List.mem_append_right _)
  case subObjectPropertyOf | objectPropertyDomain | objectPropertyRange =>
    exact (mem_signature.1 (mem_signature_of_mem_signatureIf h)).imp_left
      (List.mem_cons_of_mem _)
  case classAssertion =>
    exact (mem_signature.1 (mem_signature_of_mem_signatureIf h)).imp_left
      (List.mem_append_left _)
  case equivalentClasses | disjointClasses | inverseObjectProperties => exact mem_signature.1 h
  case equivalentObjectProperties | disjointObjectProperties =>
    refine (mem_signature.1 h).imp_left fun he => ?_
    rwa [entities, List.map_eq_flatMap]
  case dataPropertyDomain | dataPropertyRange =>
    exact (mem_signature.1 h).imp_left (List.mem_cons_of_mem _)
  case dataPropertyAssertion =>
    exact (mem_signature.1 h).imp_left fun he =>
      List.mem_cons_of_mem _ (List.mem_append_left _ he)
  case subDataPropertyOf =>
    obtain rfl := List.mem_singleton.1 (SortedSet.mem_ofList.1 h)
    exact ⟨List.mem_cons_of_mem _ List.mem_cons_self, rfl⟩
  case equivalentDataProperties | disjointDataProperties =>
    have he := SortedSet.mem_ofList.1 h
    obtain ⟨p, -, rfl⟩ := List.mem_map.1 he
    exact ⟨he, rfl⟩
  case sameIndividual | differentIndividuals =>
    obtain ⟨i, hi, he⟩ := List.mem_filterMap.1 (SortedSet.mem_ofList.1 h)
    exact ⟨List.mem_map.2 ⟨i, hi, Individual.entity_of_named he⟩,
      not_isAnonymous_of_selects (Individual.selects_of_named he)⟩
  case hasKey =>
    have he := Option.mem_toList.1 (SortedSet.mem_ofList.1 h)
    have hc := ClassExpression.mem_entities_of_named he
    exact ⟨List.mem_append_left _ (List.mem_append_left _ hc),
      not_isAnonymous_of_selects (ClassExpression.selects_of_named he)⟩

/-- The entities that an axiom leads to, properties first. -/
def ledTo (k : AxiomKind) : List Entity :=
  k.rightSide.toList.filter Entity.isProperty ++ k.rightSide.toList.filter fun e => !e.isProperty

theorem mem_ledTo : e ∈ k.ledTo ↔ e ∈ k.rightSide := by
  unfold ledTo
  rw [(List.filter_append_perm _ _).mem_iff, SortedSet.mem_toList]

end AxiomKind

theorem Axiom.mem_signature_of_mem_rightSide {a : Axiom} (h : e ∈ a.kind.rightSide) :
    e ∈ signature a := mem_signature.2 (AxiomKind.mem_entities_of_mem_rightSide h)

/-! ### Candidates -/

namespace Staging

variable {s : Staging} {a : Axiom}

/-- Of the entities that axioms are about, the classes, properties and named individuals have these
axioms as their candidates; the other entities have none. -/
theorem IsSound.mem_candidates (h : s.IsSound) :
    a ∈ s.candidates e ↔ a ∈ s.axioms ∧ selects e = true ∧ e ∈ a.defining := by
  unfold candidates
  by_cases he : selects e = true
  · rw [if_pos he, SortedSet.mem_insertAll, SortedSet.mem_ofList, h.mem_filedUnder, h.mem_about]
    constructor
    · rintro (⟨ha, hd⟩ | ⟨ha, hd⟩)
      · exact ⟨ha, he, AxiomKind.defining_of_mem_leftSide hd⟩
      · exact ⟨ha, he, hd⟩
    · rintro ⟨ha, _, hd⟩
      exact .inr ⟨ha, hd⟩
  · rw [if_neg he, SortedSet.mem_ofList, h.mem_filedUnder]
    constructor
    · exact fun ha => absurd (AxiomKind.selects_of_mem_leftSide ha.2) he
    · exact fun ha => absurd ha.2.1 he

theorem IsSound.leadsTo_eq (h : s.IsSound) (ha : a ∈ s.axioms) : s.leadsTo a = a.kind.ledTo := by
  unfold leadsTo
  rw [h.map.right, if_pos (SortedSet.mem_toList.2 ha)]
  rfl

theorem IsSound.mem_leadsTo (h : s.IsSound) (ha : a ∈ s.axioms) :
    e ∈ s.leadsTo a ↔ e ∈ a.kind.rightSide := by
  rw [h.leadsTo_eq ha, AxiomKind.mem_ledTo]

end Staging

/-- The entity that an explanation starts from is one that selects axioms. -/
theorem Seeds.selects_source {k : AxiomKind} (h : (Seeds.ofKind k).source = some e) :
    Staging.selects e = true := by
  have hclasses {ops : SortedSet ClassExpression} (he : (Seeds.ofOperands ops).source = some e) :
      Staging.selects e = true := by
    obtain ⟨c, _, hc⟩ := List.mem_filterMap.1 (List.mem_of_getElem? he)
    exact ClassExpression.selects_of_named hc
  cases k <;> simp only [Seeds.ofKind, Seeds.none, reduceCtorEq] at h
  case subClassOf => exact ClassExpression.selects_of_named h
  case equivalentClasses | disjointClasses => exact hclasses h
  case subObjectPropertyOf => exact ObjectPropertyExpression.selects_of_named h
  case classAssertion =>
    split at h
    · exact Individual.selects_of_named h
    · cases h

end OwlStructure
