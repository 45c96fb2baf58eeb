import OwlStructure.Proofs.Explanation.Building
import OwlStructure.Proofs.Explanation.Candidates

/-!
The two sources of candidates. A builder looks the axioms that explain an entity up in its own map,
by their left sides, and in the staging ontology, by what they are about. The map files an axiom
under nothing that the axiom is not about, so the candidates are those of the ontology.
-/
namespace OwlStructure

/-- A justification staged in an ontology of a library. -/
def Staging.inOntology (config : ExplanationConfig) (l : Library) (r : OntologyRef)
    (justification : List Axiom) : Staging :=
  let axioms := SortedSet.ofList justification
  ⟨config, axioms, ((l.addAll r axioms.toList).2.get r).index, .build axioms.toList⟩

variable {l l' : Library} {id : Iri} {r : OntologyRef}

theorem Library.isRegistered_of_create? (h : l.create? id = .ok (r, l')) :
    l.isRegistered id = false := by
  by_contra hid
  rw [create?_of_taken (by simpa using hid)] at h
  cases h

theorem Staging.isSound_inOntology (h : l.create? id = .ok (r, l')) (config : ExplanationConfig)
    (justification : List Axiom) : (inOntology config l' r justification).IsSound := by
  have hfree : ¬ l.isRegistered id = true := by simp [Library.isRegistered_of_create? h]
  rw [Library.create?_of_free hfree, Except.ok.injEq] at h
  have hs := (l.holds_register id hfree).addAll (SortedSet.ofList justification).toList
  rw [foldl_appendNew (SortedSet.nodup_toList _), List.nil_append, h] at hs
  exact ⟨hs.represents, AxiomMap.build_represents (SortedSet.nodup_toList _)⟩

theorem ExplanationOrderer.order_eq_build {o : ExplanationOrderer} {number : Nat}
    (h : l.create? (o.stagingId number) = .ok (r, l')) (entailment : Axiom)
    (justification : List Axiom) :
    (o.order l number entailment justification).1 =
      .ok (build (.inOntology o.config l' r justification) ∅ entailment).1 := by
  obtain ⟨t, ht⟩ := (order_isOk_iff o l number entailment justification).2
    (Library.isRegistered_of_create? h)
  rw [ht]
  simp only [order, h] at ht
  split at ht
  · cases ht
  · exact ht.symm

theorem Staging.IsSound.candidates_eq {s : Staging} (h : s.IsSound) (e : Entity) :
    s.candidates e = if selects e = true then .ofList (s.index.about e) else ∅ := by
  refine SortedSet.ext fun a => ?_
  rw [h.mem_candidates]
  split
  · next he => rw [SortedSet.mem_ofList, h.mem_about]; simp [he]
  · next he => simp [he]

/-- The map of a justification files an axiom only under entities that the axiom is about, all of
them classes, object or data properties or named individuals, and leads from an axiom only to
entities of its signature. So when the staging IRI is free and a builder arranges a tree, the
candidates of an entity are the staged axioms about it if the entity is of one of these four kinds,
and there are none otherwise. -/
theorem Staging.candidates_staged_about (o : ExplanationOrderer) (justification : List Axiom) :
    let selecting : List EntityKind :=
      [.namedClass, .objectProperty, .dataProperty, .namedIndividual]
    let map := AxiomMap.build (SortedSet.ofList justification).toList
    (∀ a e, a ∈ map.filedUnder e → e ∈ a.defining ∧ e.kind ∈ selecting) ∧
      (∀ a e, e ∈ map.rightOf a → e ∈ signature a) ∧
      ∀ (l l' : Library) (number : Nat) (r : OntologyRef),
        l.create? (o.stagingId number) = .ok (r, l') →
        let s := Staging.inOntology o.config l' r justification
        s.map = map ∧
          (∀ entailment, (o.order l number entailment justification).1 =
            .ok (ExplanationOrderer.build s ∅ entailment).1) ∧
          ∀ e, (∀ a, a ∈ s.index.about e ↔ a ∈ justification ∧ e ∈ a.defining) ∧
            s.candidates e = if e.kind ∈ selecting then .ofList (s.index.about e) else ∅ := by
  intro selecting map
  have hmap := AxiomMap.build_represents (SortedSet.ofList justification).nodup_toList
  refine ⟨fun a e ha => ?_, fun a e he => ?_, ?_⟩
  · have hleft := (hmap.mem_filedUnder.1 ha).2
    exact ⟨AxiomKind.defining_of_mem_leftSide hleft,
      selects_iff.1 (AxiomKind.selects_of_mem_leftSide hleft)⟩
  · rw [hmap.right] at he
    split at he
    · exact Axiom.mem_signature_of_mem_rightSide he
    · exact absurd he (SortedSet.not_mem_empty e)
  · intro l l' number r h s
    have hsound : s.IsSound := isSound_inOntology h o.config justification
    refine ⟨rfl, fun entailment => ExplanationOrderer.order_eq_build h entailment justification,
      fun e => ⟨fun a => ?_, ?_⟩⟩
    · rw [hsound.mem_about]
      exact and_congr_left' SortedSet.mem_ofList
    · rw [hsound.candidates_eq]
      exact if_congr selects_iff rfl rfl

/-- The map files the inverse of an inverse property under nothing, and the class of an anonymous
individual neither. The axiom about the property is a candidate all the same. -/
theorem Staging.candidates_staged_about_inverse :
    let o := ExplanationOrderer.new default
    let p : ObjectPropertyExpression := .named ⟨⟨"p"⟩⟩
    let i : Individual := .anonymous ⟨"_:i"⟩
    let inverse : Axiom := .transitiveObjectProperty (.inverse p)
    let typed : Axiom := .classAssertion (.named .thing) i
    let library := ((Library.empty 1).register (o.stagingId 0) (by decide)).2
    let s := Staging.inOntology o.config library ⟨0, o.stagingId 0⟩ [typed, inverse]
    (Library.empty 1).create? (o.stagingId 0) = .ok (⟨0, o.stagingId 0⟩, library) ∧
      s.map.filedUnder p.entity = [] ∧ s.candidates p.entity = .ofList [inverse] ∧
      typed ∈ s.index.about i.entity ∧ s.candidates i.entity = ∅ := by
  intro o p i inverse typed library s
  have h : (Library.empty 1).create? (o.stagingId 0) = .ok (⟨0, o.stagingId 0⟩, library) := rfl
  obtain ⟨-, -, hstaged⟩ := candidates_staged_about o [typed, inverse]
  obtain ⟨-, -, hcandidates⟩ := hstaged _ _ _ _ h
  obtain ⟨-, hp⟩ := hcandidates p.entity
  obtain ⟨habout, hi⟩ := hcandidates i.entity
  refine ⟨h, by decide, ?_, (habout typed).2 (by decide), hi⟩
  rw [hp, if_pos (by decide)]
  decide

end OwlStructure
