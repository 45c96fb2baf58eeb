import OwlStructure.Proofs.Expression.ClassTerm
import OwlStructure.Proofs.Store.Edits

/-!
What an axiom is about, it mentions. So in every library that can come about, the axioms that an
ontology files under an entity as being about it are among those that it files there as mentioning
it, and every entity that an axiom is about is counted.
-/
namespace OwlStructure

variable {e : Entity}

theorem AxiomKind.mem_entities_of_mem_defining {k : AxiomKind} (h : e ∈ k.defining) :
    e ∈ k.entities := by
  have hnamed {c : ClassExpression} (he : e ∈ c.namedEntity?.toList) : e ∈ c.entities :=
    ClassExpression.mem_entities_of_named (Option.mem_toList.1 he)
  cases k <;> simp only [defining, List.not_mem_nil] at h
  case subClassOf => exact List.mem_append_left _ (hnamed h)
  case equivalentClasses | disjointClasses =>
    obtain ⟨c, hc, he⟩ := List.mem_filterMap.1 h
    exact List.mem_flatMap.2 ⟨c, hc, ClassExpression.mem_entities_of_named he⟩
  case hasKey => exact List.mem_append_left _ (List.mem_append_left _ (hnamed h))
  case classAssertion => exact List.mem_append_right _ h
  case objectPropertyAssertion | negativeObjectPropertyAssertion | dataPropertyAssertion =>
    exact List.mem_cons_of_mem _ (List.mem_cons.2 (.inl (List.mem_singleton.1 h)))
  case inverseObjectProperties first second =>
    split at h
    · exact List.mem_cons.2 (.inl (List.mem_singleton.1 h))
    · exact h
  case equivalentObjectProperties | disjointObjectProperties | equivalentDataProperties
      | disjointDataProperties | sameIndividual | differentIndividuals => exact h
  all_goals exact List.mem_cons.2 (.inl (List.mem_singleton.1 h))

theorem mem_references_of_mem_entities [HasEntities α] {a : α} (h : e ∈ entities a) :
    e ∈ references a := by
  rw [mem_references, mem_signature, SortedSet.mem_map]
  cases e with
  | anonymousIndividual i => exact .inr ⟨i, mem_anonymousIndividuals.2 h, rfl⟩
  | _ => exact .inl ⟨h, rfl⟩

theorem Axiom.mem_references_of_mem_defining {a : Axiom} (h : e ∈ a.defining) :
    e ∈ references a :=
  mem_references_of_mem_entities (AxiomKind.mem_entities_of_mem_defining h)

namespace AxiomIndex.Represents

variable {x : AxiomIndex} {l : List Axiom}

theorem about_sublist_mentioning (h : x.Represents l) (e : Entity) :
    (x.about e).Sublist (x.mentioning e) := by
  rw [h.about_eq, h.mentioning_eq]
  refine List.monotone_filter_right l fun a ha => ?_
  exact decide_eq_true (Axiom.mem_references_of_mem_defining (of_decide_eq_true ha))

theorem mentioning_ne_nil_iff (h : x.Represents l) (e : Entity) :
    x.mentioning e ≠ [] ↔ e ∈ x.mentioned := by
  rw [h.mem_mentioned, h.mentioning_eq, ne_eq, List.filter_eq_nil_iff]
  simp [mentions]

end AxiomIndex.Represents

/-! ### Libraries that can come about -/

namespace Library

/-- The libraries that come about from an empty one when ontologies are made, registered and not
registered any more, and changed, and the cache is purged. -/
inductive Reachable : Library → Prop where
  | empty (capacity : Nat) : Reachable (.empty capacity)
  | standalone {l : Library} (id : Iri) : Reachable l → Reachable (l.standalone id).2
  | create {l l' : Library} {id : Iri} {r : OntologyRef} :
      Reachable l → l.create? id = .ok (r, l') → Reachable l'
  | unregister {l l' : Library} {id : Iri} {r : OntologyRef} :
      Reachable l → l.unregister? id = .ok (r, l') → Reachable l'
  | edit {l : Library} (r : OntologyRef) (e : Edit) : Reachable l → Reachable (e.apply l r)
  | purge {l : Library} (roots : List OntologyRef) : Reachable l → Reachable (l.purge roots).2

/-- The index of every ontology represents some list of axioms. -/
def Indexed (l : Library) : Prop := ∀ o ∈ l.ontologies, ∃ L, o.index.Represents L

namespace Indexed

variable {l l' : Library} {r : OntologyRef} {o : Ontology} {L : List Axiom}

theorem get (h : l.Indexed) (r : OntologyRef) : ∃ L, (l.get r).index.Represents L := by
  unfold Library.get
  cases ho : l.ontologies[r.position]? with
  | none => exact ⟨[], .empty⟩
  | some o => exact h o (List.mem_of_getElem? ho)

theorem of_append (h : l.Indexed) (hs : l'.ontologies = l.ontologies ++ [o])
    (ho : o.index.Represents L) : l'.Indexed := by
  intro x hx
  rw [hs, List.mem_append, List.mem_singleton] at hx
  rcases hx with hx | rfl
  · exact h x hx
  · exact ⟨L, ho⟩

theorem of_set (h : l.Indexed) (hs : l'.ontologies = l.ontologies.set r.position o)
    (ho : o.index.Represents L) : l'.Indexed := by
  intro x hx
  rw [hs] at hx
  rcases List.mem_or_eq_of_mem_set hx with hx | rfl
  · exact h x hx
  · exact ⟨L, ho⟩

theorem add (h : l.Indexed) (r : OntologyRef) (a : Axiom) : (l.add r a).2.Indexed := by
  obtain ⟨cache, own, hs⟩ := ontologies_add l r a
  obtain ⟨L, hL⟩ := h.get r
  have hadded : ((l.get r).add cache ⟨l.nextObject, a⟩).2.1.index.Represents (appendNew L a) := by
    rw [Ontology.index_add]
    exact hL.insert a
  exact h.of_set hs hadded

theorem addAll (h : l.Indexed) (r : OntologyRef) (as : List Axiom) :
    (l.addAll r as).2.Indexed := by
  induction as generalizing l with
  | nil => exact h
  | cons a as ih => exact ih (h.add r a)

theorem apply (h : l.Indexed) (r : OntologyRef) (e : Edit) : (e.apply l r).Indexed := by
  obtain ⟨L, hL⟩ := h.get r
  cases e with
  | add a => exact h.add r a
  | addAll as => exact h.addAll r as
  | remove a => exact h.of_set rfl ((l.get r).index_remove a ▸ hL.remove a)
  | addImport target => exact h.of_set rfl ((l.get r).index_addImport target ▸ hL)
  | removeImport id => exact h.of_set rfl ((l.get r).index_removeImport id ▸ hL)

end Indexed

theorem Reachable.indexed {l : Library} (h : l.Reachable) : l.Indexed := by
  induction h with
  | empty capacity => exact fun o ho => absurd ho List.not_mem_nil
  | standalone id _ ih => exact ih.of_append rfl .empty
  | @create l l' id r _ hcreate ih =>
    by_cases hid : l.isRegistered id = true
    · rw [create?, dif_pos hid] at hcreate
      cases hcreate
    · rw [create?, dif_neg hid] at hcreate
      cases hcreate
      exact ih.of_append rfl .empty
  | @unregister l l' id r _ hunregister ih =>
    unfold unregister? at hunregister
    split at hunregister
    · cases hunregister
      exact ih
    · cases hunregister
  | edit r e _ ih => exact ih.apply r e
  | purge roots _ ih => exact ih

end Library

/-- In whatever way a library came about, and for every ontology of it. An entity that an axiom is
about is in the signature of the axiom or among its anonymous individuals. The axioms about an
entity are a part of those that mention the entity, in the same order. The books of the ontology
count the entities that some axiom of it mentions, and thereby all that one is about. -/
theorem Ontology.subjects_mentioned (l : Library) (h : l.Reachable) (r : OntologyRef) :
    let o := l.get r
    (∀ (a : Axiom) (e : Entity), e ∈ a.defining →
      e ∈ OwlStructure.signature a ∨
        e ∈ (anonymousIndividuals a).map Entity.anonymousIndividual) ∧
      (∀ e, (o.index.about e).Sublist (o.index.mentioning e)) ∧
      ∃ counted : Finset Entity, o.stats.entityCount = counted.card ∧
        (∀ e, e ∈ counted ↔ o.index.mentioning e ≠ []) ∧
        ∀ a ∈ o.axioms, ∀ e ∈ a.defining, a ∈ o.index.about e ∧ e ∈ counted := by
  intro o
  obtain ⟨L, hL⟩ := h.indexed.get r
  refine ⟨fun a e he => mem_references.1 (Axiom.mem_references_of_mem_defining he),
    hL.about_sublist_mentioning, o.index.mentioned.toList.toFinset, ?_, fun e => ?_, ?_⟩
  · exact SortedSet.size_eq_card fun e => by rw [List.mem_toFinset, SortedSet.mem_toList]
  · rw [hL.mentioning_ne_nil_iff, List.mem_toFinset, SortedSet.mem_toList]
  · intro a ha e he
    have haL : a ∈ L := hL.axioms_eq ▸ ha
    have habout : a ∈ o.index.about e := by
      rw [hL.about_eq, List.mem_filter]
      exact ⟨haL, decide_eq_true he⟩
    refine ⟨habout, ?_⟩
    rw [List.mem_toFinset, SortedSet.mem_toList, hL.mem_mentioned]
    exact ⟨a, haL, Axiom.mem_references_of_mem_defining he⟩

/-- Two ontologies share a cache; one of them has an axiom that is about a property twice, and one
that is about an anonymous individual. -/
theorem Ontology.subjects_mentioned_anonymous :
    let second : OntologyRef := ⟨1, ⟨"p"⟩⟩
    let p : ObjectPropertyExpression := .named ⟨⟨"p"⟩⟩
    let i : AnonymousIndividual := ⟨"_:i"⟩
    let twice : Axiom := ⟨.equivalentObjectProperties (.ofList [p, .inverse p]), rfl⟩
    let typed := Axiom.classAssertion (.named .thing) (.anonymous i)
    ∃ l : Library, l.Reachable ∧ (l.get second).axioms = [twice, typed] ∧
      ((l.get second).index.about p.entity).Sublist ((l.get second).index.mentioning p.entity) ∧
      typed ∈ (l.get second).index.about (.anonymousIndividual i) := by
  intro second p i twice typed
  let first : OntologyRef := ⟨0, ⟨"o"⟩⟩
  let one := ((Library.empty 1).register first.id (by decide)).2
  let two := (one.register second.id (by decide)).2
  let shared := (Edit.add twice).apply ((Edit.add twice).apply two first) second
  let l := (Edit.add typed).apply ((Edit.remove twice).apply shared first) second
  have hfirst : (Library.empty 1).create? first.id = .ok (first, one) := rfl
  have hsecond : one.create? second.id = .ok (second, two) := rfl
  have htwo : two.Reachable := .create (.create (.empty 1) hfirst) hsecond
  have hshared : shared.Reachable := .edit second _ (.edit first _ htwo)
  have hreachable : l.Reachable := .edit second _ (.edit first _ hshared)
  have haxioms : (l.get second).axioms = [twice, typed] := by decide
  obtain ⟨-, hsublist, counted, -, -, hsubject⟩ := subjects_mentioned l hreachable second
  refine ⟨l, hreachable, haxioms, hsublist _, (hsubject typed ?_ _ List.mem_cons_self).1⟩
  rw [haxioms]
  exact List.mem_cons_of_mem _ List.mem_cons_self

end OwlStructure
