import OwlStructure.Library
import OwlStructure.Proofs.Collections.SortedSet
import OwlStructure.Proofs.Store.Index

/-!
Runs of changes to one ontology of a library. After any run, from an ontology without axioms, every
question that the ontology answers has the answer that one list of axioms without repetition gives.
-/
namespace OwlStructure

/-- A change to an ontology. -/
inductive Edit where
  | add (a : Axiom)
  | addAll (as : List Axiom)
  | remove (a : Axiom)
  | addImport (target : OntologyRef)
  | removeImport (id : Iri)

namespace Edit

/-- The library after a change to one of its ontologies. -/
def apply (l : Library) (r : OntologyRef) : Edit → Library
  | .add a => (l.add r a).2
  | .addAll as => (l.addAll r as).2
  | .remove a => (l.remove r a).2
  | .addImport target => (l.addImport r target).2
  | .removeImport id => (l.removeImport r id).2

/-- What a change does to a list of axioms. -/
def onAxioms (l : List Axiom) : Edit → List Axiom
  | .add a => appendNew l a
  | .addAll as => as.foldl appendNew l
  | .remove a => l.erase a
  | .addImport _ => l
  | .removeImport _ => l

/-- The library after a run of changes. -/
def run (l : Library) (r : OntologyRef) (edits : List Edit) : Library :=
  edits.foldl (fun l e => e.apply l r) l

/-- The list of axioms that a run leaves, when it starts from none. -/
def axiomsAfter (edits : List Edit) : List Axiom := edits.foldl onAxioms []

end Edit

/-! ### Changes to one place of a library -/

theorem Ontology.index_add (o : Ontology) (cache : SignatureCache Axiom) (object : Shared Axiom) :
    (o.add cache object).2.1.index =
      (o.index.insert object.value (references object.value)).2 := by
  unfold Ontology.add Ontology.contains AxiomIndex.insert
  by_cases h : o.index.contains object.value = true
  · simp only [h, ↓reduceIte]
  · simp only [h, Bool.false_eq_true, ↓reduceIte, SignatureCache.signatureOf,
      SignatureCache.anonymousOf, Recent.lookup_result, references]

theorem Ontology.index_remove (o : Ontology) (a : Axiom) :
    (o.remove a).2.index = (o.index.remove a).2 := by
  unfold Ontology.remove AxiomIndex.remove
  by_cases h : o.index.contains a = true <;> simp [h]

theorem Ontology.index_addImport (o : Ontology) (target : OntologyRef) :
    (o.addImport target).2.index = o.index := by
  unfold Ontology.addImport
  split <;> rfl

theorem Ontology.index_removeImport (o : Ontology) (id : Iri) :
    (o.removeImport id).2.index = o.index := by
  unfold Ontology.removeImport
  split <;> rfl

namespace Library

variable {l l' : Library} {r : OntologyRef} {o : Ontology} {L : List Axiom}

/-- A library has, at the place of a reference, an ontology whose index represents a list. -/
structure Holds (l : Library) (r : OntologyRef) (L : List Axiom) : Prop where
  hasPlace : r.position < l.ontologies.length
  represents : (l.get r).index.Represents L

theorem get_eq_of_set (h : r.position < l.ontologies.length)
    (hs : l'.ontologies = l.ontologies.set r.position o) : l'.get r = o := by
  unfold get
  rw [hs, List.getElem?_set_self h, Option.getD_some]

/-- Replacing the ontology of a reference replaces the list by that of the new ontology. -/
theorem Holds.of_set {L' : List Axiom} (h : l.Holds r L)
    (hs : l'.ontologies = l.ontologies.set r.position o) (ho : o.index.Represents L') :
    l'.Holds r L' where
  hasPlace := by rw [hs, List.length_set]; exact h.hasPlace
  represents := by rw [get_eq_of_set h.hasPlace hs]; exact ho

/-- Adding an axiom changes one ontology, whichever cache it looks entities up in. -/
theorem ontologies_add (l : Library) (r : OntologyRef) (a : Axiom) : ∃ cache own,
    (l.add r a).2.ontologies = l.ontologies.set r.position
      { ((l.get r).add cache ⟨l.nextObject, a⟩).2.1 with ownCache := own } := by
  cases hc : (l.get r).ownCache with
  | some cache =>
    refine ⟨cache, some ((l.get r).add cache ⟨l.nextObject, a⟩).2.2, ?_⟩
    simp only [add, hc]
    rfl
  | none =>
    refine ⟨l.cache, ((l.get r).add l.cache ⟨l.nextObject, a⟩).2.1.ownCache, ?_⟩
    simp only [add, hc]
    rfl

theorem Holds.add (h : l.Holds r L) (a : Axiom) :
    (l.add r a).2.Holds r (appendNew L a) := by
  obtain ⟨cache, own, hs⟩ := ontologies_add l r a
  refine h.of_set hs ?_
  show AxiomIndex.Represents ((l.get r).add cache ⟨l.nextObject, a⟩).2.1.index _
  rw [Ontology.index_add]
  exact h.represents.insert a

theorem Holds.addAll (h : l.Holds r L) (as : List Axiom) :
    (l.addAll r as).2.Holds r (as.foldl appendNew L) := by
  induction as generalizing l L with
  | nil => exact h
  | cons a as ih => exact ih (h.add a)

theorem Holds.remove (h : l.Holds r L) (a : Axiom) : (l.remove r a).2.Holds r (L.erase a) := by
  refine h.of_set rfl ?_
  rw [Ontology.index_remove]
  exact h.represents.remove a

theorem Holds.addImport (h : l.Holds r L) (target : OntologyRef) :
    (l.addImport r target).2.Holds r L := by
  refine h.of_set rfl ?_
  rw [Ontology.index_addImport]
  exact h.represents

theorem Holds.removeImport (h : l.Holds r L) (id : Iri) : (l.removeImport r id).2.Holds r L := by
  refine h.of_set rfl ?_
  rw [Ontology.index_removeImport]
  exact h.represents

theorem Holds.apply (h : l.Holds r L) (e : Edit) : (e.apply l r).Holds r (e.onAxioms L) := by
  cases e with
  | add a => exact h.add a
  | addAll as => exact h.addAll as
  | remove a => exact h.remove a
  | addImport target => exact h.addImport target
  | removeImport id => exact h.removeImport id

theorem Holds.run (h : l.Holds r L) (edits : List Edit) :
    (Edit.run l r edits).Holds r (edits.foldl Edit.onAxioms L) := by
  unfold Edit.run
  induction edits generalizing l L with
  | nil => exact h
  | cons e edits ih => exact ih (h.apply e)

theorem Holds.of_empty {own : Option (SignatureCache Axiom)}
    (h : l.ontologies[r.position]? = some (.empty r.id own)) : l.Holds r [] where
  hasPlace := (List.getElem?_eq_some_iff.1 h).1
  represents := by
    unfold get
    rw [h, Option.getD_some]
    exact .empty

end Library

/-! ### What an ontology answers -/

/-- An ontology answers every question about its axioms as a list of axioms does. -/
structure Ontology.Refines (o : Ontology) (L : List Axiom) : Prop where
  nodup : L.Nodup
  axioms_eq : o.axioms = L
  ofType_eq : ∀ t, o.index.ofType t = L.filter fun a => a.type = t
  about_eq : ∀ e, o.index.about e = L.filter fun a => e ∈ a.defining
  mentioning_eq : ∀ e, o.index.mentioning e = L.filter fun a =>
    e ∈ OwlStructure.signature a ∨ e ∈ (anonymousIndividuals a).map Entity.anonymousIndividual
  mem_signature : ∀ e, e ∈ o.signature ↔ ∃ a ∈ L, e ∈ OwlStructure.signature a
  mem_objectProperties : ∀ p, p ∈ o.index.objectProperties ↔
    ∃ a ∈ L, .objectProperty p ∈ OwlStructure.signature a
  axiomCount_eq : o.stats.axiomCount = L.length
  entityCount_eq : o.stats.entityCount = (L.flatMap references).toFinset.card
  find?_axiomsByType : ∀ t, o.stats.axiomsByType.find? t =
    if ∃ a ∈ L, a.type = t then some (L.countP fun a => a.type = t) else none

theorem mem_references [HasEntities α] {a : α} {e : Entity} :
    e ∈ references a ↔
      e ∈ signature a ∨ e ∈ (anonymousIndividuals a).map Entity.anonymousIndividual := by
  unfold references
  rw [List.mem_append, SortedSet.mem_toList, List.mem_map, SortedSet.mem_map]
  rfl

theorem mem_signature_iff_mem_references [HasEntities α] {a : α} {e : Entity} :
    e ∈ signature a ↔ e ∈ references a ∧ e.isAnonymous = false := by
  constructor
  · intro h
    exact ⟨mem_references.2 (.inl h), (mem_signature.1 h).2⟩
  · rintro ⟨h, hn⟩
    rcases mem_references.1 h with h | h
    · exact h
    · obtain ⟨i, _, rfl⟩ := SortedSet.mem_map.1 h
      cases hn

theorem AxiomIndex.Represents.refines {o : Ontology} {L : List Axiom} (h : o.index.Represents L) :
    o.Refines L where
  nodup := h.nodup
  axioms_eq := h.axioms_eq
  ofType_eq t := h.ofType_eq t
  about_eq e := h.about_eq e
  mentioning_eq e := by
    rw [h.mentioning_eq]
    congr 1
    funext a
    exact decide_eq_decide.2 mem_references
  mem_signature e := by
    unfold Ontology.signature
    rw [SortedSet.mem_filter, h.mem_mentioned]
    simp only [Bool.not_eq_eq_eq_not, Bool.not_true, mem_signature_iff_mem_references]
    constructor
    · rintro ⟨⟨a, ha, he⟩, hn⟩
      exact ⟨a, ha, he, hn⟩
    · rintro ⟨a, ha, he, hn⟩
      exact ⟨⟨a, ha, he⟩, hn⟩
  mem_objectProperties p := by
    unfold AxiomIndex.objectProperties
    rw [SortedSet.mem_ofList, List.mem_filterMap]
    constructor
    · rintro ⟨e, he, hp⟩
      cases e <;> simp only [Entity.asObjectProperty?, reduceCtorEq, Option.some.injEq] at hp
      obtain ⟨a, ha, hr⟩ := (h.mem_mentioned _).1 he
      exact ⟨a, ha, mem_signature_iff_mem_references.2 ⟨hp ▸ hr, rfl⟩⟩
    · rintro ⟨a, ha, he⟩
      have hr := (mem_signature_iff_mem_references.1 he).1
      exact ⟨.objectProperty p, (h.mem_mentioned _).2 ⟨a, ha, hr⟩, rfl⟩
  axiomCount_eq := h.size_eq
  entityCount_eq := SortedSet.size_eq_card fun e => by
    rw [h.mem_mentioned, List.mem_toFinset, List.mem_flatMap]
  find?_axiomsByType t := h.find?_typeCounts t

/-- Through any run of changes to an ontology that starts without axioms, the ontology refines one
list: an added axiom goes to its end unless the list has it, a removed one leaves the others in
order, and imports leave it as it is. -/
theorem Ontology.run_refines (l : Library) (r : OntologyRef)
    (own : Option (SignatureCache Axiom))
    (h : l.ontologies[r.position]? = some (.empty r.id own)) (edits : List Edit) :
    ((Edit.run l r edits).get r).Refines (Edit.axiomsAfter edits) :=
  ((Library.Holds.of_empty h).run edits).represents.refines

/-- An axiom about one property twice is added, removed and added again behind another. -/
theorem Ontology.run_refines_readded :
    let r : OntologyRef := ⟨0, ⟨"o"⟩⟩
    let l := ((Library.empty 1).standalone r.id).2
    let p : ObjectPropertyExpression := .named ⟨⟨"p"⟩⟩
    let a : Axiom := ⟨.equivalentObjectProperties (.ofList [p, .inverse p]), rfl⟩
    let b : Axiom := .symmetricObjectProperty p
    l.ontologies[r.position]? =
        some (.empty r.id (some (.empty SignatureCache.defaultCapacity))) ∧
      ((Edit.run l r [.add a, .add b, .remove a, .addAll [b, a]]).get r).Refines [b, a] := by
  intro r l p a b
  have hempty : l.ontologies[r.position]? =
      some (.empty r.id (some (.empty SignatureCache.defaultCapacity))) := rfl
  have hrun := Ontology.run_refines l r _ hempty [.add a, .add b, .remove a, .addAll [b, a]]
  have hlist : Edit.axiomsAfter [.add a, .add b, .remove a, .addAll [b, a]] = [b, a] := by decide
  rw [hlist] at hrun
  exact ⟨hempty, hrun⟩

end OwlStructure
