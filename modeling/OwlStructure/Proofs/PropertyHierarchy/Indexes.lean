import OwlStructure.Proofs.PropertyHierarchy.ChainOrder
import OwlStructure.Proofs.PropertyHierarchy.Composite
import OwlStructure.Proofs.PropertyHierarchy.Equivalence
import OwlStructure.Proofs.Store.Subjects

/-!
The results of an analyzer from the indexes of the ontologies in scope. Each result needs the axioms
of a few types alone, which the indexes file by type, and the object properties that the indexes
list. In whatever way a library came about, the indexes give the same results as all axioms.
-/
namespace OwlStructure

namespace PropertyHierarchy

variable {axioms : List Axiom} {types : List AxiomType} {a : Axiom} {m : PropertyMap}

/-- The axioms of some types, type by type. -/
def ofTypes (types : List AxiomType) (axioms : List Axiom) : List Axiom :=
  types.flatMap fun t => axioms.filter fun a => a.type = t

theorem mem_ofTypes : a ∈ ofTypes types axioms ↔ a ∈ axioms ∧ a.type ∈ types := by
  simp only [ofTypes, List.mem_flatMap, List.mem_filter, decide_eq_true_eq]
  constructor
  · rintro ⟨t, ht, ha, rfl⟩
    exact ⟨ha, ht⟩
  · rintro ⟨ha, ht⟩
    exact ⟨_, ht, ha, rfl⟩

/-- For a property of axioms of some types, other axioms do not count. -/
theorem exists_mem_ofTypes {P : Axiom → Prop} (h : ∀ a, P a → a.type ∈ types) :
    (∃ a ∈ ofTypes types axioms, P a) ↔ ∃ a ∈ axioms, P a := by
  constructor
  · rintro ⟨a, ha, hp⟩
    exact ⟨a, (mem_ofTypes.1 ha).1, hp⟩
  · rintro ⟨a, ha, hp⟩
    exact ⟨a, mem_ofTypes.2 ⟨ha, h a hp⟩, hp⟩

/-! ### The types that count -/

/-- The types of the axioms that declare steps of the hierarchy. -/
def stepTypes : List AxiomType :=
  [.subObjectPropertyOf, .equivalentObjectProperties, .inverseObjectProperties,
    .symmetricObjectProperty]

/-- The types of the axioms that make properties composite. -/
def compositeTypes : List AxiomType :=
  [.inverseObjectProperties, .equivalentObjectProperties, .transitiveObjectProperty,
    .subPropertyChainOf]

theorem Declares.type_mem {k : AxiomKind} {p q : ObjectPropertyExpression} (h : Declares k p q) :
    k.type ∈ stepTypes := by
  cases h <;> simp [AxiomKind.type, stepTypes]

theorem Pairs.type_mem {k : AxiomKind} {p q : ObjectPropertyExpression} (h : Pairs k p q) :
    k.type ∈ compositeTypes := by
  cases h <;> simp [AxiomKind.type, compositeTypes]

theorem type_mem_of_mem_compositeSeeds {k : AxiomKind} {p : ObjectPropertyExpression}
    (h : p ∈ compositeSeeds k) : k.type ∈ compositeTypes := by
  rcases mem_compositeSeeds.1 h with rfl | ⟨members, rfl, -⟩ <;>
    simp [AxiomKind.type, compositeTypes]

theorem direct_ofTypes (axioms : List Axiom) :
    direct (ofTypes stepTypes axioms) = direct axioms := by
  apply (noneEmpty_direct _).ext (noneEmpty_direct _)
  intro p q
  rw [leads_direct, leads_direct]
  apply exists_mem_ofTypes
  rintro a ⟨sub, sup, h, -⟩
  exact h.type_mem

theorem composite_ofTypes (axioms : List Axiom) :
    composite (ofTypes compositeTypes axioms) = composite axioms := by
  have hseeds (s : ObjectPropertyExpression) :
      s ∈ seeds (ofTypes compositeTypes axioms) ↔ s ∈ seeds axioms := by
    rw [mem_seeds, mem_seeds, exists_mem_ofTypes fun a => type_mem_of_mem_compositeSeeds]
  have hmarked (s x : ObjectPropertyExpression) :
      x ∈ marked (ofTypes compositeTypes axioms) s ↔ x ∈ marked axioms s := by
    have htypes (t : ObjectPropertyExpression) (a : Axiom)
        (h : ∃ q ∈ partners t a.kind, x ∈ bothWays q) : a.kind.type ∈ compositeTypes := by
      obtain ⟨q, hq, -⟩ := h
      obtain ⟨p, hp, -⟩ := pairs_of_mem_partners hq
      exact hp.type_mem
    simp only [mem_marked, exists_mem_ofTypes (htypes _)]
  apply SortedSet.ext
  intro x
  simp only [composite, SortedSet.mem_ofList, List.mem_flatMap, hseeds, hmarked]

theorem withChains_ofTypes (axioms : List Axiom) (hm : m.NoneEmpty) :
    withChains (ofTypes [.subPropertyChainOf] axioms) m = withChains axioms m := by
  apply (hm.foldl_addArrow _).ext (hm.foldl_addArrow _)
  intro p q
  show (withChains _ m).Leads p q ↔ (withChains _ m).Leads p q
  rw [leads_withChains, leads_withChains, chainStep_iff, chainStep_iff]
  apply or_congr_right
  apply exists_mem_ofTypes
  intro a h
  obtain ⟨chain, sup, hk, -⟩ := mem_chainArrows.1 h
  exact List.mem_singleton.2 (congrArg AxiomKind.type hk)

theorem subPropertyArrows_ofTypes (axioms : List Axiom) :
    subPropertyArrows (ofTypes [.subObjectPropertyOf] axioms) = subPropertyArrows axioms := by
  apply SortedSet.ext
  intro ⟨p, q⟩
  rw [← SortedSet.mem_toList, ← SortedSet.mem_toList, mem_subPropertyArrows, mem_subPropertyArrows]
  apply exists_mem_ofTypes
  rintro a ⟨sub, sup, hk, -⟩
  exact List.mem_singleton.2 (congrArg AxiomKind.type hk)

/-! ### Results from the object properties that are mentioned -/

/-- The closure of a relation, with entries for some object properties and their inverses. -/
def closureOn (properties : SortedSet ObjectProperty) (m : PropertyMap) : PropertyMap :=
  .tabulate
    (.ofList <|
      properties.toList.flatMap (fun p => [.named p, .inverse (.named p)]) ++
        m.entries.flatMap fun e => e.1 :: e.2.toList)
    m.reachable

/-- The equivalence classes that some arrows make among some object properties and the other ends of
the arrows. -/
def classesOn (properties : SortedSet ObjectProperty) (arrows : SortedSet PropertyArrow) :
    List (SortedSet ObjectPropertyExpression) :=
  let members :=
    (arrows.toList.flatMap fun e => [e.1, e.2]).foldl appendNew (properties.toList.map .named)
  let components := (arrowGraph members arrows.toList).components
  SortedSet.maximal <|
    (components.filter fun c => 1 < c.length).map fun c => .ofList (c.map (members[·]))

theorem closureOn_mentioned (axioms : List Axiom) (m : PropertyMap) :
    closureOn (mentioned axioms) m = closure axioms m := rfl

theorem classesOn_mentioned (axioms : List Axiom) :
    classesOn (mentioned axioms) (subPropertyArrows axioms) = equivalenceClasses axioms := rfl

end PropertyHierarchy

/-! ### Analyzers -/

open PropertyHierarchy

namespace Analyzer

/-- The axioms of some types as the indexes file them, type by type and ontology by ontology. -/
def filed (an : Analyzer) (l : Library) (types : List AxiomType) : List Axiom :=
  types.flatMap fun t => (an.scope l).flatMap fun o => o.index.ofType t

/-- The object properties that the indexes list. -/
def listed (an : Analyzer) (l : Library) : SortedSet ObjectProperty :=
  .ofList ((an.scope l).flatMap fun o => o.index.objectProperties.toList)

variable {l : Library}

/-- What is in scope has an index that answers as a list of axioms does. -/
theorem refines_of_mem_scope (h : l.Reachable) (an : Analyzer) {o : Ontology}
    (ho : o ∈ an.scope l) : o.Refines o.axioms := by
  obtain ⟨s, rfl⟩ : ∃ s, l.get s = o := by
    unfold scope at ho
    split at ho
    · obtain ⟨refs, hclosure, -⟩ := l.exists_isImportsClosure an.ontology
      rw [hclosure] at ho
      obtain ⟨s, -, hs⟩ := List.mem_map.1 ho
      exact ⟨s, hs⟩
    · exact ⟨_, (List.mem_singleton.1 ho).symm⟩
  obtain ⟨L, hL⟩ := h.indexed.get s
  have hrefines := hL.refines
  rwa [← hrefines.axioms_eq] at hrefines

theorem filed_eq (h : l.Reachable) (an : Analyzer) (types : List AxiomType) :
    an.filed l types = ofTypes types (an.axioms l) := by
  unfold filed ofTypes axioms
  apply List.flatMap_congr
  intro t _
  rw [List.filter_flatMap]
  apply List.flatMap_congr
  intro o ho
  exact (refines_of_mem_scope h an ho).ofType_eq t

theorem listed_eq (h : l.Reachable) (an : Analyzer) : an.listed l = mentioned (an.axioms l) := by
  apply SortedSet.ext
  intro p
  unfold listed axioms
  rw [SortedSet.mem_ofList, List.mem_flatMap, mem_mentioned]
  simp only [SortedSet.mem_toList, List.mem_flatMap]
  constructor
  · rintro ⟨o, ho, hp⟩
    obtain ⟨a, ha, hp⟩ := ((refines_of_mem_scope h an ho).mem_objectProperties p).1 hp
    exact ⟨a, ⟨o, ho, ha⟩, hp⟩
  · rintro ⟨a, ⟨o, ho, ha⟩, hp⟩
    exact ⟨o, ho, ((refines_of_mem_scope h an ho).mem_objectProperties p).2 ⟨a, ha, hp⟩⟩

/-- In whatever way a library came about, a new analyzer of any of its ontologies finds from all
axioms in scope what it would find from the indexes: from the axioms that are filed under the types
that count and the object properties that are listed. -/
theorem results_filed (h : l.Reachable) (r : OntologyRef) (config : AnalyzerConfig) :
    let an := new r config
    let direct := PropertyHierarchy.direct (an.filed l stepTypes)
    let chains := withChains (an.filed l [.subPropertyChainOf]) direct
    let arrows := subPropertyArrows (an.filed l [.subObjectPropertyOf])
    (an.compositeProperties l).1 = PropertyHierarchy.composite (an.filed l compositeTypes) ∧
      (an.directHierarchy l).1 = direct ∧
      (an.hierarchyClosure l).1 = closureOn (an.listed l) direct ∧
      (an.partialOrdering l).1 = closureOn (an.listed l) chains ∧
      an.equivalents l = classesOn (an.listed l) arrows := by
  intro an direct chains arrows
  have hdirect : direct = PropertyHierarchy.direct (an.axioms l) := by
    rw [← direct_ofTypes, ← filed_eq h]
  have hchains : chains = withChains (an.axioms l) direct := by
    have hnone : direct.NoneEmpty := noneEmpty_direct _
    rw [← withChains_ofTypes _ hnone, ← filed_eq h]
  have harrows : arrows = subPropertyArrows (an.axioms l) := by
    rw [← subPropertyArrows_ofTypes, ← filed_eq h]
  refine ⟨?_, hdirect.symm, ?_, ?_, ?_⟩
  · rw [filed_eq h, composite_ofTypes]
    rfl
  · rw [listed_eq h, closureOn_mentioned, hdirect]
    rfl
  · rw [listed_eq h, closureOn_mentioned, hchains, hdirect]
    rfl
  · rw [listed_eq h, harrows, classesOn_mentioned]
    rfl

end Analyzer

end OwlStructure
