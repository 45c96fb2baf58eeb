import OwlStructure.PropertyHierarchy.Analyzer
import OwlStructure.Proofs.Store.ImportsClosure

/-!
The axioms that an analyzer analyzes. Without imports they are those of its ontology; with imports
they are those of the members of the imports closure, which the graph of imports determines.
-/
namespace OwlStructure.Analyzer

open Library

/-- The axioms in scope for an ontology, in their order. With imports, they are those of the members
of the one imports closure that there is; if no two ontologies that can be reached have one IRI, the
members are all that the ontology imports in any number of steps. -/
structure IsScope (l : Library) (r : OntologyRef) (imports : ImportScope)
    (axioms : List Axiom) : Prop where
  excluded : imports = .excluded → axioms = (l.get r).axioms
  included : imports = .included → (∃! refs, l.IsImportsClosure r refs) ∧
    ∀ refs, l.IsImportsClosure r refs → axioms = refs.flatMap fun s => (l.get s).axioms
  reached : imports = .included → l.DistinctImports r →
    ∀ a, a ∈ axioms ↔ ∃ n s, l.ImportsIn r n s ∧ a ∈ (l.get s).axioms

theorem isScope_axioms (l : Library) (r : OntologyRef) (config : AnalyzerConfig) :
    IsScope l r config.imports ((new r config).axioms l) := by
  obtain ⟨imports⟩ := config
  obtain ⟨refs, hclosure, hrefs⟩ := l.exists_isImportsClosure r
  have haxioms : (new r ⟨.included⟩).axioms l = refs.flatMap fun s => (l.get s).axioms := by
    show (l.importsClosure r).flatMap Ontology.axioms = _
    rw [hclosure, List.flatMap_map]
  constructor
  case excluded =>
    rintro rfl
    exact List.flatMap_singleton Ontology.axioms (l.get r)
  case included =>
    rintro rfl
    have honly : ∀ refs', l.IsImportsClosure r refs' → refs' = refs := fun _ h => h.unique hrefs
    exact ⟨⟨refs, hrefs, honly⟩, fun _ h => honly _ h ▸ haxioms⟩
  case reached =>
    rintro rfl hl a
    rw [haxioms, List.mem_flatMap]
    simp only [hrefs.mem_iff hl]
    constructor
    · rintro ⟨s, ⟨n, hs⟩, ha⟩
      exact ⟨n, s, hs, ha⟩
    · rintro ⟨n, s, hs, ha⟩
      exact ⟨s, ⟨n, hs⟩, ha⟩

/-- The scope of an ontology whose one import imports it again has the axioms of both. -/
theorem IsScope.mem_iff_of_mutual {l : Library} {r s : OntologyRef} {axioms : List Axiom}
    (h : IsScope l r .included axioms) (hr : (l.get r).imports = [s])
    (hs : (l.get s).imports = [r]) (hgood : r.IsGood l.ontologies ∧ s.IsGood l.ontologies)
    (hne : r.id ≠ s.id) (a : Axiom) :
    a ∈ axioms ↔ a ∈ (l.get r).axioms ∨ a ∈ (l.get s).axioms := by
  have hclosed : ∀ p ∈ [r, s], ∀ t ∈ (l.get p).imports, t ∈ [r, s] := by simp [hr, hs]
  have hdistinct : l.DistinctImports r :=
    .of_closed List.mem_cons_self hclosed (by simpa using hgood) (by simp [hne, hne.symm])
  rw [h.reached rfl hdistinct]
  constructor
  · rintro ⟨n, t, ht, ha⟩
    rcases List.mem_cons.1 (ht.mem_of_closed List.mem_cons_self hclosed) with rfl | ht
    · exact .inl ha
    · exact .inr (List.mem_singleton.1 ht ▸ ha)
  · rintro (ha | ha)
    · exact ⟨0, r, .start, ha⟩
    · exact ⟨1, s, ImportsIn.start.step (by simp [hr]), ha⟩

end OwlStructure.Analyzer
