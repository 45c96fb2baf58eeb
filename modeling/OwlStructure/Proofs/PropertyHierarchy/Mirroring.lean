import OwlStructure.Proofs.PropertyHierarchy.ChainOrder
import OwlStructure.Proofs.PropertyHierarchy.Inversion
import OwlStructure.Proofs.PropertyHierarchy.KeptResults

/-!
Inversion as an automorphism. The direct hierarchy, its closure and the ordering with chains are
relations between simplified expressions, and putting the inverse in place of every expression gives
the same relation again. Each of the three is made from relations with this symmetry by a
construction that keeps it, so an analyzer never has one without it, however its library changed
since it worked out the parts.
-/
namespace OwlStructure

open Relation ObjectPropertyExpression

namespace PropertyHierarchy

variable {axioms : List Axiom} {m : PropertyMap} {p q : ObjectPropertyExpression}

/-! ### Chains -/

theorem ChainStep.simplified (h : ChainStep axioms p q) :
    p.simplified = p ∧ q.simplified = q := by
  cases h with
  | member => exact ⟨simplified_simplified _, simplified_simplified _⟩
  | inverse => exact ⟨simplified_inverseSimplified _, simplified_inverseSimplified _⟩

theorem ChainStep.inverted (h : ChainStep axioms p q) :
    ChainStep axioms p.inverseSimplified q.inverseSimplified := by
  cases h with
  | member ha hk hp =>
    simp only [inverseSimplified_simplified]
    exact .inverse ha hk hp
  | inverse ha hk hp =>
    simp only [inverseSimplified_inverseSimplified]
    exact .member ha hk hp

theorem noneEmpty_withChains (hne : m.NoneEmpty) : (withChains axioms m).NoneEmpty :=
  hne.foldl_addArrow _

theorem Mirrored.withChains (h : Mirrored m) (hne : m.NoneEmpty) (axioms : List Axiom) :
    Mirrored (withChains axioms m) := by
  refine .of_leads (noneEmpty_withChains hne) fun p q hl => ?_
  rcases leads_withChains.1 hl with hl | hstep
  · obtain ⟨s, hs, -⟩ := SortedMap.leads_iff.1 hl
    refine ⟨h.simplified_key p (SortedMap.mem_keys_iff.2 ⟨s, hs⟩), h.simplified_member p q hl, ?_⟩
    exact leads_withChains.2 (.inl (h.leads_inverse hl))
  · exact ⟨hstep.simplified.1, hstep.simplified.2, leads_withChains.2 (.inr hstep.inverted)⟩

end PropertyHierarchy

/-! ### Analyzers -/

open PropertyHierarchy

namespace Analyzer

variable {an an' : Analyzer} {l : Library}

/-- Every relation that an analyzer keeps has the symmetry, and no entry of the direct hierarchy
that it keeps is empty. -/
structure KeepsMirrored (an : Analyzer) : Prop where
  direct : ∀ m, an.direct = some m → Mirrored m ∧ m.NoneEmpty
  closure : ∀ m, an.closure = some m → Mirrored m
  ordering : ∀ m, an.ordering = some m → Mirrored m

theorem keepsMirrored_new (r : OntologyRef) (config : AnalyzerConfig) :
    (new r config).KeepsMirrored where
  direct _ h := by cases h
  closure _ h := by cases h
  ordering _ h := by cases h

/-- The axioms of the library enter each result anew, and need not be those that an older result
was worked out from. -/
theorem KeepsMirrored.worksOut (h : an.KeepsMirrored) (hstep : WorksOut l an an') :
    an'.KeepsMirrored := by
  cases hstep with
  | composite => exact { h with }
  | nonSimple => exact { h with }
  | direct =>
    refine { h with direct := ?_ }
    rintro _ ⟨⟩
    exact ⟨mirrored_direct _, noneEmpty_direct _⟩
  | closure _ hd =>
    refine { h with closure := ?_ }
    rintro _ ⟨⟩
    exact (h.direct _ hd).1.closure _
  | ordering _ hd =>
    refine { h with ordering := ?_ }
    rintro _ ⟨⟩
    exact ((h.direct _ hd).1.withChains (h.direct _ hd).2 _).closure _

theorem KeepsMirrored.of_steps (h : an.KeepsMirrored) (hs : ReflTransGen (WorksOut l) an an') :
    an'.KeepsMirrored := by
  induction hs with
  | refl => exact h
  | tail _ hstep ih => exact ih.worksOut hstep

namespace Session

variable {s : Session}

theorem keepsMirrored_run (h : s.analyzer.KeepsMirrored) (events : List Event) :
    (s.run events).analyzer.KeepsMirrored :=
  preserves_run (fun _ _ _ h hs => h.of_steps hs)
    (fun an _ => { keepsMirrored_new an.ontology an.config with }) h events

/-- Whatever has been asked and however the library has changed, inversion maps the direct hierarchy
that an analyzer gives, the closure and the ordering with chains each to itself: their keys and
members are simplified, with every key its inverse is a key, and one expression is in the entry of
another exactly when its inverse is in the entry of the inverse. No entry of the direct hierarchy is
empty. -/
theorem relations_mirrored (l : Library) (r : OntologyRef) (config : AnalyzerConfig)
    (events : List Event) :
    let s := (start r config l).run events
    let direct := (s.analyzer.directHierarchy s.library).1
    Mirrored direct ∧ Mirrored (s.analyzer.hierarchyClosure s.library).1 ∧
      Mirrored (s.analyzer.partialOrdering s.library).1 ∧
      direct.NoneEmpty := by
  intro s direct
  have hkeeps : s.analyzer.KeepsMirrored := keepsMirrored_run (keepsMirrored_new r config) events
  obtain ⟨hdirect, hd⟩ := directHierarchy_steps s.analyzer s.library
  obtain ⟨hclosure, hc⟩ := hierarchyClosure_steps s.analyzer s.library
  obtain ⟨hordering, ho⟩ := partialOrdering_steps s.analyzer s.library
  obtain ⟨hmirrored, hne⟩ := (hkeeps.of_steps hdirect).direct _ hd
  refine ⟨hmirrored, ?_, ?_, hne⟩
  · exact (hkeeps.of_steps hclosure).closure _ hc
  · exact (hkeeps.of_steps hordering).ordering _ ho

end Session

end Analyzer

end OwlStructure
