import OwlStructure.Proofs.PropertyHierarchy.FlattenedGraphs
import OwlStructure.Proofs.PropertyHierarchy.Simplicity

/-!
Monotonicity of the analyses. More axioms in scope make more properties composite, put more of them
below each other and make more of them not simple, and the equivalence classes can only grow
together. Nothing but the set of the axioms in scope counts: neither their order nor the ontologies
that they are spread over.
-/
namespace OwlStructure

open Relation

namespace PropertyHierarchy

variable {axioms axioms' : List Axiom} {p q x : ObjectPropertyExpression}
  {s : SortedSet ObjectPropertyExpression}

/-! ### More axioms -/

section More

variable (hsub : axioms ⊆ axioms')

include hsub

theorem Step.mono (h : Step axioms p q) : Step axioms' p q := by
  obtain ⟨a, ha, hdeclares⟩ := h
  exact ⟨a, hsub ha, hdeclares⟩

theorem ChainStep.mono (h : ChainStep axioms p q) : ChainStep axioms' p q := by
  cases h with
  | member ha hk hp => exact .member (hsub ha) hk hp
  | inverse ha hk hp => exact .inverse (hsub ha) hk hp

theorem OrderStep.mono (h : OrderStep axioms p q) : OrderStep axioms' p q :=
  h.imp (fun hstep => hstep.mono hsub) fun hstep => hstep.mono hsub

theorem steps_mono (h : ReflTransGen (Step axioms) p q) : ReflTransGen (Step axioms') p q :=
  ReflTransGen.mono (fun _ _ hstep => Step.mono hsub hstep) _ _ h

theorem orderSteps_mono (h : ReflTransGen (OrderStep axioms) p q) :
    ReflTransGen (OrderStep axioms') p q :=
  ReflTransGen.mono (fun _ _ hstep => OrderStep.mono hsub hstep) _ _ h

theorem IsSeed.mono (h : IsSeed axioms p) : IsSeed axioms' p := by
  induction h with
  | top => exact .top
  | bottom => exact .bottom
  | transitive ha hk => exact .transitive (hsub ha) hk
  | chain ha hk hlong => exact .chain (hsub ha) hk hlong
  | inverse _ ih => exact ih.inverse

theorem mem_composite_mono (h : x ∈ composite axioms) : x ∈ composite axioms' := by
  obtain ⟨s, hs, hx⟩ := mem_composite.1 h
  refine mem_composite.2 ⟨s, hs.mono hsub, hx.imp_right ?_⟩
  rintro ⟨a, ha, hpairs⟩
  exact ⟨a, hsub ha, hpairs⟩

theorem mem_mentioned_mono {n : ObjectProperty} (h : n ∈ mentioned axioms) :
    n ∈ mentioned axioms' := by
  obtain ⟨a, ha, hn⟩ := mem_mentioned.1 h
  exact mem_mentioned.2 ⟨a, hsub ha, hn⟩

theorem mem_domain_direct_mono (h : p ∈ domain axioms (direct axioms)) :
    p ∈ domain axioms' (direct axioms') := by
  rcases mem_domain_direct.1 h with ⟨n, hn, hp⟩ | ⟨q, hstep⟩
  · exact mem_domain_direct.2 (.inl ⟨n, mem_mentioned_mono hsub hn, hp⟩)
  · have hmono := hstep.imp (fun hstep => hstep.mono hsub) fun hstep => hstep.mono hsub
    exact mem_domain_direct.2 (.inr ⟨q, hmono⟩)

theorem AboveSeed.mono (h : AboveSeed axioms x) : AboveSeed axioms' x := by
  obtain ⟨s, hs, hdomain, hpath⟩ := h
  exact ⟨s, hs.mono hsub, mem_domain_direct_mono hsub hdomain, steps_mono hsub hpath⟩

theorem arrows_mono
    (h : ReflTransGen (fun p q => (p, q) ∈ (subPropertyArrows axioms).toList) p q) :
    ReflTransGen (fun p q => (p, q) ∈ (subPropertyArrows axioms').toList) p q := by
  refine ReflTransGen.mono (fun x y harrow => ?_) _ _ h
  obtain ⟨a, ha, hdeclares⟩ := mem_subPropertyArrows.1 harrow
  exact mem_subPropertyArrows.2 ⟨a, hsub ha, hdeclares⟩

/-- Classes grow together: two members of a class stay in one class, and with them all others. -/
theorem existsUnique_class_of_class (hs : s ∈ equivalenceClasses axioms) :
    ∃! t, t ∈ equivalenceClasses axioms' ∧ ∀ p ∈ s, p ∈ t := by
  obtain ⟨p, hp, q, hq, hne⟩ := SortedSet.exists_ne (two_le_size hs)
  have hpaths (x : ObjectPropertyExpression) (hx : x ∈ s) :
      ReflTransGen (fun p q => (p, q) ∈ (subPropertyArrows axioms').toList) p x ∧
        ReflTransGen (fun p q => (p, q) ∈ (subPropertyArrows axioms').toList) x p :=
    ((mem_iff_of_mem_class hs hp).1 hx).imp (arrows_mono hsub) (arrows_mono hsub)
  obtain ⟨t, ht, hpt, -⟩ := (exists_class_iff hne).2 (hpaths q hq)
  refine ⟨t, ⟨ht, fun x hx => (mem_iff_of_mem_class ht hpt).2 (hpaths x hx)⟩, ?_⟩
  rintro t' ⟨ht', hst'⟩
  exact eq_of_common ht' ht (hst' p hp) hpt

end More

/-! ### The same axioms -/

theorem sameFlattened_of_mem_iff (h : ∀ a, a ∈ axioms ↔ a ∈ axioms') :
    Axiom.SameFlattened axioms axioms' := by
  intro a
  simp only [List.mem_map, h]

theorem direct_congr (h : ∀ a, a ∈ axioms ↔ a ∈ axioms') : direct axioms = direct axioms' := by
  have hleads (p q : ObjectPropertyExpression) :
      (direct axioms).Leads p q ↔ (direct axioms').Leads p q := by
    rw [leads_direct, leads_direct]
    exact ⟨Step.mono fun a => (h a).1, Step.mono fun a => (h a).2⟩
  exact (noneEmpty_direct axioms).ext (noneEmpty_direct axioms') hleads

end PropertyHierarchy

/-! ### Analyzers -/

open PropertyHierarchy

namespace Analyzer

variable {r r' : OntologyRef} {config config' : AnalyzerConfig} {l l' : Library}

/-- What is true of some axioms is true of more of them. -/
theorem kept?_complete_mono (hsub : (new r config).axioms l ⊆ (new r' config').axioms l')
    {q : Query} (hq : (complete r config l).kept? q = some (.truth true)) :
    (complete r' config' l').kept? q = some (.truth true) := by
  have htruth {b b' : Bool} (hb : b = true → b' = true)
      (h : some (Answer.truth b) = some (.truth true)) :
      some (Answer.truth b') = some (.truth true) := by
    cases h
    rw [hb rfl]
  have habove (axioms : List Axiom) (x : ObjectPropertyExpression) :
      x ∈ PropertyHierarchy.nonSimple (PropertyHierarchy.composite axioms)
        (PropertyHierarchy.closure axioms (PropertyHierarchy.direct axioms)) ↔ AboveSeed axioms x :=
    mem_nonSimple_iff (fun _ hs => hs.mem_composite) fun _ => nearSeed_of_mem_composite
  cases q with
  | isComposite p =>
    refine htruth (fun h => ?_) hq
    simp only [decide_eq_true_eq] at h ⊢
    exact mem_composite_mono hsub h
  | isNonSimple p =>
    refine htruth (fun h => ?_) hq
    simp only [decide_eq_true_eq, habove] at h ⊢
    exact h.mono hsub
  | isSub p p' =>
    refine htruth (fun h => ?_) hq
    rw [isAtOrBelow_closure, leads_direct_eq] at h ⊢
    exact steps_mono hsub h
  | isLess p p' =>
    refine htruth (fun h => ?_) hq
    unfold PropertyHierarchy.ordering at h ⊢
    rw [isAtOrBelow_closure, leads_withChains_direct_eq] at h ⊢
    exact orderSteps_mono hsub h
  | _ => cases hq

/-- What is answered depends on the set of the axioms alone. -/
theorem kept?_complete_congr
    (h : ∀ a, a ∈ (new r config).axioms l ↔ a ∈ (new r' config').axioms l') (q : Query) :
    (complete r config l).kept? q = (complete r' config' l').kept? q := by
  have hflattened := sameFlattened_of_mem_iff h
  have hcomposite := composite_eq hflattened
  have hdirect := direct_congr h
  have hclosure := closure_direct_eq hflattened
  have hordering := ordering_direct_eq hflattened
  rw [hdirect] at hclosure hordering
  cases q <;> simp only [kept?, complete, hcomposite, hdirect, hclosure, hordering]

/-- Only queries about single properties are answered by a truth value. -/
theorem isAnalysis_of_truth {an : Analyzer} {q : Query} {b : Bool}
    (h : (an.answer l q).1 = .truth b) : q.IsAnalysis := by
  cases q with
  | equivalents | invalidate | stats | config | ontology | outline => cases h
  | _ => trivial

namespace Session

/-- The library has not changed since the analyzer was made or last gave its results up. What it was
asked before or since, and what happened earlier, does not matter. -/
def UpToDate (s : Session) : Prop :=
  ∃ r config l before after,
    (before = [] ∨ ∃ earlier, before = earlier ++ [.ask .invalidate]) ∧
      (∀ e ∈ after, e.isEdit = false) ∧ s = (start r config l).run (before ++ after)

/-- The axioms in the scope of the analyzer. -/
def axioms (s : Session) : List Axiom := s.analyzer.axioms s.library

theorem UpToDate.exists_isCurrent {s : Session} (h : s.UpToDate) :
    ∃ r config, s.IsCurrent r config := by
  obtain ⟨r, config, l, before, after, hbefore, hafter, rfl⟩ := h
  rw [run_append]
  exact ⟨r, config, (isCurrent_run_start hbefore).run hafter⟩

/-- Two sessions, each with an analyzer of any ontology, with or without its imports, that is not
out of date. If all axioms in the scope of the first are in the scope of the second, what the first
finds true of single properties the second finds true as well: that a property is composite or not
simple, that one is below another or less than another. And every equivalence class of the first
lies in one class of the second. If both scopes have the same set of axioms, however they came
there, in which order and from which ontologies, both give the same answer to every query. -/
theorem answers_monotone (s s' : Session) (h : s.UpToDate) (h' : s'.UpToDate) :
    ((∀ a ∈ s.axioms, a ∈ s'.axioms) →
      (∀ q, s.answer q = .truth true → s'.answer q = .truth true) ∧
        ∀ c ∈ s.analyzer.equivalents s.library,
          ∃! c', c' ∈ s'.analyzer.equivalents s'.library ∧ ∀ p ∈ c, p ∈ c') ∧
      ((∀ a, a ∈ s.axioms ↔ a ∈ s'.axioms) →
        ∀ q, q.IsAnalysis ∨ q = .equivalents → s.answer q = s'.answer q) := by
  obtain ⟨r, config, hcurrent⟩ := h.exists_isCurrent
  obtain ⟨r', config', hcurrent'⟩ := h'.exists_isCurrent
  have haxioms : s.axioms = (new r config).axioms s.library := hcurrent.axioms_eq
  have haxioms' : s'.axioms = (new r' config').axioms s'.library := hcurrent'.axioms_eq
  rw [haxioms, haxioms']
  refine ⟨fun hsub => ⟨fun q hq => ?_, fun c hc => ?_⟩, fun hsame q hq => ?_⟩
  · have hanalysis := isAnalysis_of_truth hq
    have hkept := hcurrent.kept?_complete hanalysis
    rw [show (s.analyzer.answer s.library q).1 = _ from hq] at hkept
    have hkept' := hcurrent'.kept?_complete hanalysis
    rw [kept?_complete_mono hsub hkept] at hkept'
    exact (Option.some.inj hkept').symm
  · have hclasses : c ∈ equivalenceClasses s.axioms := hc
    rw [haxioms] at hclasses
    obtain ⟨c', hc', hunique⟩ := existsUnique_class_of_class hsub hclasses
    rw [← haxioms'] at hc' hunique
    exact ⟨c', hc', hunique⟩
  · rcases hq with hq | rfl
    · have hkept := hcurrent.kept?_complete hq
      rw [kept?_complete_congr hsame q, hcurrent'.kept?_complete hq] at hkept
      exact (Option.some.inj hkept).symm
    · have hclasses : equivalenceClasses s.axioms = equivalenceClasses s'.axioms := by
        rw [haxioms, haxioms']
        exact equivalenceClasses_eq (sameFlattened_of_mem_iff hsame)
      exact congrArg Answer.classes hclasses

/-- An ontology imports one that has just made a property transitive, and adds a larger property. -/
theorem answers_monotone_imported :
    let imported : OntologyRef := ⟨0, ⟨"imported"⟩⟩
    let importing : OntologyRef := ⟨1, ⟨"importing"⟩⟩
    let p : ObjectPropertyExpression := .named ⟨⟨"p"⟩⟩
    let q : ObjectPropertyExpression := .named ⟨⟨"q"⟩⟩
    let l := ((Library.empty 1).standalone imported.id).2
    let l' := (((l.add imported (.transitiveObjectProperty p)).2.standalone importing.id).2.addImport
      importing imported).2
    let l'' := (l'.add importing (.subObjectPropertyOf p q)).2
    let change : Event := .edit fun l => (l.add imported (.transitiveObjectProperty p)).2
    let s := (start imported ⟨.excluded⟩ l).run
      ([.ask (.isComposite p), change, .ask .invalidate] ++ [.ask .closure])
    let same := (start importing ⟨.included⟩ l').run ([] ++ [.ask .hierarchy])
    let more := start importing ⟨.included⟩ l''
    s.answer (.isComposite p) = .truth true ∧ more.answer (.isComposite p) = .truth true ∧
      s.answer .equivalents = same.answer .equivalents := by
  intro imported importing p q l l' l'' change s same more
  have hs : s.UpToDate :=
    ⟨imported, ⟨.excluded⟩, l, _, [.ask .closure], .inr ⟨[.ask (.isComposite p), change], rfl⟩,
      by simp [Event.isEdit], rfl⟩
  have hsame : same.UpToDate :=
    ⟨importing, ⟨.included⟩, l', [], [.ask .hierarchy], .inl rfl, by simp [Event.isEdit], rfl⟩
  have hmore : more.UpToDate := ⟨importing, ⟨.included⟩, l'', [], [], .inl rfl, by simp, rfl⟩
  have hscope (k : Library) (hfirst : k.ontologies[0]? = some (k.get imported))
      (hsecond : k.ontologies[1]? = some (k.get importing))
      (hids : (k.get imported).id = imported.id ∧ (k.get importing).id = importing.id)
      (himports : (k.get imported).imports = [] ∧ (k.get importing).imports = [imported]) :
      k.importsClosure importing = [k.get importing, k.get imported] := by
    rw [Library.importsClosure, Library.listImports_of_some hsecond, if_neg List.not_mem_nil,
      himports.2, List.nil_append, Library.listImports_of_some hfirst, hids.1, hids.2,
      if_neg (by decide), himports.1, List.nil_append, Library.listImports]
  have haxioms : s.axioms = [.transitiveObjectProperty p] := by decide
  have haxioms' : same.axioms = [.transitiveObjectProperty p] := by
    show (l'.importsClosure importing).flatMap Ontology.axioms = _
    rw [hscope l' rfl rfl (by decide) (by decide)]
    decide
  have haxioms'' : more.axioms = [.subObjectPropertyOf p q, .transitiveObjectProperty p] := by
    show (l''.importsClosure importing).flatMap Ontology.axioms = _
    rw [hscope l'' rfl rfl (by decide) (by decide)]
    decide
  have hcomposite : (s.analyzer.isComposite s.library p).1 = true := by decide
  have htruth : s.answer (.isComposite p) = .truth true := by
    rw [answer_isComposite, hcomposite]
  obtain ⟨hmonotone, -⟩ := answers_monotone s more hs hmore
  obtain ⟨hanswers, -⟩ := hmonotone (by simp [haxioms, haxioms''])
  obtain ⟨-, hequal⟩ := answers_monotone s same hs hsame
  exact ⟨htruth, hanswers _ htruth,
    hequal (fun a => by rw [haxioms, haxioms']) .equivalents (.inr rfl)⟩

end Session

end Analyzer

end OwlStructure
