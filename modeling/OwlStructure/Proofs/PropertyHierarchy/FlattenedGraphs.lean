import OwlStructure.Proofs.PropertyHierarchy.Mirroring
import OwlStructure.Proofs.PropertyHierarchy.NestedInverses
import OwlStructure.Proofs.Store.ImportsClosure

/-!
Graphs of ontologies up to nested inverses. Two graphs that differ only in how often properties are
inverted inside of their axioms look the same to an analyzer, and no answer of an analyzer shows a
nested inverse.
-/
namespace OwlStructure

open Relation ObjectPropertyExpression Axiom

/-! ### Graphs -/

/-- Two ontologies have one IRI, imports that correspond to each other in order, and the same axioms
up to nested inverses. -/
structure Ontology.Matches (same : OntologyRef → OntologyRef → Prop) (o o' : Ontology) : Prop where
  id_eq : o.id = o'.id
  imports : List.Forall₂ same o.imports o'.imports
  axioms : SameFlattened o.axioms o'.axioms

namespace Library

/-- References that correspond to each other stand for ontologies that match, or both for none. -/
def Matches (same : OntologyRef → OntologyRef → Prop) (l l' : Library) : Prop :=
  ∀ r r', same r r' →
    Option.Rel (Ontology.Matches same) l.ontologies[r.position]? l'.ontologies[r'.position]?

namespace Matches

variable {same : OntologyRef → OntologyRef → Prop} {l l' : Library} {r r' : OntologyRef}

theorem none (h : l.Matches same l') (hr : same r r')
    (ho : l.ontologies[r.position]? = Option.none) :
    l'.ontologies[r'.position]? = Option.none := by
  have hplace := h r r' hr
  rw [ho] at hplace
  generalize l'.ontologies[r'.position]? = place at hplace ⊢
  cases hplace
  rfl

theorem some {o : Ontology} (h : l.Matches same l') (hr : same r r')
    (ho : l.ontologies[r.position]? = Option.some o) :
    ∃ o', l'.ontologies[r'.position]? = Option.some o' ∧ o.Matches same o' := by
  have hplace := h r r' hr
  rw [ho] at hplace
  generalize l'.ontologies[r'.position]? = place at hplace ⊢
  cases hplace with
  | some ho => exact ⟨_, rfl, ho⟩

/-- From queues that correspond, matching ontologies are listed. -/
theorem listImports (h : l.Matches same l') {queue queue' : List OntologyRef}
    (hqueue : List.Forall₂ same queue queue') (listed : List Iri) :
    List.Forall₂ (Ontology.Matches same) (Library.listImports l.ontologies queue listed)
      (Library.listImports l'.ontologies queue' listed) := by
  fun_induction Library.listImports l.ontologies queue listed generalizing queue' with
  | case1 listed =>
    cases hqueue
    rw [Library.listImports]
    exact .nil
  | case2 listed r rest ho ih =>
    obtain ⟨r', rest', hr, hrest, rfl⟩ := List.forall₂_cons_left_iff.1 hqueue
    rw [listImports_of_none (h.none hr ho)]
    exact ih hrest
  | case3 listed r rest o ho hlisted ih =>
    obtain ⟨r', rest', hr, hrest, rfl⟩ := List.forall₂_cons_left_iff.1 hqueue
    obtain ⟨o', ho', hmatches⟩ := h.some hr ho
    rw [listImports_of_some ho', if_pos (hmatches.id_eq ▸ hlisted)]
    exact ih hrest
  | case4 listed r rest o ho hlisted ih =>
    obtain ⟨r', rest', hr, hrest, rfl⟩ := List.forall₂_cons_left_iff.1 hqueue
    obtain ⟨o', ho', hmatches⟩ := h.some hr ho
    rw [listImports_of_some ho', if_neg (hmatches.id_eq ▸ hlisted), ← hmatches.id_eq]
    exact .cons hmatches (ih (List.rel_append hrest hmatches.imports))

/-- Ontologies at corresponding references have the same axioms up to nested inverses. -/
theorem axioms_get (h : l.Matches same l') (hr : same r r') :
    SameFlattened (l.get r).axioms (l'.get r').axioms := by
  unfold Library.get
  cases ho : l.ontologies[r.position]? with
  | none =>
    rw [h.none hr ho]
    exact fun _ => Iff.rfl
  | some o =>
    obtain ⟨o', ho', hmatches⟩ := h.some hr ho
    rw [ho']
    exact hmatches.axioms

end Matches

end Library

/-! ### What is analyzed -/

theorem Axiom.SameFlattened.append {axioms axioms' others others' : List Axiom}
    (h : SameFlattened axioms axioms') (h' : SameFlattened others others') :
    SameFlattened (axioms ++ others) (axioms' ++ others') := by
  intro a
  rw [List.map_append, List.map_append, List.mem_append, List.mem_append, h a, h' a]

theorem Axiom.SameFlattened.flatMap {stores stores' : List Ontology}
    (h : List.Forall₂ (fun o o' => SameFlattened o.axioms o'.axioms) stores stores') :
    SameFlattened (stores.flatMap Ontology.axioms) (stores'.flatMap Ontology.axioms) := by
  induction h with
  | nil => exact fun _ => Iff.rfl
  | cons ho _ ih => exact ho.append ih

namespace Analyzer

open PropertyHierarchy

variable {same : OntologyRef → OntologyRef → Prop} {l l' : Library} {r r' : OntologyRef}

/-- Analyzers of matching graphs analyze the same axioms up to nested inverses. -/
theorem sameFlattened_axioms (h : l.Matches same l') (hr : same r r') (config : AnalyzerConfig) :
    SameFlattened ((new r config).axioms l) ((new r' config).axioms l') := by
  refine .flatMap ?_
  obtain ⟨imports⟩ := config
  cases imports with
  | included =>
    exact (h.listImports (.cons hr .nil) []).imp fun _ _ hmatches => hmatches.axioms
  | excluded => exact .cons (h.axioms_get hr) .nil

/-- Two queries ask the same, about expressions with the same simplified forms. -/
inductive Query.SameFlattened : Query → Query → Prop where
  | composite : SameFlattened .composite .composite
  | closure : SameFlattened .closure .closure
  | nonSimple : SameFlattened .nonSimple .nonSimple
  | ordering : SameFlattened .ordering .ordering
  | equivalents : SameFlattened .equivalents .equivalents
  | isComposite {p p'} (hp : simplified p = simplified p') :
    SameFlattened (.isComposite p) (.isComposite p')
  | isNonSimple {p p'} (hp : simplified p = simplified p') :
    SameFlattened (.isNonSimple p) (.isNonSimple p')
  | isSub {p p' q q'} (hp : simplified p = simplified p') (hq : simplified q = simplified q') :
    SameFlattened (.isSub p q) (.isSub p' q')
  | isLess {p p' q q'} (hp : simplified p = simplified p') (hq : simplified q = simplified q') :
    SameFlattened (.isLess p q) (.isLess p' q')

/-- Analyzers that have worked out all results keep the same answers to such queries. -/
theorem kept?_complete_eq {config : AnalyzerConfig}
    (h : Axiom.SameFlattened ((new r config).axioms l) ((new r' config).axioms l')) {q q' : Query}
    (hq : q.SameFlattened q') :
    (complete r config l).kept? q = (complete r' config l').kept? q' := by
  have hcomposite := composite_eq h
  have hclosure := closure_direct_eq h
  have hordering := ordering_direct_eq h
  cases hq with
  | equivalents => rfl
  | composite | closure | nonSimple | ordering =>
    simp only [kept?, complete, hcomposite, hclosure, hordering]
  | isComposite hp | isNonSimple hp =>
    simp only [kept?, complete, hcomposite, hclosure, hp]
  | isSub hp hq | isLess hp hq =>
    simp only [kept?, complete, hclosure, hordering, isAtOrBelow_congr hp hq]

section Current

variable {an an' : Analyzer} {config : AnalyzerConfig}

theorem IsCurrent.axioms_eq (h : an.IsCurrent r config l) :
    an.axioms l = (new r config).axioms l := by
  obtain rfl : r = an.ontology := h.ontology
  obtain rfl : config = an.config := h.config
  rfl

theorem IsCurrent.directHierarchy_eq (h : an.IsCurrent r config l) :
    (an.directHierarchy l).1 = PropertyHierarchy.direct ((new r config).axioms l) := by
  have hkept : some (.relation (PropertyHierarchy.direct ((new r config).axioms l))) =
      some (an.answer l .hierarchy).1 := h.kept?_complete (q := .hierarchy) trivial
  exact (Answer.relation.inj (Option.some.inj hkept)).symm

theorem IsCurrent.answer_flattened (h : an.IsCurrent r config l)
    (h' : an'.IsCurrent r' config l')
    (haxioms : Axiom.SameFlattened ((new r config).axioms l) ((new r' config).axioms l'))
    {q q' : Query} (hq : q.SameFlattened q') : (an.answer l q).1 = (an'.answer l' q').1 := by
  have hanalysis (ha : q.IsAnalysis) (ha' : q'.IsAnalysis) :
      (an.answer l q).1 = (an'.answer l' q').1 := by
    refine Option.some.inj ?_
    rw [← h.kept?_complete ha, ← h'.kept?_complete ha', kept?_complete_eq haxioms hq]
  cases hq with
  | equivalents =>
    show Answer.classes (an.equivalents l) = .classes (an'.equivalents l')
    rw [equivalents, equivalents, h.axioms_eq, h'.axioms_eq, equivalenceClasses_eq haxioms]
  | _ => exact hanalysis trivial trivial

end Current

/-! ### At most one inverse -/

/-- Every property in an answer has at most one inverse around it: the members of a set, the keys
and members of a relation, and the members of equivalence classes. -/
def Answer.IsFlat : Answer → Prop
  | .properties set => ∀ p ∈ set, p.inversions ≤ 1
  | .relation map =>
    (∀ p ∈ map.keys, p.inversions ≤ 1) ∧ ∀ p q, map.Leads p q → q.inversions ≤ 1
  | .classes sets => ∀ set ∈ sets, ∀ p ∈ set, p.inversions ≤ 1
  | .truth _ | .done | .stats .. | .config _ | .ontology _ | .outline _ => True

/-- Everything that an analyzer keeps is about simplified expressions. -/
structure KeepsSimplified (an : Analyzer) : Prop extends an.KeepsMirrored where
  composite : ∀ s, an.composite = some s → ∀ p ∈ s, p.simplified = p
  nonSimple : ∀ s, an.nonSimple = some s → ∀ p ∈ s, p.simplified = p

variable {an an' : Analyzer}

theorem keepsSimplified_new (r : OntologyRef) (config : AnalyzerConfig) :
    (new r config).KeepsSimplified where
  toKeepsMirrored := keepsMirrored_new r config
  composite _ h := by cases h
  nonSimple _ h := by cases h

theorem KeepsSimplified.worksOut (h : an.KeepsSimplified) (hstep : WorksOut l an an') :
    an'.KeepsSimplified := by
  have hmirrored := h.toKeepsMirrored.worksOut hstep
  cases hstep with
  | composite =>
    refine { h with toKeepsMirrored := hmirrored, composite := ?_ }
    rintro _ ⟨⟩ p hp
    exact simplified_of_mem_composite hp
  | nonSimple _ _ hm =>
    refine { h with toKeepsMirrored := hmirrored, nonSimple := ?_ }
    rintro _ ⟨⟩ p hp
    exact simplified_of_mem_nonSimple (h.closure _ hm) hp
  | direct | closure | ordering => exact { h with toKeepsMirrored := hmirrored }

theorem KeepsSimplified.of_steps (h : an.KeepsSimplified) (hs : ReflTransGen (WorksOut l) an an') :
    an'.KeepsSimplified := by
  induction hs with
  | refl => exact h
  | tail _ hstep ih => exact ih.worksOut hstep

theorem KeepsSimplified.isFlat (h : an.KeepsSimplified) {q : Query} {x : Answer}
    (hx : an.kept? q = some x) : x.IsFlat := by
  have hset {s : SortedSet ObjectPropertyExpression} (hs : ∀ p ∈ s, p.simplified = p) :
      (Answer.properties s).IsFlat := fun p hp => inversions_le_one (hs p hp)
  have hmap {m : PropertyMap} (hm : Mirrored m) : (Answer.relation m).IsFlat :=
    ⟨fun p hp => inversions_le_one (hm.simplified_key p hp),
      fun p q hl => inversions_le_one (hm.simplified_member p q hl)⟩
  cases q <;> simp only [kept?, reduceCtorEq, Option.map_eq_some_iff] at hx
  case composite =>
    obtain ⟨s, hs, rfl⟩ := hx
    exact hset (h.composite s hs)
  case nonSimple =>
    obtain ⟨s, hs, rfl⟩ := hx
    exact hset (h.nonSimple s hs)
  case hierarchy =>
    obtain ⟨m, hm, rfl⟩ := hx
    exact hmap (h.direct m hm).1
  case closure =>
    obtain ⟨m, hm, rfl⟩ := hx
    exact hmap (h.closure m hm)
  case ordering =>
    obtain ⟨m, hm, rfl⟩ := hx
    exact hmap (h.ordering m hm)
  case isComposite | isNonSimple | isSub | isLess =>
    obtain ⟨_, -, rfl⟩ := hx
    trivial

/-! ### Sessions -/

namespace Session

variable {s : Session}

theorem keepsSimplified_run (h : s.analyzer.KeepsSimplified) (events : List Event) :
    (s.run events).analyzer.KeepsSimplified :=
  preserves_run (fun _ _ _ h hs => h.of_steps hs)
    (fun an _ => { keepsSimplified_new an.ontology an.config with }) h events

theorem isFlat_answer (h : s.analyzer.KeepsSimplified) (q : Query) : (s.answer q).IsFlat := by
  have hanalysis (hq : q.IsAnalysis) : (s.answer q).IsFlat :=
    (h.of_steps (answer_steps s.analyzer s.library hq.ne_invalidate)).isFlat
      (kept?_answer s.analyzer s.library hq)
  cases q with
  | equivalents =>
    exact fun set hset p hp => inversions_le_one (simplified_of_mem_equivalenceClasses hset hp)
  | invalidate | stats | config | ontology | outline => trivial
  | _ => exact hanalysis trivial

theorem library_run_asks (s : Session) (before : List Query) :
    (s.run (before.map .ask)).library = s.library := by
  induction before generalizing s with
  | nil => rfl
  | cons q before ih => exact ih (s.step (.ask q))

/-- Questions leave nothing out of date. -/
theorem isCurrent_run_asks (r : OntologyRef) (config : AnalyzerConfig) (l : Library)
    (before : List Query) :
    ((start r config l).run (before.map .ask)).analyzer.IsCurrent r config l := by
  have hno : ∀ e ∈ before.map Event.ask, e.isEdit = false := by simp [Event.isEdit]
  have hcurrent : ((start r config l).run (before.map .ask)).IsCurrent r config :=
    (isCurrent_run_start (.inl rfl)).run hno
  rwa [IsCurrent, library_run_asks] at hcurrent

/-- Two graphs of ontologies that differ only in nested inverses inside of axioms, and analyzers of
both that have been asked anything before, with or without imports. Queries that differ only in
nested inverses have the same answer: the composite properties, the closure of the hierarchy, the
properties that are not simple, the ordering with chains, the equivalence classes, and what is asked
about single properties. The direct hierarchies have the same arrows between distinct properties.
Whatever is asked and however a library changes, no property in an answer has more than one inverse
around it. -/
theorem answers_flattened (l l' : Library) (same : OntologyRef → OntologyRef → Prop)
    (hgraphs : l.Matches same l') (r r' : OntologyRef) (hroots : same r r')
    (config : AnalyzerConfig) (before before' : List Query) :
    let s := (start r config l).run (before.map .ask)
    let s' := (start r' config l').run (before'.map .ask)
    let hierarchy (s : Session) : PropertyMap := (s.analyzer.directHierarchy s.library).1
    (∀ q q', q.SameFlattened q' → s.answer q = s'.answer q') ∧
      (∀ p q, p ≠ q → ((hierarchy s).Leads p q ↔ (hierarchy s').Leads p q)) ∧
      ∀ events q, (((start r config l).run events).answer q).IsFlat := by
  intro s s' hierarchy
  have haxioms := sameFlattened_axioms hgraphs hroots config
  have hcurrent : s.analyzer.IsCurrent r config l := isCurrent_run_asks r config l before
  have hcurrent' : s'.analyzer.IsCurrent r' config l' := isCurrent_run_asks r' config l' before'
  have hlibrary : s.library = l := library_run_asks _ before
  have hlibrary' : s'.library = l' := library_run_asks _ before'
  refine ⟨fun q q' hq => ?_, fun p q hne => ?_, fun events q => ?_⟩
  · unfold answer
    rw [hlibrary, hlibrary']
    exact hcurrent.answer_flattened hcurrent' haxioms hq
  · simp only [hierarchy]
    rw [hlibrary, hlibrary', hcurrent.directHierarchy_eq, hcurrent'.directHierarchy_eq]
    exact leads_direct_iff haxioms hne
  · exact isFlat_answer (keepsSimplified_run (keepsSimplified_new r config) events) q

/-- Two sub-property axioms become one, and an equivalence is left with one operand. -/
theorem answers_flattened_merging :
    let r : OntologyRef := ⟨0, ⟨"o"⟩⟩
    let p : ObjectPropertyExpression := .named ⟨⟨"p"⟩⟩
    let q : ObjectPropertyExpression := .named ⟨⟨"q"⟩⟩
    let nested : ObjectPropertyExpression := .inverse (.inverse p)
    let l := (((Library.empty 1).standalone r.id).2.addAll r
      [.subObjectPropertyOf nested q, .subObjectPropertyOf p q,
        ⟨.equivalentObjectProperties (.ofList [p, nested]), rfl⟩,
        .transitiveObjectProperty (.inverse nested)]).2
    let l' := (((Library.empty 1).standalone r.id).2.addAll r
      [.transitiveObjectProperty (.inverse p), ⟨.equivalentObjectProperties (.ofList [p]), rfl⟩,
        .subObjectPropertyOf p q]).2
    let same (x y : OntologyRef) : Prop := x = r ∧ y = r
    let s := (start r ⟨.excluded⟩ l).run ([.composite].map .ask)
    let s' := (start r ⟨.excluded⟩ l').run ([.ordering].map .ask)
    l.Matches same l' ∧ s.answer .closure = s'.answer .closure ∧
      s.answer (.isComposite nested) = s'.answer (.isComposite p) ∧
      s.answer (.isComposite nested) = .truth true := by
  intro r p q nested l l' same s s'
  have hflattened : (∀ a ∈ (l.get r).axioms.map flattened, a ∈ (l'.get r).axioms.map flattened) ∧
      ∀ a ∈ (l'.get r).axioms.map flattened, a ∈ (l.get r).axioms.map flattened := by decide
  have hmatches : l.Matches same l' := by
    rintro _ _ ⟨rfl, rfl⟩
    have ho : l.ontologies[r.position]? = some (l.get r) := rfl
    have ho' : l'.ontologies[r.position]? = some (l'.get r) := rfl
    have hid : (l.get r).id = (l'.get r).id := by decide
    have himports : (l.get r).imports = [] ∧ (l'.get r).imports = [] := by decide
    rw [ho, ho']
    refine .some ⟨hid, ?_, fun a => ⟨hflattened.1 a, hflattened.2 a⟩⟩
    rw [himports.1, himports.2]
    exact .nil
  obtain ⟨hanswers, -⟩ :=
    answers_flattened l l' same hmatches r r ⟨rfl, rfl⟩ ⟨.excluded⟩ [.composite] [.ordering]
  have hcomposite : (s.analyzer.isComposite s.library nested).1 = true := by decide
  refine ⟨hmatches, hanswers _ _ .closure, hanswers _ _ (.isComposite (by decide)), ?_⟩
  rw [answer_isComposite, hcomposite]

end Session

end Analyzer

end OwlStructure
