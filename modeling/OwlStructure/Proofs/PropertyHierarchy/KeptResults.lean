import Mathlib.Logic.Relation
import OwlStructure.PropertyHierarchy.Analyzer

/-!
The results that an analyzer keeps, over runs in which it is asked, told to give its results up, and
its library changes. A query only works out results that are missing. So what is kept stays as it is
until it is given up, agrees with the library as long as that does not change, and is worked out at
most once for each result and each time that results are given up.
-/
namespace OwlStructure.Analyzer

open Relation

/-! ### Sessions -/

/-- What happens in a session: the analyzer is asked something, or the library changes somehow. -/
inductive Event where
  | ask (q : Query)
  | edit (change : Library → Library)

namespace Event

def isEdit : Event → Bool
  | .edit _ => true
  | .ask _ => false

def isInvalidate : Event → Bool
  | .ask .invalidate => true
  | _ => false

end Event

/-- An analyzer and the library that it reads. -/
structure Session where
  analyzer : Analyzer
  library : Library

namespace Session

/-- A session with a new analyzer. -/
def start (r : OntologyRef) (config : AnalyzerConfig) (l : Library) : Session := ⟨new r config, l⟩

/-- What the analyzer answers now. -/
def answer (s : Session) (q : Query) : Answer := (s.analyzer.answer s.library q).1

def step (s : Session) : Event → Session
  | .ask q => { s with analyzer := (s.analyzer.answer s.library q).2 }
  | .edit change => { s with library := change s.library }

def run (s : Session) (events : List Event) : Session := events.foldl step s

theorem run_append (s : Session) (before after : List Event) :
    s.run (before ++ after) = (s.run before).run after := List.foldl_append

end Session

/-- A query whose answer is read off results that are kept. -/
def Query.IsAnalysis : Query → Prop
  | .composite | .hierarchy | .closure | .nonSimple | .ordering => True
  | .isComposite _ | .isNonSimple _ | .isSub _ _ | .isLess _ _ => True
  | _ => False

theorem Query.IsAnalysis.ne_invalidate {q : Query} (hq : q.IsAnalysis) : q ≠ .invalidate := by
  rintro rfl
  exact hq

/-! ### Working out one result -/

variable {an an' : Analyzer} {l : Library}

/-- An analyzer works out one result that is missing, from the axioms and from results that it
keeps. -/
inductive WorksOut (l : Library) : Analyzer → Analyzer → Prop where
  | composite {an : Analyzer} (h : an.composite = none) : WorksOut l an
    { an with
      composite := some (PropertyHierarchy.composite (an.axioms l)), rebuilds := an.rebuilds + 1 }
  | direct {an : Analyzer} (h : an.direct = none) : WorksOut l an
    { an with
      direct := some (PropertyHierarchy.direct (an.axioms l)), rebuilds := an.rebuilds + 1 }
  | closure {an : Analyzer} {d} (h : an.closure = none) (hd : an.direct = some d) : WorksOut l an
    { an with
      closure := some (PropertyHierarchy.closure (an.axioms l) d), rebuilds := an.rebuilds + 1 }
  | nonSimple {an : Analyzer} {c m} (h : an.nonSimple = none) (hc : an.composite = some c)
      (hm : an.closure = some m) : WorksOut l an
    { an with nonSimple := some (PropertyHierarchy.nonSimple c m), rebuilds := an.rebuilds + 1 }
  | ordering {an : Analyzer} {d} (h : an.ordering = none) (hd : an.direct = some d) : WorksOut l an
    { an with
      ordering := some (PropertyHierarchy.ordering (an.axioms l) d), rebuilds := an.rebuilds + 1 }

/-- One analyzer keeps all that another keeps, of the same ontology under the same options. -/
structure Extends (an an' : Analyzer) : Prop where
  ontology : an'.ontology = an.ontology
  config : an'.config = an.config
  composite : ∀ s, an.composite = some s → an'.composite = some s
  direct : ∀ m, an.direct = some m → an'.direct = some m
  closure : ∀ m, an.closure = some m → an'.closure = some m
  nonSimple : ∀ s, an.nonSimple = some s → an'.nonSimple = some s
  ordering : ∀ m, an.ordering = some m → an'.ordering = some m

namespace Extends

theorem refl (an : Analyzer) : an.Extends an :=
  ⟨rfl, rfl, fun _ => id, fun _ => id, fun _ => id, fun _ => id, fun _ => id⟩

theorem trans {an₁ an₂ an₃ : Analyzer} (h : an₁.Extends an₂) (h' : an₂.Extends an₃) :
    an₁.Extends an₃ where
  ontology := h'.ontology.trans h.ontology
  config := h'.config.trans h.config
  composite s hs := h'.composite s (h.composite s hs)
  direct m hm := h'.direct m (h.direct m hm)
  closure m hm := h'.closure m (h.closure m hm)
  nonSimple s hs := h'.nonSimple s (h.nonSimple s hs)
  ordering m hm := h'.ordering m (h.ordering m hm)

end Extends

theorem WorksOut.extends (h : WorksOut l an an') : an.Extends an' := by
  cases h with
  | composite hn => exact { Extends.refl an with composite := by simp [hn] }
  | direct hn => exact { Extends.refl an with direct := by simp [hn] }
  | closure hn => exact { Extends.refl an with closure := by simp [hn] }
  | nonSimple hn => exact { Extends.refl an with nonSimple := by simp [hn] }
  | ordering hn => exact { Extends.refl an with ordering := by simp [hn] }

/-- The analyzer that has worked out every result from the library as it is now. -/
def complete (r : OntologyRef) (config : AnalyzerConfig) (l : Library) : Analyzer :=
  let axioms := (new r config).axioms l
  let composite := PropertyHierarchy.composite axioms
  let direct := PropertyHierarchy.direct axioms
  let closure := PropertyHierarchy.closure axioms direct
  { new r config with
    composite := some composite
    direct := some direct
    closure := some closure
    nonSimple := some (PropertyHierarchy.nonSimple composite closure)
    ordering := some (PropertyHierarchy.ordering axioms direct) }

/-- An analyzer of an ontology keeps nothing but what its library gives. -/
def IsCurrent (an : Analyzer) (r : OntologyRef) (config : AnalyzerConfig) (l : Library) : Prop :=
  an.Extends (complete r config l)

theorem WorksOut.isCurrent {r : OntologyRef} {config : AnalyzerConfig} (h : WorksOut l an an')
    (hc : an.IsCurrent r config l) : an'.IsCurrent r config l := by
  obtain rfl : r = an.ontology := hc.ontology
  obtain rfl : config = an.config := hc.config
  cases h with
  | composite => exact { hc with composite := fun _ hs => hs }
  | direct => exact { hc with direct := fun _ hm => hm }
  | closure _ hd =>
    obtain rfl := Option.some.inj (hc.direct _ hd)
    exact { hc with closure := fun _ hm => hm }
  | nonSimple _ hs hm =>
    obtain rfl := Option.some.inj (hc.composite _ hs)
    obtain rfl := Option.some.inj (hc.closure _ hm)
    exact { hc with nonSimple := fun _ hs => hs }
  | ordering _ hd =>
    obtain rfl := Option.some.inj (hc.direct _ hd)
    exact { hc with ordering := fun _ hm => hm }

/-- How many results are missing. -/
def missing (an : Analyzer) : Nat :=
  [an.composite.isNone, an.direct.isNone, an.closure.isNone, an.nonSimple.isNone,
    an.ordering.isNone].countP id

/-- Each result that is worked out is one less that is missing. -/
theorem WorksOut.rebuilds_add_missing (h : WorksOut l an an') :
    an'.rebuilds + an'.missing = an.rebuilds + an.missing := by
  cases h <;> simp_all [missing, List.countP_cons] <;> omega

theorem WorksOut.invalidations (h : WorksOut l an an') : an'.invalidations = an.invalidations := by
  cases h <;> rfl

/-! ### Queries as steps -/

theorem compositeProperties_steps (an : Analyzer) (l : Library) :
    ReflTransGen (WorksOut l) an (an.compositeProperties l).2 ∧
      (an.compositeProperties l).2.composite = some (an.compositeProperties l).1 := by
  unfold compositeProperties
  split
  · next kept h => exact ⟨.refl, h⟩
  · next h => exact ⟨.single (.composite h), rfl⟩

theorem directHierarchy_steps (an : Analyzer) (l : Library) :
    ReflTransGen (WorksOut l) an (an.directHierarchy l).2 ∧
      (an.directHierarchy l).2.direct = some (an.directHierarchy l).1 := by
  unfold directHierarchy
  split
  · next kept h => exact ⟨.refl, h⟩
  · next h => exact ⟨.single (.direct h), rfl⟩

theorem Extends.of_steps (h : ReflTransGen (WorksOut l) an an') : an.Extends an' := by
  induction h with
  | refl => exact .refl an
  | tail _ hstep ih => exact ih.trans hstep.extends

theorem hierarchyClosure_steps (an : Analyzer) (l : Library) :
    ReflTransGen (WorksOut l) an (an.hierarchyClosure l).2 ∧
      (an.hierarchyClosure l).2.closure = some (an.hierarchyClosure l).1 := by
  obtain ⟨hsteps, hdirect⟩ := directHierarchy_steps an l
  unfold hierarchyClosure
  dsimp only
  split
  · next kept h => exact ⟨hsteps, h⟩
  · next h => exact ⟨hsteps.tail (.closure h hdirect), rfl⟩

theorem nonSimpleProperties_steps (an : Analyzer) (l : Library) :
    ReflTransGen (WorksOut l) an (an.nonSimpleProperties l).2 ∧
      (an.nonSimpleProperties l).2.nonSimple = some (an.nonSimpleProperties l).1 := by
  obtain ⟨hsteps, hcomposite⟩ := compositeProperties_steps an l
  obtain ⟨hsteps', hclosure⟩ := hierarchyClosure_steps (an.compositeProperties l).2 l
  have hkept := (Extends.of_steps hsteps').composite _ hcomposite
  unfold nonSimpleProperties
  dsimp only
  split
  · next kept h => exact ⟨hsteps.trans hsteps', h⟩
  · next h => exact ⟨(hsteps.trans hsteps').tail (.nonSimple h hkept hclosure), rfl⟩

theorem partialOrdering_steps (an : Analyzer) (l : Library) :
    ReflTransGen (WorksOut l) an (an.partialOrdering l).2 ∧
      (an.partialOrdering l).2.ordering = some (an.partialOrdering l).1 := by
  obtain ⟨hsteps, hdirect⟩ := directHierarchy_steps an l
  unfold partialOrdering
  dsimp only
  split
  · next kept h => exact ⟨hsteps, h⟩
  · next h => exact ⟨hsteps.tail (.ordering h hdirect), rfl⟩

/-- A query works out results that are missing, and changes nothing else. -/
theorem answer_steps (an : Analyzer) (l : Library) {q : Query} (hq : q ≠ .invalidate) :
    ReflTransGen (WorksOut l) an (an.answer l q).2 := by
  cases q with
  | composite => exact (compositeProperties_steps an l).1
  | hierarchy => exact (directHierarchy_steps an l).1
  | closure => exact (hierarchyClosure_steps an l).1
  | nonSimple => exact (nonSimpleProperties_steps an l).1
  | ordering => exact (partialOrdering_steps an l).1
  | isComposite => exact (compositeProperties_steps an l).1
  | isNonSimple => exact (nonSimpleProperties_steps an l).1
  | isSub => exact (hierarchyClosure_steps an l).1
  | isLess => exact (partialOrdering_steps an l).1
  | invalidate => exact absurd rfl hq
  | equivalents => exact .refl
  | stats => exact .refl
  | config => exact .refl
  | ontology => exact .refl
  | outline => exact .refl

/-! ### Answers from kept results -/

/-- The answer that is read off the results that an analyzer keeps, if they give one. -/
def kept? (an : Analyzer) : Query → Option Answer
  | .composite => an.composite.map .properties
  | .hierarchy => an.direct.map .relation
  | .closure => an.closure.map .relation
  | .nonSimple => an.nonSimple.map .properties
  | .ordering => an.ordering.map .relation
  | .isComposite p => an.composite.map fun s => .truth (decide (p.simplified ∈ s))
  | .isNonSimple p => an.nonSimple.map fun s => .truth (decide (p.simplified ∈ s))
  | .isSub p q => an.closure.map fun m => .truth (PropertyHierarchy.isAtOrBelow m p q)
  | .isLess p q => an.ordering.map fun m => .truth (PropertyHierarchy.isAtOrBelow m p q)
  | _ => none

/-- After a query its answer is kept. -/
theorem kept?_answer (an : Analyzer) (l : Library) {q : Query} (hq : q.IsAnalysis) :
    (an.answer l q).2.kept? q = some (an.answer l q).1 := by
  have hcomposite := (compositeProperties_steps an l).2
  have hdirect := (directHierarchy_steps an l).2
  have hclosure := (hierarchyClosure_steps an l).2
  have hnonSimple := (nonSimpleProperties_steps an l).2
  have hordering := (partialOrdering_steps an l).2
  cases q with
  | composite => exact congrArg (Option.map _) hcomposite
  | hierarchy => exact congrArg (Option.map _) hdirect
  | closure => exact congrArg (Option.map _) hclosure
  | nonSimple => exact congrArg (Option.map _) hnonSimple
  | ordering => exact congrArg (Option.map _) hordering
  | isComposite p => exact congrArg (Option.map _) hcomposite
  | isNonSimple p => exact congrArg (Option.map _) hnonSimple
  | isSub p p' => exact congrArg (Option.map _) hclosure
  | isLess p p' => exact congrArg (Option.map _) hordering
  | equivalents | invalidate | stats | config | ontology | outline => exact hq.elim

theorem Extends.kept? {q : Query} {x : Answer} (h : an.Extends an') (hx : an.kept? q = some x) :
    an'.kept? q = some x := by
  cases q <;> simp only [Analyzer.kept?, reduceCtorEq, Option.map_eq_some_iff] at hx ⊢
  case composite | isComposite => exact hx.imp fun s hs => ⟨h.composite s hs.1, hs.2⟩
  case hierarchy => exact hx.imp fun m hm => ⟨h.direct m hm.1, hm.2⟩
  case closure | isSub => exact hx.imp fun m hm => ⟨h.closure m hm.1, hm.2⟩
  case nonSimple | isNonSimple => exact hx.imp fun s hs => ⟨h.nonSimple s hs.1, hs.2⟩
  case ordering | isLess => exact hx.imp fun m hm => ⟨h.ordering m hm.1, hm.2⟩

/-- What is kept is what is answered. -/
theorem answer_of_kept? {q : Query} {x : Answer} (hq : q.IsAnalysis) (hx : an.kept? q = some x) :
    (an.answer l q).1 = x := by
  have hkept := (Extends.of_steps (answer_steps an l hq.ne_invalidate)).kept? hx
  rw [kept?_answer an l hq] at hkept
  exact Option.some.inj hkept

/-! ### What queries preserve -/

variable {r : OntologyRef} {config : AnalyzerConfig}

/-- An analyzer that keeps no result is not out of date. -/
theorem isCurrent_new (r : OntologyRef) (config : AnalyzerConfig) (l : Library) :
    (new r config).IsCurrent r config l where
  ontology := rfl
  config := rfl
  composite _ h := by cases h
  direct _ h := by cases h
  closure _ h := by cases h
  nonSimple _ h := by cases h
  ordering _ h := by cases h

theorem isCurrent_invalidate (an : Analyzer) (l : Library) :
    an.invalidate.IsCurrent an.ontology an.config l :=
  { isCurrent_new an.ontology an.config l with }

theorem IsCurrent.of_steps (h : an.IsCurrent r config l) (hs : ReflTransGen (WorksOut l) an an') :
    an'.IsCurrent r config l := by
  induction hs with
  | refl => exact h
  | tail _ hstep ih => exact hstep.isCurrent ih

/-- The answer of an analyzer that is not out of date depends on the library alone. -/
theorem IsCurrent.kept?_complete (h : an.IsCurrent r config l) {q : Query} (hq : q.IsAnalysis) :
    (complete r config l).kept? q = some (an.answer l q).1 :=
  (h.of_steps (answer_steps an l hq.ne_invalidate)).kept? (kept?_answer an l hq)

/-- The results that have been worked out and those that are missing make five for each time that
results were given up, and five for the start. -/
def WithinBudget (an : Analyzer) : Prop :=
  an.rebuilds + an.missing ≤ 5 * (an.invalidations + 1)

theorem WithinBudget.of_steps (h : an.WithinBudget) (hs : ReflTransGen (WorksOut l) an an') :
    an'.WithinBudget := by
  induction hs with
  | refl => exact h
  | tail _ hstep ih =>
    unfold WithinBudget at ih ⊢
    rw [hstep.rebuilds_add_missing, hstep.invalidations]
    exact ih

theorem WithinBudget.invalidate (h : an.WithinBudget) : an.invalidate.WithinBudget := by
  have hmissing : an.invalidate.missing = 5 := rfl
  unfold WithinBudget at h ⊢
  rw [hmissing]
  simp only [Analyzer.invalidate]
  omega

/-! ### What sessions preserve -/

namespace Session

variable {s : Session} {e : Event} {events : List Event}

theorem extends_step (s : Session) (he : e.isInvalidate = false) :
    s.analyzer.Extends (s.step e).analyzer := by
  cases e with
  | edit change => exact .refl s.analyzer
  | ask q =>
    refine .of_steps (answer_steps s.analyzer s.library ?_)
    rintro rfl
    cases he

theorem extends_run (s : Session) (h : ∀ e ∈ events, e.isInvalidate = false) :
    s.analyzer.Extends (s.run events).analyzer := by
  induction events generalizing s with
  | nil => exact .refl s.analyzer
  | cons e events ih =>
    obtain ⟨he, hrest⟩ := List.forall_mem_cons.1 h
    exact (s.extends_step he).trans (ih (s.step e) hrest)

/-- An analyzer reads one ontology under one set of options as long as it exists. -/
theorem ontology_config_step (s : Session) (e : Event) :
    (s.step e).analyzer.ontology = s.analyzer.ontology ∧
      (s.step e).analyzer.config = s.analyzer.config := by
  cases he : e.isInvalidate with
  | false => exact ⟨(s.extends_step he).ontology, (s.extends_step he).config⟩
  | true =>
    unfold Event.isInvalidate at he
    split at he
    · exact ⟨rfl, rfl⟩
    · cases he

theorem ontology_config_run (s : Session) (events : List Event) :
    (s.run events).analyzer.ontology = s.analyzer.ontology ∧
      (s.run events).analyzer.config = s.analyzer.config := by
  induction events generalizing s with
  | nil => exact ⟨rfl, rfl⟩
  | cons e events ih =>
    obtain ⟨ho, hc⟩ := ih (s.step e)
    exact ⟨ho.trans (s.ontology_config_step e).1, hc.trans (s.ontology_config_step e).2⟩

/-- What holds of an analyzer through all that it works out, and when it gives its results up, holds
of it through every session, however the library changes. -/
theorem preserves_run {P : Analyzer → Prop}
    (hsteps : ∀ l an an', P an → ReflTransGen (WorksOut l) an an' → P an')
    (hinvalidate : ∀ an, P an → P an.invalidate) (h : P s.analyzer) (events : List Event) :
    P (s.run events).analyzer := by
  induction events generalizing s with
  | nil => exact h
  | cons e events ih =>
    refine ih (s := s.step e) ?_
    cases e with
    | edit change => exact h
    | ask q =>
      by_cases hq : q = .invalidate
      · subst hq
        exact hinvalidate s.analyzer h
      · exact hsteps s.library _ _ h (answer_steps s.analyzer s.library hq)

/-- Nothing in the session is out of date. -/
def IsCurrent (s : Session) (r : OntologyRef) (config : AnalyzerConfig) : Prop :=
  s.analyzer.IsCurrent r config s.library

theorem IsCurrent.step (h : s.IsCurrent r config) (he : e.isEdit = false) :
    (s.step e).IsCurrent r config := by
  cases e with
  | edit change => cases he
  | ask q =>
    by_cases hq : q = .invalidate
    · subst hq
      obtain rfl : r = s.analyzer.ontology := h.ontology
      obtain rfl : config = s.analyzer.config := h.config
      exact isCurrent_invalidate s.analyzer s.library
    · exact Analyzer.IsCurrent.of_steps h (answer_steps s.analyzer s.library hq)

theorem IsCurrent.run (h : s.IsCurrent r config) (hno : ∀ e ∈ events, e.isEdit = false) :
    (s.run events).IsCurrent r config := by
  induction events generalizing s with
  | nil => exact h
  | cons e events ih =>
    obtain ⟨he, hrest⟩ := List.forall_mem_cons.1 hno
    exact ih (h.step he) hrest

/-- A new session is not out of date, and neither is one whose results have just been given up. -/
theorem isCurrent_run_start {l : Library} {before : List Event}
    (h : before = [] ∨ ∃ earlier, before = earlier ++ [.ask .invalidate]) :
    ((start r config l).run before).IsCurrent r config := by
  rcases h with rfl | ⟨earlier, rfl⟩
  · exact isCurrent_new r config l
  · obtain ⟨ho, hc⟩ := (start r config l).ontology_config_run earlier
    have hcurrent := isCurrent_invalidate ((start r config l).run earlier).analyzer
      ((start r config l).run earlier).library
    rw [ho, hc] at hcurrent
    rw [run_append]
    exact hcurrent

theorem IsCurrent.answer_eq (h : s.IsCurrent r config) {q : Query} (hq : q.IsAnalysis) :
    s.answer q = (start r config s.library).answer q := by
  have hkept := Analyzer.IsCurrent.kept?_complete h hq
  rw [(isCurrent_new r config s.library).kept?_complete hq] at hkept
  exact (Option.some.inj hkept).symm

theorem answer_isComposite (s : Session) (p : ObjectPropertyExpression) :
    s.answer (.isComposite p) = .truth (s.analyzer.isComposite s.library p).1 := rfl

theorem withinBudget_run (h : s.analyzer.WithinBudget) (events : List Event) :
    (s.run events).analyzer.WithinBudget :=
  preserves_run (fun _ _ _ h hs => h.of_steps hs) (fun _ h => h.invalidate) h events

/-- In any session, without a change of the library since the results were last given up, or since
the analyzer was made, the analyzer answers as a new one with the same options does. As long as the
results are not given up, it gives one answer to one query, whatever changes. And it never counts
more than five results worked out for each time that they were given up, and five for the start. -/
theorem run_answers (l : Library) (r : OntologyRef) (config : AnalyzerConfig) :
    (∀ before after q, q.IsAnalysis →
        (before = [] ∨ ∃ earlier, before = earlier ++ [.ask .invalidate]) →
        (∀ e ∈ after, e.isEdit = false) →
          let s := (start r config l).run (before ++ after)
          s.answer q = (start r config s.library).answer q) ∧
      (∀ before after q, q.IsAnalysis → (∀ e ∈ after, e.isInvalidate = false) →
        let s := (start r config l).run before
        ((s.step (.ask q)).run after).answer q = s.answer q) ∧
      ∀ events, ∃ rebuilds invalidations,
        ((start r config l).run events).answer .stats = .stats rebuilds invalidations ∧
          rebuilds ≤ 5 * (invalidations + 1) := by
  refine ⟨?_, ?_, ?_⟩
  · intro before after q hq hbefore hafter s
    have hcurrent : s.IsCurrent r config := by
      show ((start r config l).run (before ++ after)).IsCurrent r config
      rw [run_append]
      exact (isCurrent_run_start hbefore).run hafter
    exact hcurrent.answer_eq hq
  · intro before after q hq hafter s
    have hkept := kept?_answer s.analyzer s.library hq
    exact answer_of_kept? hq (((s.step (.ask q)).extends_run hafter).kept? hkept)
  · intro events
    have hstart : (start r config l).analyzer.WithinBudget := Nat.le_refl 5
    have hrun := withinBudget_run hstart events
    exact ⟨_, _, rfl, Nat.le_trans (Nat.le_add_right _ _) hrun⟩

/-- A property becomes transitive. The analyzer answers that it is not composite until it gives its
results up, and from then on that it is. -/
theorem run_answers_stale :
    let r : OntologyRef := ⟨0, ⟨"o"⟩⟩
    let p : ObjectPropertyExpression := .named ⟨⟨"p"⟩⟩
    let l := ((Library.empty 1).standalone r.id).2
    let change : Event := .edit fun l => (l.add r (.transitiveObjectProperty p)).2
    let s := start r ⟨.excluded⟩ l
    let stale := (s.step (.ask (.isComposite p))).run [change, .ask .nonSimple]
    let current := s.run ([.ask .hierarchy, change, .ask .invalidate] ++ [.ask .closure])
    s.answer (.isComposite p) = .truth false ∧
      stale.answer (.isComposite p) = s.answer (.isComposite p) ∧
      (start r ⟨.excluded⟩ current.library).answer (.isComposite p) = .truth true ∧
      current.answer (.isComposite p) =
        (start r ⟨.excluded⟩ current.library).answer (.isComposite p) := by
  intro r p l change s stale current
  obtain ⟨hcurrent, hstale, -⟩ := run_answers l r ⟨.excluded⟩
  have hfirst : ((new r ⟨.excluded⟩).isComposite l p).1 = false := by decide
  have hlast : ((new r ⟨.excluded⟩).isComposite
      (l.add r (.transitiveObjectProperty p)).2 p).1 = true := by decide
  have hlibrary : current.library = (l.add r (.transitiveObjectProperty p)).2 := rfl
  refine ⟨?_, ?_, ?_, ?_⟩
  · rw [answer_isComposite]
    exact congrArg Answer.truth hfirst
  · exact hstale [] [change, .ask .nonSimple] (.isComposite p) trivial
      (by simp [change, Event.isInvalidate])
  · rw [answer_isComposite, hlibrary]
    exact congrArg Answer.truth hlast
  · exact hcurrent [.ask .hierarchy, change, .ask .invalidate] [.ask .closure] (.isComposite p)
      trivial (.inr ⟨[.ask .hierarchy, change], rfl⟩) (by simp [Event.isEdit])

end Session

end OwlStructure.Analyzer
