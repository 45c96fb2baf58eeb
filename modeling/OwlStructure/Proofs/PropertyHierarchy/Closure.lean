import OwlStructure.Proofs.Collections.Reachability
import OwlStructure.Proofs.PropertyHierarchy.Scope

/-!
The sub-property relation that axioms declare, and the closure that an analyzer works out from it.
Two properties are related in the closure exactly when declared steps lead from one to the other.
-/
namespace OwlStructure

open Relation

namespace PropertyHierarchy

/-- An axiom puts a property below another. With every such pair goes that of the inverses. -/
inductive Declares : AxiomKind → ObjectPropertyExpression → ObjectPropertyExpression → Prop where
  | sub (p q) : Declares (.subObjectPropertyOf p q) p q
  | subInverse (p q) : Declares (.subObjectPropertyOf p q) (.inverse p) (.inverse q)
  | equivalent {ops p q} (hp : p ∈ ops) (hq : q ∈ ops) (hne : p ≠ q) :
    Declares (.equivalentObjectProperties ops) p q
  | equivalentInverse {ops p q} (hp : p ∈ ops) (hq : q ∈ ops) (hne : p ≠ q) :
    Declares (.equivalentObjectProperties ops) (.inverse p) (.inverse q)
  | first (p q) : Declares (.inverseObjectProperties p q) p (.inverse q)
  | firstInverse (p q) : Declares (.inverseObjectProperties p q) (.inverse p) q
  | second (p q) : Declares (.inverseObjectProperties p q) q (.inverse p)
  | secondInverse (p q) : Declares (.inverseObjectProperties p q) (.inverse q) p
  | symmetric (p) : Declares (.symmetricObjectProperty p) p (.inverse p)
  | symmetricInverse (p) : Declares (.symmetricObjectProperty p) (.inverse p) p

/-- One of some axioms puts a simplified property directly below another. -/
def Step (axioms : List Axiom) (p q : ObjectPropertyExpression) : Prop :=
  ∃ a ∈ axioms, ∃ sub sup, Declares a.kind sub sup ∧ p = sub.simplified ∧ q = sup.simplified

theorem mem_arrowsBelow {sub sup p q : ObjectPropertyExpression} :
    (p, q) ∈ arrowsBelow sub sup ↔
      (p = sub.simplified ∧ q = sup.simplified) ∨
        (p = (ObjectPropertyExpression.inverse sub).simplified ∧
          q = (ObjectPropertyExpression.inverse sup).simplified) := by
  simp [arrowsBelow, ObjectPropertyExpression.inverseSimplified]

theorem mem_declaredArrows {k : AxiomKind} {p q : ObjectPropertyExpression} :
    (p, q) ∈ declaredArrows k ↔
      ∃ sub sup, Declares k sub sup ∧ p = sub.simplified ∧ q = sup.simplified := by
  have hi := ObjectPropertyExpression.simplified_inverse_inverse
  constructor
  · intro h
    cases k <;> simp only [declaredArrows, List.not_mem_nil] at h
    case subObjectPropertyOf sub sup =>
      rcases mem_arrowsBelow.1 h with ⟨hp, hq⟩ | ⟨hp, hq⟩
      · exact ⟨_, _, .sub _ _, hp, hq⟩
      · exact ⟨_, _, .subInverse _ _, hp, hq⟩
    case equivalentObjectProperties ops =>
      obtain ⟨sub, hsub, h⟩ := List.mem_flatMap.1 h
      obtain ⟨sup, hsup, h⟩ := List.mem_flatMap.1 h
      by_cases he : sub = sup
      · simp [he] at h
      · rw [if_neg he] at h
        rcases mem_arrowsBelow.1 h with ⟨hp, hq⟩ | ⟨hp, hq⟩
        · exact ⟨_, _, .equivalent hsub hsup he, hp, hq⟩
        · exact ⟨_, _, .equivalentInverse hsub hsup he, hp, hq⟩
    case inverseObjectProperties first second =>
      rcases List.mem_append.1 h with h | h
      · rcases mem_arrowsBelow.1 h with ⟨hp, hq⟩ | ⟨hp, hq⟩
        · exact ⟨_, _, .first _ _, hp, hq⟩
        · exact ⟨_, _, .firstInverse _ _, hp, hq.trans (hi second)⟩
      · rcases mem_arrowsBelow.1 h with ⟨hp, hq⟩ | ⟨hp, hq⟩
        · exact ⟨_, _, .second _ _, hp, hq⟩
        · exact ⟨_, _, .secondInverse _ _, hp, hq.trans (hi first)⟩
    case symmetricObjectProperty sub =>
      rcases mem_arrowsBelow.1 h with ⟨hp, hq⟩ | ⟨hp, hq⟩
      · exact ⟨_, _, .symmetric _, hp, hq⟩
      · exact ⟨_, _, .symmetricInverse _, hp, hq.trans (hi sub)⟩
  · rintro ⟨sub, sup, h, rfl, rfl⟩
    cases h with
    | sub | subInverse => simp [declaredArrows, mem_arrowsBelow]
    | equivalent hsub hsup he =>
      refine List.mem_flatMap.2 ⟨sub, hsub, List.mem_flatMap.2 ⟨sup, hsup, ?_⟩⟩
      rw [if_neg he, mem_arrowsBelow]
      exact .inl ⟨rfl, rfl⟩
    | equivalentInverse hsub hsup he =>
      refine List.mem_flatMap.2 ⟨_, hsub, List.mem_flatMap.2 ⟨_, hsup, ?_⟩⟩
      rw [if_neg he, mem_arrowsBelow]
      exact .inr ⟨rfl, rfl⟩
    | first | firstInverse | second | secondInverse =>
      simp [declaredArrows, mem_arrowsBelow, hi]
    | symmetric | symmetricInverse => simp [declaredArrows, mem_arrowsBelow, hi]

theorem leads_direct {axioms : List Axiom} {p q : ObjectPropertyExpression} :
    (direct axioms).Leads p q ↔ Step axioms p q := by
  unfold direct Step
  rw [SortedMap.leads_ofArrows, List.mem_flatMap]
  simp only [mem_declaredArrows]

theorem leads_direct_eq (axioms : List Axiom) : (direct axioms).Leads = Step axioms := by
  funext p q
  exact propext leads_direct

theorem noneEmpty_direct (axioms : List Axiom) : (direct axioms).NoneEmpty :=
  SortedMap.noneEmpty_empty.foldl_addArrow _

/-! ### Closures -/

theorem mem_mentioned {axioms : List Axiom} {p : ObjectProperty} :
    p ∈ mentioned axioms ↔ ∃ a ∈ axioms, .objectProperty p ∈ signature a := by
  unfold mentioned
  rw [SortedSet.mem_ofList, List.mem_filterMap]
  simp only [List.mem_flatMap, mem_signature]
  constructor
  · rintro ⟨e, ⟨a, ha, he⟩, hp⟩
    cases e <;> simp only [Entity.asObjectProperty?, reduceCtorEq, Option.some.injEq] at hp
    exact ⟨a, ha, hp ▸ he, rfl⟩
  · rintro ⟨a, ha, he, _⟩
    exact ⟨_, ⟨a, ha, he⟩, rfl⟩

theorem mem_domain {axioms : List Axiom} {m : PropertyMap} {p : ObjectPropertyExpression} :
    p ∈ domain axioms m ↔
      (∃ q ∈ mentioned axioms, p = .named q ∨ p = .inverse (.named q)) ∨
        p ∈ m.keys ∨ ∃ k, m.Leads k p := by
  unfold domain
  rw [SortedSet.mem_ofList, List.mem_append, List.mem_flatMap, List.mem_flatMap]
  refine or_congr (by simp [SortedSet.mem_toList]) ?_
  simp only [Prod.exists, List.mem_cons, SortedMap.mem_entries_iff, SortedMap.mem_keys_iff,
    SortedMap.leads_iff]
  constructor
  · rintro ⟨k, s, hs, rfl | hp⟩
    · exact .inl ⟨s, hs⟩
    · exact .inr ⟨k, s, hs, hp⟩
  · rintro (⟨s, hs⟩ | ⟨k, s, hs, hp⟩)
    · exact ⟨p, s, hs, .inl rfl⟩
    · exact ⟨k, s, hs, .inr hp⟩

theorem find?_closure {axioms : List Axiom} {m : PropertyMap} {p : ObjectPropertyExpression} :
    (closure axioms m).find? p = if p ∈ domain axioms m then some (m.reachable p) else none :=
  SortedMap.find?_tabulate

theorem keys_closure (axioms : List Axiom) (m : PropertyMap) :
    (closure axioms m).keys = domain axioms m := SortedMap.keys_tabulate _ _

/-- A property without an entry leads nowhere. -/
theorem eq_of_not_mem_domain {axioms : List Axiom} {m : PropertyMap}
    {p q : ObjectPropertyExpression} (hp : p ∉ domain axioms m)
    (h : ReflTransGen m.Leads p q) : p = q := by
  rcases h.cases_head with h | ⟨x, hx, _⟩
  · exact h
  · obtain ⟨s, hs, _⟩ := SortedMap.leads_iff.1 hx
    exact absurd (mem_domain.2 (.inr (.inl (SortedMap.mem_keys_iff.2 ⟨s, hs⟩)))) hp

theorem isAtOrBelow_closure {axioms : List Axiom} {m : PropertyMap}
    {p q : ObjectPropertyExpression} :
    isAtOrBelow (closure axioms m) p q = true ↔
      ReflTransGen m.Leads p.simplified q.simplified := by
  unfold isAtOrBelow
  rw [find?_closure]
  by_cases hp : p.simplified ∈ domain axioms m
  · simp only [hp, ↓reduceIte, decide_eq_true_eq]
    exact SortedMap.mem_reachable_iff
  · simp only [hp, ↓reduceIte, decide_eq_true_eq]
    exact ⟨fun h => h ▸ .refl, eq_of_not_mem_domain hp⟩

end PropertyHierarchy

/-! ### Analyzers -/

open PropertyHierarchy

theorem Analyzer.isSubPropertyOf_new_iff (l : Library) (r : OntologyRef) (config : AnalyzerConfig)
    (p q : ObjectPropertyExpression) :
    ((new r config).isSubPropertyOf l p q).1 = true ↔
      ReflTransGen (Step ((new r config).axioms l)) p.simplified q.simplified := by
  rw [← leads_direct_eq]
  exact isAtOrBelow_closure

/-- On a new analyzer of any ontology, with or without its imports, one property is below another
exactly when steps that the axioms in scope declare lead up to it. The closure has an entry for each
object property that these axioms mention, for its inverse, and for both ends of each step; the
entry holds what can be reached, and a property without an entry is below itself alone. -/
theorem Analyzer.isSubPropertyOf_iff_steps (l : Library) (r : OntologyRef)
    (config : AnalyzerConfig) :
    let an := Analyzer.new r config
    let axioms := an.axioms l
    let step := Step axioms
    let closed := (an.hierarchyClosure l).1
    IsScope l r config.imports axioms ∧
      (∀ p q, (an.isSubPropertyOf l p q).1 = true ↔
        ReflTransGen step p.simplified q.simplified) ∧
      (∀ p, p ∈ closed.keys ↔
        (∃ q, (∃ a ∈ axioms, .objectProperty q ∈ signature a) ∧
          (p = .named q ∨ p = .inverse (.named q))) ∨ ∃ q, step p q ∨ step q p) ∧
      (∀ p above, closed.find? p = some above → ∀ q, q ∈ above ↔ ReflTransGen step p q) ∧
      ∀ p q, p.simplified ∉ closed.keys →
        ((an.isSubPropertyOf l p q).1 = true ↔ p.simplified = q.simplified) := by
  intro an axioms step closed
  have hstep : (PropertyHierarchy.direct axioms).Leads = step := by
    funext p q
    exact propext leads_direct
  have hsub (p q : ObjectPropertyExpression) : (an.isSubPropertyOf l p q).1 = true ↔
      ReflTransGen step p.simplified q.simplified := by
    rw [← hstep]
    exact isAtOrBelow_closure
  have hkeys : closed.keys = domain axioms (PropertyHierarchy.direct axioms) :=
    keys_closure _ _
  refine ⟨isScope_axioms l r config, hsub, ?_, ?_, ?_⟩
  · intro p
    rw [hkeys, mem_domain, (noneEmpty_direct _).mem_keys_iff, ← hstep, exists_or]
    simp only [mem_mentioned]
  · intro p above h q
    have hc : (PropertyHierarchy.closure axioms
        (PropertyHierarchy.direct axioms)).find? p = some above := h
    rw [find?_closure] at hc
    split at hc
    · cases hc
      rw [← hstep]
      exact SortedMap.mem_reachable_iff
    · cases hc
  · intro p q hp
    rw [hkeys] at hp
    rw [hsub, ← hstep]
    exact ⟨eq_of_not_mem_domain hp, fun h => h ▸ .refl⟩

/-- A property is below one that an imported ontology makes symmetric, and so below the inverse of
that one; a property that neither ontology mentions is below no other. -/
theorem Analyzer.isSubPropertyOf_iff_steps_symmetric :
    let r : OntologyRef := ⟨0, ⟨"o"⟩⟩
    let s : OntologyRef := ⟨1, ⟨"i"⟩⟩
    let p : ObjectPropertyExpression := .named ⟨⟨"p"⟩⟩
    let q : ObjectPropertyExpression := .named ⟨⟨"q"⟩⟩
    let x : ObjectPropertyExpression := .named ⟨⟨"r"⟩⟩
    let made := (((Library.empty 1).standalone r.id).2.standalone s.id).2
    let linked := ((made.addImport r s).2.addImport s r).2
    let l := ((linked.add r (.subObjectPropertyOf x p)).2.add s (.symmetricObjectProperty p)).2
    let an := Analyzer.new r ⟨.included⟩
    (an.isSubPropertyOf l x (.inverse (.inverse (.inverse p)))).1 = true ∧
      q.simplified ∉ (an.hierarchyClosure l).1.keys ∧ (an.isSubPropertyOf l q p).1 = false := by
  intro r s p q x made linked l an
  obtain ⟨hscope, hsub, hkeys, -, hout⟩ := Analyzer.isSubPropertyOf_iff_steps l r ⟨.included⟩
  have hmem := hscope.mem_iff_of_mutual (s := s) rfl rfl (by decide) (by decide)
  have hbelow : .subObjectPropertyOf x p ∈ an.axioms l := (hmem _).2 (.inl List.mem_cons_self)
  have hsymmetric : .symmetricObjectProperty p ∈ an.axioms l :=
    (hmem _).2 (.inr List.mem_cons_self)
  have hall (a : Axiom) (ha : a ∈ an.axioms l) :
      a = .subObjectPropertyOf x p ∨ a = .symmetricObjectProperty p :=
    ((hmem a).1 ha).imp List.mem_singleton.1 List.mem_singleton.1
  have hstep (y z : ObjectPropertyExpression) (h : Step (an.axioms l) y z) :
      q.simplified ≠ y ∧ q.simplified ≠ z := by
    obtain ⟨a, ha, sub, sup, hd, rfl, rfl⟩ := h
    rcases hall a ha with rfl | rfl <;> cases hd <;> decide
  have hq : q.simplified ∉ (an.hierarchyClosure l).1.keys := by
    intro h
    rcases (hkeys _).1 h with ⟨y, ⟨a, ha, hy⟩, he⟩ | ⟨y, hy | hy⟩
    · obtain rfl : y = ⟨⟨"q"⟩⟩ := by
        rcases he with he | he
        · exact (ObjectPropertyExpression.named.inj he).symm
        · cases he
      rcases hall a ha with rfl | rfl <;> exact absurd hy (by decide)
    · exact (hstep _ _ hy).1 rfl
    · exact (hstep _ _ hy).2 rfl
  have hxp : Step (an.axioms l) x.simplified p.simplified := ⟨_, hbelow, x, p, .sub x p, rfl, rfl⟩
  have hinverse : Step (an.axioms l) p.simplified
      (ObjectPropertyExpression.inverse (.inverse (.inverse p))).simplified :=
    ⟨_, hsymmetric, _, _, .symmetric p, rfl, by decide⟩
  have hqp : (an.isSubPropertyOf l q p).1 = true ↔ q.simplified = p.simplified := hout q p hq
  have hne : q.simplified ≠ p.simplified := by decide
  exact ⟨(hsub x _).2 (.head hxp (.single hinverse)), hq, Bool.eq_false_iff.2 (mt hqp.1 hne)⟩

end OwlStructure
