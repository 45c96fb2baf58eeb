import OwlStructure.Proofs.PropertyHierarchy.CompositeNames
import OwlStructure.Proofs.PropertyHierarchy.NestedInverses
import OwlStructure.Proofs.PropertyHierarchy.Simplicity

/-!
Composite properties are not simple, and neither is what stands above one, as long as some axiom in
scope mentions them. A composite property that no axiom mentions has the name of the top or of the
bottom property, which are composite in every ontology.
-/
namespace OwlStructure

open Relation ObjectPropertyExpression

namespace PropertyHierarchy

variable {axioms : List Axiom} {a : Axiom} {n : ObjectProperty}
  {c p q x : ObjectPropertyExpression}

/-! ### What axioms mention -/

theorem mem_mentioned_of_linkedNames (ha : a ∈ axioms) (hn : n ∈ linkedNames a.kind) :
    n ∈ mentioned axioms := by
  obtain ⟨p, rfl, hp⟩ : ∃ p : ObjectPropertyExpression,
      p.namedProperty = n ∧ p.entity ∈ a.kind.entities := by
    generalize a.kind = k at hn
    cases k <;> simp only [linkedNames, List.not_mem_nil] at hn
    case equivalentObjectProperties ops =>
      obtain ⟨p, hp, rfl⟩ := List.mem_map.1 hn
      exact ⟨p, rfl, List.mem_map_of_mem hp⟩
    case inverseObjectProperties first second =>
      simp only [List.mem_cons, List.not_mem_nil, or_false] at hn
      rcases hn with rfl | rfl
      · exact ⟨first, rfl, by simp [AxiomKind.entities]⟩
      · exact ⟨second, rfl, by simp [AxiomKind.entities]⟩
  exact mem_mentioned_of_mem_entities ha hp

theorem IsSeedName.builtin_or_mentioned (h : IsSeedName axioms n) :
    (n = .top ∨ n = .bottom) ∨ n ∈ mentioned axioms := by
  cases h with
  | top => exact .inl (.inl rfl)
  | bottom => exact .inl (.inr rfl)
  | transitive ha hk =>
    exact .inr (mem_mentioned_of_mem_entities ha (by simp [hk, AxiomKind.entities]))
  | chain ha hk _ =>
    exact .inr (mem_mentioned_of_mem_entities ha (by simp [hk, AxiomKind.entities]))

/-- Only the built-in properties are composite without being mentioned. -/
theorem isMentioned_of_mem_composite (hc : c ∈ composite axioms) (htop : c.namedProperty ≠ .top)
    (hbottom : c.namedProperty ≠ .bottom) : IsMentioned axioms c := by
  have hsimplified := simplified_of_mem_composite hc
  refine ⟨hsimplified, ?_⟩
  rw [← hsimplified] at hc
  rcases mem_composite_iff_name.1 hc with hseed | ⟨a, ha, hlinked, -⟩
  · exact hseed.builtin_or_mentioned.resolve_left (not_or.2 ⟨htop, hbottom⟩)
  · exact mem_mentioned_of_linkedNames ha hlinked

theorem IsMentioned.of_steps (hp : IsMentioned axioms p) (h : ReflTransGen (Step axioms) p q) :
    IsMentioned axioms q := by
  cases h with
  | refl => exact hp
  | tail _ hstep => exact hstep.isMentioned.2

theorem IsMentioned.of_steps_to (hq : IsMentioned axioms q)
    (h : ReflTransGen (Step axioms) p q) : IsMentioned axioms p := by
  rcases h.cases_head with rfl | ⟨x, hstep, -⟩
  · exact hq
  · exact hstep.isMentioned.1

/-- What stands above a seed is what is mentioned and stands above something composite. -/
theorem aboveSeed_iff :
    AboveSeed axioms x ↔
      IsMentioned axioms x ∧ ∃ c ∈ composite axioms, ReflTransGen (Step axioms) c x := by
  have hdomain (p : ObjectPropertyExpression) :
      p ∈ domain axioms (direct axioms) ↔ IsMentioned axioms p :=
    (liesWithin_direct axioms).mem_domain_iff
  constructor
  · rintro ⟨s, hs, hentry, hpath⟩
    exact ⟨((hdomain _).1 hentry).of_steps hpath, _, hs.mem_composite, hpath⟩
  · rintro ⟨hx, c, hc, hpath⟩
    have hentry := (hdomain c).2 (hx.of_steps_to hpath)
    exact ((nearSeed_of_mem_composite hc).above hentry).trans hpath

end PropertyHierarchy

/-! ### Analyzers -/

open PropertyHierarchy

namespace Analyzer

/-- On a new analyzer, a property is not simple exactly when some axiom in scope mentions it and a
composite property is at or below it. What is at or above a composite property is mentioned, and so
not simple, unless the composite property has the name of the top or of the bottom property: these
two are composite even where nothing mentions them. -/
theorem isNonSimple_iff_above_composite (l : Library) (r : OntologyRef) (config : AnalyzerConfig) :
    let an := new r config
    let axioms := an.axioms l
    IsScope l r config.imports axioms ∧
      (∀ x, (an.isNonSimple l x).1 = true ↔
        (∃ a ∈ axioms, .objectProperty x.namedProperty ∈ signature a) ∧
          ∃ c, (an.isComposite l c).1 = true ∧ (an.isSubPropertyOf l c x).1 = true) ∧
      ∀ c x, (an.isComposite l c).1 = true → (an.isSubPropertyOf l c x).1 = true →
        c.namedProperty ≠ .top → c.namedProperty ≠ .bottom → (an.isNonSimple l x).1 = true := by
  intro an axioms
  have hone (x : ObjectPropertyExpression) :
      (an.isNonSimple l x).1 = true ↔ AboveSeed axioms x.simplified := by
    rw [isNonSimple_iff, nonSimpleProperties_new]
    exact mem_nonSimple_iff (fun _ hs => hs.mem_composite) fun _ => nearSeed_of_mem_composite
  have hcomposite (c : ObjectPropertyExpression) :
      (an.isComposite l c).1 = true ↔ c.simplified ∈ PropertyHierarchy.composite axioms :=
    isComposite_new_iff l r config c
  have hsub (c x : ObjectPropertyExpression) :
      (an.isSubPropertyOf l c x).1 = true ↔
        ReflTransGen (Step axioms) c.simplified x.simplified :=
    isSubPropertyOf_new_iff l r config c x
  refine ⟨isScope_axioms l r config, fun x => ?_, fun c x hc hcx htop hbottom => ?_⟩
  · rw [hone, aboveSeed_iff, ← mem_mentioned]
    simp only [hcomposite, hsub]
    constructor
    · rintro ⟨⟨-, hname⟩, c, hc, hpath⟩
      have hsimplified := simplified_of_mem_composite hc
      rw [namedProperty_simplified] at hname
      exact ⟨hname, c, hsimplified.symm ▸ hc, hsimplified.symm ▸ hpath⟩
    · rintro ⟨hname, c, hc, hpath⟩
      rw [← namedProperty_simplified] at hname
      exact ⟨⟨simplified_simplified x, hname⟩, _, hc, hpath⟩
  · rw [hcomposite] at hc
    rw [hsub] at hcx
    rw [← namedProperty_simplified] at htop hbottom
    rw [hone, aboveSeed_iff]
    exact ⟨(isMentioned_of_mem_composite hc htop hbottom).of_steps hcx, _, hc, hcx⟩

/-- A property that an imported ontology makes transitive makes what is above it not simple. -/
theorem isNonSimple_iff_above_composite_transitive :
    let r : OntologyRef := ⟨0, ⟨"o"⟩⟩
    let s : OntologyRef := ⟨1, ⟨"i"⟩⟩
    let p : ObjectPropertyExpression := .named ⟨⟨"p"⟩⟩
    let q : ObjectPropertyExpression := .named ⟨⟨"q"⟩⟩
    let made := (((Library.empty 1).standalone r.id).2.standalone s.id).2
    let linked := ((made.addImport r s).2.addImport s r).2
    let l := ((linked.add r (.subObjectPropertyOf (.inverse p) q)).2.add s
      (.transitiveObjectProperty p)).2
    let an := new r ⟨.included⟩
    (an.isComposite l (.inverse p)).1 = true ∧ (an.isSubPropertyOf l (.inverse p) q).1 = true ∧
      (an.isNonSimple l q).1 = true := by
  intro r s p q made linked l an
  obtain ⟨hscope, -, habove⟩ := isNonSimple_iff_above_composite l r ⟨.included⟩
  have hmem := hscope.mem_iff_of_mutual (s := s) rfl rfl (by decide) (by decide)
  have htransitive : .transitiveObjectProperty p ∈ an.axioms l :=
    (hmem _).2 (.inr List.mem_cons_self)
  have hbelow : .subObjectPropertyOf (.inverse p) q ∈ an.axioms l :=
    (hmem _).2 (.inl List.mem_cons_self)
  have hseed : IsSeed (an.axioms l) (.inverse p) := .inverse (.transitive htransitive rfl)
  have hcomposite : (an.isComposite l (.inverse p)).1 = true :=
    (isComposite_new_iff l r ⟨.included⟩ (.inverse p)).2 hseed.mem_composite
  have hstep : Step (an.axioms l) (ObjectPropertyExpression.inverse p).simplified q.simplified :=
    ⟨_, hbelow, _, _, .sub _ _, rfl, rfl⟩
  have hsub : (an.isSubPropertyOf l (.inverse p) q).1 = true :=
    (isSubPropertyOf_new_iff l r ⟨.included⟩ (.inverse p) q).2 (.single hstep)
  exact ⟨hcomposite, hsub, habove _ q hcomposite hsub (by decide) (by decide)⟩

/-- Without axioms the top property is composite and below itself, and yet it counts as simple. -/
theorem isNonSimple_not_above_composite :
    let r : OntologyRef := ⟨0, ⟨"o"⟩⟩
    let l := ((Library.empty 1).standalone r.id).2
    let an := new r ⟨.excluded⟩
    (an.isComposite l (.named .top)).1 = true ∧
      (an.isSubPropertyOf l (.named .top) (.named .top)).1 = true ∧
      (an.isNonSimple l (.named .top)).1 = false := by
  intro r l an
  have hsub : (an.isSubPropertyOf l (.named .top) (.named .top)).1 = true :=
    (isSubPropertyOf_new_iff l r ⟨.excluded⟩ _ _).2 .refl
  exact ⟨by decide, hsub, by decide⟩

end Analyzer

end OwlStructure
