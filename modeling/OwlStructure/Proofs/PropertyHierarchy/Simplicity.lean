import OwlStructure.Proofs.PropertyHierarchy.Composite
import OwlStructure.Proofs.PropertyHierarchy.Inversion

/-!
Properties that are not simple. Declared equivalents and inverses of a composite property already
stand one step above it or its inverse in the hierarchy, so the properties that are not simple are
those at or above a property that is composite by itself.
-/
namespace OwlStructure

open Relation

namespace PropertyHierarchy

open ObjectPropertyExpression

variable {axioms : List Axiom} {a : Axiom} {p q s x y : ObjectPropertyExpression}
  {composite : SortedSet ObjectPropertyExpression}

/-! ### Partners stand above seeds -/

/-- A declared partner is the property itself, or stands a step above it or its inverse. -/
theorem Pairs.step (h : Pairs a.kind p q) (ha : a ∈ axioms) :
    p = q ∨ Step axioms p.simplified q.simplified ∨
      Step axioms p.inverseSimplified q.simplified := by
  generalize hk : a.kind = k at h
  cases h with
  | equivalent hp hq =>
    by_cases he : p = q
    · exact .inl he
    · exact .inr (.inl ⟨a, ha, p, q, hk ▸ .equivalent hp hq he, rfl, rfl⟩)
  | first => exact .inr (.inr ⟨a, ha, _, _, hk ▸ .firstInverse p q, rfl, rfl⟩)
  | second => exact .inr (.inr ⟨a, ha, _, _, hk ▸ .secondInverse q p, rfl, rfl⟩)

/-- A property is a seed, or stands a step above one. -/
def NearSeed (axioms : List Axiom) (x : ObjectPropertyExpression) : Prop :=
  ∃ s, IsSeed axioms s ∧ (s.simplified = x ∨ Step axioms s.simplified x)

theorem NearSeed.inverse (h : NearSeed axioms x) : NearSeed axioms x.inverseSimplified := by
  obtain ⟨s, hs, rfl | hstep⟩ := h
  · exact ⟨_, hs.inverse, .inl (inverseSimplified_simplified s).symm⟩
  · have hi := hstep.inverse
    rw [inverseSimplified_simplified] at hi
    exact ⟨_, hs.inverse, .inr hi⟩

theorem NearSeed.of_pairs (hs : IsSeed axioms s) (ha : a ∈ axioms) (h : Pairs a.kind p q)
    (hp : p.simplified = s.simplified) : NearSeed axioms q.simplified := by
  rcases h.step ha with rfl | hstep | hstep
  · exact ⟨s, hs, .inl hp.symm⟩
  · rw [hp] at hstep
    exact ⟨s, hs, .inr hstep⟩
  · rw [inverseSimplified_congr hp] at hstep
    exact ⟨_, hs.inverse, .inr hstep⟩

theorem nearSeed_of_mem_composite (h : x ∈ PropertyHierarchy.composite axioms) :
    NearSeed axioms x := by
  obtain ⟨s, hs, rfl | ⟨a, ha, p, q, hpairs, hp, hx⟩⟩ := mem_composite.1 h
  · exact ⟨s, hs, .inl rfl⟩
  · have hq := NearSeed.of_pairs hs ha hpairs hp
    rcases hx with rfl | rfl
    · exact hq
    · have hi := hq.inverse
      rwa [inverseSimplified_simplified] at hi

/-! ### What stands above seeds -/

/-- A property stands at or above a seed that has an entry in the closure. -/
def AboveSeed (axioms : List Axiom) (x : ObjectPropertyExpression) : Prop :=
  ∃ s, IsSeed axioms s ∧ s.simplified ∈ domain axioms (direct axioms) ∧
    ReflTransGen (Step axioms) s.simplified x

theorem AboveSeed.inverse (h : AboveSeed axioms x) : AboveSeed axioms x.inverseSimplified := by
  obtain ⟨s, hs, hdomain, hpath⟩ := h
  have hdomain' := inverseSimplified_mem_domain hdomain
  have hpath' := inverse_steps hpath
  rw [inverseSimplified_simplified] at hdomain' hpath'
  exact ⟨_, hs.inverse, hdomain', hpath'⟩

theorem AboveSeed.trans (h : AboveSeed axioms x) (hxy : ReflTransGen (Step axioms) x y) :
    AboveSeed axioms y := by
  obtain ⟨s, hs, hdomain, hpath⟩ := h
  exact ⟨s, hs, hdomain, hpath.trans hxy⟩

/-- What is near a seed and has an entry stands above a seed that has one: a step gives both of its
ends an entry. -/
theorem NearSeed.above (h : NearSeed axioms x) (hx : x ∈ domain axioms (direct axioms)) :
    AboveSeed axioms x := by
  obtain ⟨s, hs, rfl | hstep⟩ := h
  · exact ⟨s, hs, hx, .refl⟩
  · exact ⟨s, hs, mem_domain_direct.2 (.inr ⟨x, .inl hstep⟩), .single hstep⟩

theorem mem_aboveComposite :
    x ∈ aboveComposite composite (closure axioms (direct axioms)) ↔
      ∃ c ∈ composite, c ∈ domain axioms (direct axioms) ∧ ReflTransGen (Step axioms) c x := by
  have hentry (c above) : (c, above) ∈ (closure axioms (direct axioms)).entries ↔
      c ∈ domain axioms (direct axioms) ∧ (direct axioms).reachable c = above := by
    rw [SortedMap.mem_entries_iff, find?_closure]
    by_cases hc : c ∈ domain axioms (direct axioms) <;> simp [hc]
  unfold aboveComposite
  rw [List.mem_flatMap]
  constructor
  · rintro ⟨⟨c, above⟩, he, hx⟩
    obtain ⟨hdomain, rfl⟩ := (hentry c above).1 he
    by_cases hc : c ∈ composite
    · rw [if_pos hc] at hx
      refine ⟨c, hc, hdomain, ?_⟩
      rcases List.mem_cons.1 hx with rfl | hx
      · exact .refl
      · rw [← leads_direct_eq]
        exact SortedMap.mem_reachable_iff.1 hx
    · rw [if_neg hc] at hx
      cases hx
  · rintro ⟨c, hc, hdomain, hpath⟩
    refine ⟨(c, _), (hentry c _).2 ⟨hdomain, rfl⟩, ?_⟩
    rw [if_pos hc]
    rw [← leads_direct_eq] at hpath
    exact List.mem_cons_of_mem _ (SortedMap.mem_reachable_iff.2 hpath)

/-- Any set that holds the seeds, and nothing that is not near one, has the same above it. -/
theorem mem_aboveComposite_iff (hseeds : ∀ s, IsSeed axioms s → s.simplified ∈ composite)
    (hnear : ∀ c ∈ composite, NearSeed axioms c) :
    x ∈ aboveComposite composite (closure axioms (direct axioms)) ↔ AboveSeed axioms x := by
  rw [mem_aboveComposite]
  constructor
  · rintro ⟨c, hc, hdomain, hpath⟩
    exact ((hnear c hc).above hdomain).trans hpath
  · rintro ⟨s, hs, hdomain, hpath⟩
    exact ⟨_, hseeds s hs, hdomain, hpath⟩

theorem mem_nonSimple_iff (hseeds : ∀ s, IsSeed axioms s → s.simplified ∈ composite)
    (hnear : ∀ c ∈ composite, NearSeed axioms c) :
    x ∈ nonSimple composite (closure axioms (direct axioms)) ↔ AboveSeed axioms x := by
  unfold nonSimple
  rw [SortedSet.mem_ofList, List.mem_append, List.mem_map]
  simp only [mem_aboveComposite_iff hseeds hnear]
  constructor
  · rintro (h | ⟨y, hy, rfl⟩)
    · exact h
    · exact hy.inverse
  · exact .inl

/-- The seeds alone, without what is declared equivalent or inverse to them. -/
def seedSet (axioms : List Axiom) : SortedSet ObjectPropertyExpression :=
  .ofList ((seeds axioms).flatMap bothWays)

theorem mem_seedSet : x ∈ seedSet axioms ↔ ∃ s, IsSeed axioms s ∧ s.simplified = x := by
  unfold seedSet
  rw [SortedSet.mem_ofList, List.mem_flatMap]
  exact exists_mem_seeds_iff

theorem nearSeed_of_mem_seedSet (h : x ∈ seedSet axioms) : NearSeed axioms x := by
  obtain ⟨s, hs, hx⟩ := mem_seedSet.1 h
  exact ⟨s, hs, .inl hx⟩

end PropertyHierarchy

/-! ### Analyzers -/

open PropertyHierarchy ObjectPropertyExpression

namespace Analyzer

theorem nonSimpleProperties_new (l : Library) (r : OntologyRef) (config : AnalyzerConfig) :
    ((new r config).nonSimpleProperties l).1 =
      PropertyHierarchy.nonSimple (PropertyHierarchy.composite ((new r config).axioms l))
        (PropertyHierarchy.closure ((new r config).axioms l)
          (PropertyHierarchy.direct ((new r config).axioms l))) := by
  simp only [nonSimpleProperties, compositeProperties, hierarchyClosure, directHierarchy, new,
    axioms, scope]

theorem isNonSimple_iff (an : Analyzer) (l : Library) (x : ObjectPropertyExpression) :
    (an.isNonSimple l x).1 = true ↔ x.simplified ∈ (an.nonSimpleProperties l).1 := by
  unfold isNonSimple
  exact decide_eq_true_iff

/-- On a new analyzer, the properties that are not simple are those at or above a property with an
entry in the closure that is composite by itself or the inverse of such a one. Neither the declared
equivalents and inverses of composite properties nor the last closing under inverses add any, and
all that stands above one of them is one of them. -/
theorem isNonSimple_iff_above_seed (l : Library) (r : OntologyRef) (config : AnalyzerConfig) :
    let an := new r config
    let axioms := an.axioms l
    let closed := (an.hierarchyClosure l).1
    let nonSimple := (an.nonSimpleProperties l).1
    IsScope l r config.imports axioms ∧
      (∀ x, (an.isNonSimple l x).1 = true ↔
        ∃ s, IsSeed axioms s ∧ s.simplified ∈ closed.keys ∧ (an.isSubPropertyOf l s x).1 = true) ∧
      nonSimple = PropertyHierarchy.nonSimple (seedSet axioms) closed ∧
      nonSimple = .ofList (aboveComposite (an.compositeProperties l).1 closed) ∧
      ∀ x y, (an.isNonSimple l x).1 = true → (an.isSubPropertyOf l x y).1 = true →
        (an.isNonSimple l y).1 = true := by
  intro an axioms closed nonSimple
  have hclosed : closed = PropertyHierarchy.closure axioms (PropertyHierarchy.direct axioms) := rfl
  have hcomposite : (an.compositeProperties l).1 = PropertyHierarchy.composite axioms := rfl
  have hnonSimple : nonSimple =
      PropertyHierarchy.nonSimple (PropertyHierarchy.composite axioms) closed :=
    nonSimpleProperties_new l r config
  have hmem (x : ObjectPropertyExpression) : x ∈ nonSimple ↔ AboveSeed axioms x := by
    rw [hnonSimple, hclosed]
    exact mem_nonSimple_iff (fun _ hs => hs.mem_composite) fun _ => nearSeed_of_mem_composite
  have hone (x : ObjectPropertyExpression) :
      (an.isNonSimple l x).1 = true ↔ AboveSeed axioms x.simplified :=
    (isNonSimple_iff an l x).trans (hmem x.simplified)
  refine ⟨isScope_axioms l r config, ?_, ?_, ?_, ?_⟩
  · intro x
    rw [hone, hclosed, keys_closure]
    simp only [isSubPropertyOf_new_iff, an]
    rfl
  · refine SortedSet.ext fun x => ?_
    rw [hmem, hclosed, mem_nonSimple_iff (fun s hs => mem_seedSet.2 ⟨s, hs, rfl⟩)
      fun _ => nearSeed_of_mem_seedSet]
  · refine SortedSet.ext fun x => ?_
    rw [hmem, SortedSet.mem_ofList, hcomposite, hclosed,
      mem_aboveComposite_iff (fun _ hs => hs.mem_composite) fun _ => nearSeed_of_mem_composite]
  · intro x y hx hxy
    rw [hone] at hx ⊢
    exact hx.trans ((isSubPropertyOf_new_iff l r config x y).1 hxy)

/-- An imported ontology makes the inverse of `p` transitive, and `p` is equivalent to `q`, which
stands below the inverse of another property: neither is that property simple. -/
theorem isNonSimple_iff_above_seed_equivalent :
    let r : OntologyRef := ⟨0, ⟨"o"⟩⟩
    let s : OntologyRef := ⟨1, ⟨"i"⟩⟩
    let p : ObjectPropertyExpression := .named ⟨⟨"p"⟩⟩
    let q : ObjectPropertyExpression := .named ⟨⟨"q"⟩⟩
    let x : ObjectPropertyExpression := .named ⟨⟨"r"⟩⟩
    let made := (((Library.empty 1).standalone r.id).2.standalone s.id).2
    let linked := ((made.addImport r s).2.addImport s r).2
    let l := ((linked.addAll r [⟨.equivalentObjectProperties (.ofList [p, q]), rfl⟩,
      .subObjectPropertyOf q (.inverse x)]).2.add s (.transitiveObjectProperty (.inverse p))).2
    let an := new r ⟨.included⟩
    (an.isNonSimple l p).1 = true ∧ (an.isSubPropertyOf l p (.inverse x)).1 = true ∧
      (an.isNonSimple l (.inverse x)).1 = true := by
  intro r s p q x made linked l an
  obtain ⟨hscope, hiff, -, -, habove⟩ := isNonSimple_iff_above_seed l r ⟨.included⟩
  have hmem := hscope.mem_iff_of_mutual (s := s) rfl rfl (by decide) (by decide)
  have htransitive : .transitiveObjectProperty (.inverse p) ∈ an.axioms l :=
    (hmem _).2 (.inr List.mem_cons_self)
  have hequivalent : (⟨.equivalentObjectProperties (.ofList [p, q]), rfl⟩ : Axiom) ∈ an.axioms l :=
    (hmem _).2 (.inl List.mem_cons_self)
  have hbelow : .subObjectPropertyOf q (.inverse x) ∈ an.axioms l :=
    (hmem _).2 (.inl (List.mem_cons_of_mem _ List.mem_cons_self))
  have hpq : Step (an.axioms l) p.simplified q.simplified :=
    ⟨_, hequivalent, p, q, .equivalent (by decide) (by decide) (by decide), rfl, rfl⟩
  have hqx : Step (an.axioms l) q.simplified (ObjectPropertyExpression.inverse x).simplified :=
    ⟨_, hbelow, _, _, .sub _ _, rfl, rfl⟩
  have hpx : (an.isSubPropertyOf l p (.inverse x)).1 = true :=
    (isSubPropertyOf_new_iff l r ⟨.included⟩ p (.inverse x)).2 (.head hpq (.single hqx))
  have hseed : IsSeed (an.axioms l) (.inverse (.inverse p)) :=
    .inverse (.transitive htransitive rfl)
  have hinv : (ObjectPropertyExpression.inverse (.inverse p)).simplified = p.simplified :=
    simplified_inverse_inverse p
  have hkey : (ObjectPropertyExpression.inverse (.inverse p)).simplified ∈
      (an.hierarchyClosure l).1.keys := by
    rw [hinv, show (an.hierarchyClosure l).1.keys = _ from keys_closure _ _]
    exact mem_domain_direct.2 (.inr ⟨_, .inl hpq⟩)
  have hsub : (an.isSubPropertyOf l (.inverse (.inverse p)) p).1 = true := by
    rw [isSubPropertyOf_new_iff l r ⟨.included⟩, hinv]
  have hp : (an.isNonSimple l p).1 = true := (hiff p).2 ⟨_, hseed, hkey, hsub⟩
  exact ⟨hp, hpx, habove p (.inverse x) hp hpx⟩

end Analyzer

end OwlStructure
