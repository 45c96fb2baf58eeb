import OwlStructure.Proofs.Expression.Property
import OwlStructure.Proofs.PropertyHierarchy.Scope

/-!
Composite properties. A property is composite by itself, or an axiom declares it equivalent or
inverse to one that is; a declaration is followed once, so what is only equivalent to an equivalent
of a composite property stays out.
-/
namespace OwlStructure

namespace PropertyHierarchy

/-- The properties that are composite by themselves, and their inverses. -/
inductive IsSeed (axioms : List Axiom) : ObjectPropertyExpression → Prop where
  | top : IsSeed axioms (.named .top)
  | bottom : IsSeed axioms (.named .bottom)
  | transitive {a p} (ha : a ∈ axioms) (hk : a.kind = .transitiveObjectProperty p) :
    IsSeed axioms p
  | chain {a members p} (ha : a ∈ axioms) (hk : a.kind = .subPropertyChainOf members p)
    (hlong : 1 < members.length) : IsSeed axioms p
  | inverse {p} (h : IsSeed axioms p) : IsSeed axioms (.inverse p)

/-- An axiom declares two properties equivalent, or each the inverse of the other. -/
inductive Pairs : AxiomKind → ObjectPropertyExpression → ObjectPropertyExpression → Prop where
  | equivalent {ops p q} (hp : p ∈ ops) (hq : q ∈ ops) :
    Pairs (.equivalentObjectProperties ops) p q
  | first (p q) : Pairs (.inverseObjectProperties p q) p q
  | second (p q) : Pairs (.inverseObjectProperties p q) q p

variable {axioms : List Axiom} {p q s x : ObjectPropertyExpression}

theorem mem_bothWays : x ∈ bothWays p ↔ x = p.simplified ∨ x = p.inverseSimplified := by
  simp [bothWays]

/-! ### Seeds -/

theorem mem_compositeSeeds {k : AxiomKind} :
    p ∈ compositeSeeds k ↔
      k = .transitiveObjectProperty p ∨
        ∃ members, k = .subPropertyChainOf members p ∧ 1 < members.length := by
  constructor
  · intro h
    cases k <;> simp only [compositeSeeds, List.not_mem_nil] at h
    case transitiveObjectProperty => exact .inl (by rw [List.mem_singleton.1 h])
    case subPropertyChainOf members sup =>
      split at h
      · next hlong => exact .inr ⟨members, by rw [List.mem_singleton.1 h], hlong⟩
      · cases h
  · rintro (rfl | ⟨members, rfl, hlong⟩)
    · exact List.mem_singleton.2 rfl
    · simp only [compositeSeeds, if_pos hlong]
      exact List.mem_singleton.2 rfl

theorem mem_seeds :
    p ∈ seeds axioms ↔
      p = .named .top ∨ p = .named .bottom ∨ ∃ a ∈ axioms, p ∈ compositeSeeds a.kind := by
  simp [seeds, List.mem_flatMap]

theorem IsSeed.of_mem (h : p ∈ seeds axioms) : IsSeed axioms p := by
  rcases mem_seeds.1 h with rfl | rfl | ⟨a, ha, hp⟩
  · exact .top
  · exact .bottom
  · rcases mem_compositeSeeds.1 hp with hk | ⟨members, hk, hlong⟩
    · exact .transitive ha hk
    · exact .chain ha hk hlong

/-- Up to simplification every seed is one that is listed, or the inverse of one. -/
theorem IsSeed.exists_mem (h : IsSeed axioms p) :
    ∃ s ∈ seeds axioms, p.simplified ∈ bothWays s := by
  induction h with
  | top => exact ⟨_, mem_seeds.2 (.inl rfl), mem_bothWays.2 (.inl rfl)⟩
  | bottom => exact ⟨_, mem_seeds.2 (.inr (.inl rfl)), mem_bothWays.2 (.inl rfl)⟩
  | transitive ha hk =>
    have hp := mem_compositeSeeds.2 (.inl hk)
    exact ⟨_, mem_seeds.2 (.inr (.inr ⟨_, ha, hp⟩)), mem_bothWays.2 (.inl rfl)⟩
  | chain ha hk hlong =>
    have hp := mem_compositeSeeds.2 (.inr ⟨_, hk, hlong⟩)
    exact ⟨_, mem_seeds.2 (.inr (.inr ⟨_, ha, hp⟩)), mem_bothWays.2 (.inl rfl)⟩
  | @inverse p _ ih =>
    obtain ⟨s, hs, hp⟩ := ih
    refine ⟨s, hs, mem_bothWays.2 ?_⟩
    rcases mem_bothWays.1 hp with hp | hp
    · exact .inr (ObjectPropertyExpression.inverseSimplified_congr hp)
    · left
      have hi := congrArg ObjectPropertyExpression.inverseSimplified hp
      rwa [ObjectPropertyExpression.inverseSimplified_simplified,
        ObjectPropertyExpression.inverseSimplified_inverseSimplified] at hi

theorem exists_mem_seeds_iff :
    (∃ s ∈ seeds axioms, x ∈ bothWays s) ↔ ∃ s, IsSeed axioms s ∧ s.simplified = x := by
  constructor
  · rintro ⟨s, hs, hx⟩
    rcases mem_bothWays.1 hx with rfl | rfl
    · exact ⟨s, .of_mem hs, rfl⟩
    · exact ⟨_, (IsSeed.of_mem hs).inverse, rfl⟩
  · rintro ⟨s, hs, rfl⟩
    exact hs.exists_mem

/-! ### Partners -/

theorem pairs_of_mem_partners {k : AxiomKind} (h : q ∈ partners x k) :
    ∃ p, Pairs k p q ∧ p.simplified = x := by
  cases k <;> simp only [partners, List.not_mem_nil] at h
  case equivalentObjectProperties ops =>
    split at h
    · next hany =>
      obtain ⟨p, hp, hx⟩ := List.any_eq_true.1 hany
      exact ⟨p, .equivalent hp h, of_decide_eq_true hx⟩
    · cases h
  case inverseObjectProperties first second =>
    split at h
    · next hx =>
      obtain rfl := List.mem_singleton.1 h
      exact ⟨first, .first _ _, hx⟩
    · split at h
      · next hx =>
        obtain rfl := List.mem_singleton.1 h
        exact ⟨second, .second _ _, hx⟩
      · cases h

/-- Both sides of an inverse axiom may have the sought form; then either stands for the other. -/
theorem Pairs.exists_mem_partners {k : AxiomKind} (h : Pairs k p q) (hx : p.simplified = x) :
    ∃ q' ∈ partners x k, q'.simplified = q.simplified := by
  cases h with
  | equivalent hp hq =>
    simp only [partners]
    rw [if_pos (List.any_eq_true.2 ⟨p, hp, decide_eq_true hx⟩)]
    exact ⟨q, hq, rfl⟩
  | first =>
    simp only [partners, if_pos hx]
    exact ⟨q, List.mem_singleton.2 rfl, rfl⟩
  | second =>
    simp only [partners]
    by_cases hq : q.simplified = x
    · rw [if_pos hq]
      exact ⟨p, List.mem_singleton.2 rfl, hx.trans hq.symm⟩
    · rw [if_neg hq, if_pos hx]
      exact ⟨q, List.mem_singleton.2 rfl, rfl⟩

/-! ### The composite properties -/

theorem mem_marked :
    x ∈ marked axioms p ↔
      ∃ t ∈ bothWays p, x = t ∨ ∃ a ∈ axioms, ∃ q ∈ partners t a.kind, x ∈ bothWays q := by
  unfold marked
  simp only [List.mem_flatMap, List.mem_append, List.mem_singleton, or_comm]

theorem mem_composite :
    x ∈ composite axioms ↔
      ∃ s, IsSeed axioms s ∧
        (x = s.simplified ∨
          ∃ a ∈ axioms, ∃ p q, Pairs a.kind p q ∧ p.simplified = s.simplified ∧
            (x = q.simplified ∨ x = q.inverseSimplified)) := by
  unfold composite
  simp only [SortedSet.mem_ofList, List.mem_flatMap, mem_marked]
  constructor
  · rintro ⟨s, hs, t, ht, hx⟩
    obtain ⟨s, hs, rfl⟩ := exists_mem_seeds_iff.1 ⟨s, hs, ht⟩
    refine ⟨s, hs, hx.imp_right ?_⟩
    rintro ⟨a, ha, q, hq, hx⟩
    obtain ⟨p, hp, hps⟩ := pairs_of_mem_partners hq
    exact ⟨a, ha, p, q, hp, hps, mem_bothWays.1 hx⟩
  · rintro ⟨s, hs, hx⟩
    obtain ⟨t, ht, hst⟩ := exists_mem_seeds_iff.2 ⟨s, hs, rfl⟩
    refine ⟨t, ht, _, hst, hx.imp_right ?_⟩
    rintro ⟨a, ha, p, q, hp, hps, hx⟩
    obtain ⟨q', hq', heq⟩ := hp.exists_mem_partners hps
    refine ⟨a, ha, q', hq', mem_bothWays.2 ?_⟩
    rwa [heq, ObjectPropertyExpression.inverseSimplified_congr heq]

theorem IsSeed.mem_composite (h : IsSeed axioms s) : s.simplified ∈ composite axioms :=
  PropertyHierarchy.mem_composite.2 ⟨s, h, .inl rfl⟩

theorem inverseSimplified_mem_composite (h : x ∈ composite axioms) :
    x.inverseSimplified ∈ composite axioms := by
  obtain ⟨s, hs, rfl | ⟨a, ha, p, q, hp, hps, hx⟩⟩ := mem_composite.1 h
  · rw [ObjectPropertyExpression.inverseSimplified_simplified]
    exact hs.inverse.mem_composite
  · refine mem_composite.2 ⟨s, hs, .inr ⟨a, ha, p, q, hp, hps, ?_⟩⟩
    rcases hx with rfl | rfl
    · exact .inr (ObjectPropertyExpression.inverseSimplified_simplified q)
    · exact .inl (ObjectPropertyExpression.inverseSimplified_inverseSimplified q)

end PropertyHierarchy

/-! ### Analyzers -/

open PropertyHierarchy

namespace Analyzer

theorem isComposite_new_iff (l : Library) (r : OntologyRef) (config : AnalyzerConfig)
    (p : ObjectPropertyExpression) :
    ((new r config).isComposite l p).1 = true ↔
      p.simplified ∈ PropertyHierarchy.composite ((new r config).axioms l) := decide_eq_true_iff

/-- On a new analyzer, what is composite is composite by itself or declared equivalent or inverse to
what is. With a property its inverse is composite; and with one that is composite by itself,
whatever an axiom declares equivalent or inverse to it or to its inverse, together with the inverse
of that. -/
theorem isComposite_closed_around_seeds (l : Library) (r : OntologyRef) (config : AnalyzerConfig) :
    let an := new r config
    let axioms := an.axioms l
    let composite (p : ObjectPropertyExpression) : Prop := (an.isComposite l p).1 = true
    IsScope l r config.imports axioms ∧
      (∀ p, composite p → composite (.inverse p)) ∧
      (∀ s, IsSeed axioms s → ∀ a ∈ axioms, ∀ p q, Pairs a.kind p q →
        p.simplified = s.simplified ∨ p.simplified = s.inverseSimplified →
          composite q ∧ composite (.inverse q)) ∧
      ∀ x, composite x ↔ ∃ s, IsSeed axioms s ∧
        (x.simplified = s.simplified ∨
          ∃ a ∈ axioms, ∃ p q, Pairs a.kind p q ∧ p.simplified = s.simplified ∧
            (x.simplified = q.simplified ∨ x.simplified = q.inverseSimplified)) := by
  intro an axioms composite
  have hiff (x : ObjectPropertyExpression) : composite x ↔ ∃ s, IsSeed axioms s ∧
      (x.simplified = s.simplified ∨
        ∃ a ∈ axioms, ∃ p q, Pairs a.kind p q ∧ p.simplified = s.simplified ∧
          (x.simplified = q.simplified ∨ x.simplified = q.inverseSimplified)) :=
    (isComposite_new_iff l r config x).trans mem_composite
  have hinverse (p : ObjectPropertyExpression) (hp : composite p) : composite (.inverse p) := by
    have hi := inverseSimplified_mem_composite ((isComposite_new_iff l r config p).1 hp)
    rw [ObjectPropertyExpression.inverseSimplified_simplified] at hi
    exact (isComposite_new_iff l r config (.inverse p)).2 hi
  refine ⟨isScope_axioms l r config, hinverse, ?_, hiff⟩
  intro s hs a ha p q hpairs hp
  have hq : composite q := by
    rcases hp with hp | hp
    · exact (hiff q).2 ⟨s, hs, .inr ⟨a, ha, p, q, hpairs, hp, .inl rfl⟩⟩
    · exact (hiff q).2 ⟨_, hs.inverse, .inr ⟨a, ha, p, q, hpairs, hp, .inl rfl⟩⟩
  exact ⟨hq, hinverse q hq⟩

/-- An imported ontology makes the inverse of a property transitive, so what is declared inverse to
the property is composite. -/
theorem isComposite_closed_around_seeds_inverse :
    let r : OntologyRef := ⟨0, ⟨"o"⟩⟩
    let s : OntologyRef := ⟨1, ⟨"i"⟩⟩
    let p : ObjectPropertyExpression := .named ⟨⟨"p"⟩⟩
    let q : ObjectPropertyExpression := .named ⟨⟨"q"⟩⟩
    let made := (((Library.empty 1).standalone r.id).2.standalone s.id).2
    let linked := ((made.addImport r s).2.addImport s r).2
    let l := ((linked.add r (.inverseObjectProperties q p)).2.add s
      (.transitiveObjectProperty (.inverse p))).2
    let an := new r ⟨.included⟩
    IsSeed (an.axioms l) (.inverse p) ∧
      p.simplified = (ObjectPropertyExpression.inverse p).inverseSimplified ∧
      (an.isComposite l q).1 = true ∧ (an.isComposite l (.inverse q)).1 = true := by
  intro r s p q made linked l an
  obtain ⟨hscope, -, hpartner, -⟩ := isComposite_closed_around_seeds l r ⟨.included⟩
  have hmem := hscope.mem_iff_of_mutual (s := s) rfl rfl (by decide) (by decide)
  have htransitive : .transitiveObjectProperty (.inverse p) ∈ an.axioms l :=
    (hmem _).2 (.inr List.mem_cons_self)
  have hinverse : .inverseObjectProperties q p ∈ an.axioms l :=
    (hmem _).2 (.inl List.mem_cons_self)
  have hseed : IsSeed (an.axioms l) (.inverse p) := .transitive htransitive rfl
  have hp : p.simplified = (ObjectPropertyExpression.inverse p).inverseSimplified := by decide
  exact ⟨hseed, hp, hpartner _ hseed _ hinverse p q (.second q p) (.inr hp)⟩

/-- A declaration is followed once: of two equivalences in a row the second makes nothing
composite. -/
theorem isComposite_not_closed_under_equivalence :
    let r : OntologyRef := ⟨0, ⟨"o"⟩⟩
    let p : ObjectPropertyExpression := .named ⟨⟨"p"⟩⟩
    let q : ObjectPropertyExpression := .named ⟨⟨"q"⟩⟩
    let x : ObjectPropertyExpression := .named ⟨⟨"r"⟩⟩
    let l := (((Library.empty 1).standalone r.id).2.addAll r
      [.transitiveObjectProperty p, ⟨.equivalentObjectProperties (.ofList [p, q]), rfl⟩,
        ⟨.equivalentObjectProperties (.ofList [q, x]), rfl⟩]).2
    let an := new r ⟨.excluded⟩
    (an.isComposite l q).1 = true ∧ (∃ a ∈ an.axioms l, Pairs a.kind q x) ∧
      (an.isComposite l x).1 = false := by
  intro r p q x l an
  refine ⟨by decide, ⟨⟨.equivalentObjectProperties (.ofList [q, x]), rfl⟩, ?_, ?_⟩, by decide⟩
  · decide
  · exact .equivalent (by decide) (by decide)

end Analyzer

end OwlStructure
