import OwlStructure.Proofs.PropertyHierarchy.Composite

/-!
Composite properties by their names. With a property its inverse is composite, and a declaration is
followed from both, so inverses can be left out of account: a name is composite if it is the name of
a seed, or if a declaration brings it together with one.
-/
namespace OwlStructure

open ObjectPropertyExpression

namespace PropertyHierarchy

variable {axioms : List Axiom} {k : AxiomKind} {p q s x : ObjectPropertyExpression}
  {n : ObjectProperty}

/-- The names of the properties that are composite by themselves. -/
inductive IsSeedName (axioms : List Axiom) : ObjectProperty → Prop where
  | top : IsSeedName axioms .top
  | bottom : IsSeedName axioms .bottom
  | transitive {a p} (ha : a ∈ axioms) (hk : a.kind = .transitiveObjectProperty p) :
    IsSeedName axioms p.namedProperty
  | chain {a members p} (ha : a ∈ axioms) (hk : a.kind = .subPropertyChainOf members p)
    (hlong : 1 < members.length) : IsSeedName axioms p.namedProperty

/-- The names at the sides of an inverse axiom, or among the operands of an equivalence. -/
def linkedNames : AxiomKind → List ObjectProperty
  | .inverseObjectProperties first second => [first.namedProperty, second.namedProperty]
  | .equivalentObjectProperties ops => ops.toList.map namedProperty
  | _ => []

theorem IsSeed.name (h : IsSeed axioms s) : IsSeedName axioms s.namedProperty := by
  induction h with
  | top => exact .top
  | bottom => exact .bottom
  | transitive ha hk => exact .transitive ha hk
  | chain ha hk hlong => exact .chain ha hk hlong
  | inverse _ ih => exact ih

theorem IsSeedName.exists_seed (h : IsSeedName axioms n) :
    ∃ s, IsSeed axioms s ∧ s.namedProperty = n := by
  cases h with
  | top => exact ⟨_, .top, rfl⟩
  | bottom => exact ⟨_, .bottom, rfl⟩
  | transitive ha hk => exact ⟨_, .transitive ha hk, rfl⟩
  | chain ha hk hlong => exact ⟨_, .chain ha hk hlong, rfl⟩

/-- Every expression over the name of a seed has the simplified form of a seed. -/
theorem IsSeedName.exists_simplified (h : IsSeedName axioms x.namedProperty) :
    ∃ s, IsSeed axioms s ∧ s.simplified = x.simplified := by
  obtain ⟨s, hs, hname⟩ := h.exists_seed
  rcases simplified_eq_or_inverse hname with hx | hx
  · exact ⟨s, hs, hx⟩
  · have hi := congrArg inverseSimplified hx
    rw [inverseSimplified_simplified, inverseSimplified_inverseSimplified] at hi
    exact ⟨.inverse s, hs.inverse, hi⟩

theorem Pairs.names (h : Pairs k p q) :
    p.namedProperty ∈ linkedNames k ∧ q.namedProperty ∈ linkedNames k := by
  cases h with
  | equivalent hp hq => exact ⟨List.mem_map_of_mem hp, List.mem_map_of_mem hq⟩
  | first | second => simp [linkedNames]

/-- Two names that an axiom brings together are one name, or those of a declared pair. -/
theorem exists_pairs_of_linkedNames {m : ObjectProperty} (hm : m ∈ linkedNames k)
    (hn : n ∈ linkedNames k) :
    m = n ∨ ∃ p q, Pairs k p q ∧ p.namedProperty = m ∧ q.namedProperty = n := by
  cases k <;> simp only [linkedNames, List.not_mem_nil] at hm hn
  case equivalentObjectProperties ops =>
    obtain ⟨p, hp, rfl⟩ := List.mem_map.1 hm
    obtain ⟨q, hq, rfl⟩ := List.mem_map.1 hn
    exact .inr ⟨p, q, .equivalent hp hq, rfl, rfl⟩
  case inverseObjectProperties first second =>
    simp only [List.mem_cons, List.not_mem_nil, or_false] at hm hn
    rcases hm with rfl | rfl <;> rcases hn with rfl | rfl
    · exact .inl rfl
    · exact .inr ⟨_, _, .first _ _, rfl, rfl⟩
    · exact .inr ⟨_, _, .second _ _, rfl, rfl⟩
    · exact .inl rfl

theorem mem_composite_iff_name :
    x.simplified ∈ composite axioms ↔
      IsSeedName axioms x.namedProperty ∨
        ∃ a ∈ axioms, x.namedProperty ∈ linkedNames a.kind ∧
          ∃ n ∈ linkedNames a.kind, IsSeedName axioms n := by
  constructor
  · intro h
    obtain ⟨s, hs, hx | ⟨a, ha, p, q, hpairs, hp, hx⟩⟩ := mem_composite.1 h
    · exact .inl (namedProperty_eq_of_simplified_eq hx ▸ hs.name)
    · have hq : x.namedProperty = q.namedProperty := by
        rcases hx with hx | hx
        · exact namedProperty_eq_of_simplified_eq hx
        · exact namedProperty_eq_of_simplified_eq (q := .inverse q) hx
      refine .inr ⟨a, ha, hq ▸ hpairs.names.2, _, hpairs.names.1, ?_⟩
      exact namedProperty_eq_of_simplified_eq hp ▸ hs.name
  · have hseed (hx : IsSeedName axioms x.namedProperty) : x.simplified ∈ composite axioms := by
      obtain ⟨s, hs, hsx⟩ := hx.exists_simplified
      exact hsx ▸ hs.mem_composite
    rintro (hx | ⟨a, ha, hx, n, hn, hseedName⟩)
    · exact hseed hx
    · rcases exists_pairs_of_linkedNames hn hx with rfl | ⟨p, q, hpairs, rfl, hq⟩
      · exact hseed hseedName
      · obtain ⟨s, hs, hsp⟩ := hseedName.exists_simplified
        exact mem_composite.2
          ⟨s, hs, .inr ⟨a, ha, p, q, hpairs, hsp.symm, simplified_eq_or_inverse hq.symm⟩⟩

end PropertyHierarchy

open PropertyHierarchy

namespace Analyzer

/-- On a new analyzer, an expression is composite exactly when its name is that of the top or bottom
property, of a transitive property or of the property above a chain of more than one member, or when
an inverse or equivalence axiom in scope brings its name together with such a name. An expression is
composite as its bare name is, with any number of inverses around it. -/
theorem isComposite_iff_name (l : Library) (r : OntologyRef) (config : AnalyzerConfig) :
    let an := new r config
    let axioms := an.axioms l
    IsScope l r config.imports axioms ∧
      (∀ x, (an.isComposite l x).1 = true ↔
        IsSeedName axioms x.namedProperty ∨
          ∃ a ∈ axioms, x.namedProperty ∈ linkedNames a.kind ∧
            ∃ n ∈ linkedNames a.kind, IsSeedName axioms n) ∧
      ∀ x, (an.isComposite l x).1 = (an.isComposite l (.named x.namedProperty)).1 := by
  intro an axioms
  have hiff (x : ObjectPropertyExpression) := (isComposite_new_iff l r config x).trans
    mem_composite_iff_name
  refine ⟨isScope_axioms l r config, hiff, fun x => Bool.eq_iff_iff.2 ?_⟩
  exact (hiff x).trans (hiff (.named x.namedProperty)).symm

/-- An imported ontology has a chain of two members below `p`, whose inverse is declared equivalent
to `q`: with `p`, the inverse of `q` is composite; `x`, which is only inverse to `q`, is not. -/
theorem isComposite_iff_name_chain :
    let r : OntologyRef := ⟨0, ⟨"o"⟩⟩
    let s : OntologyRef := ⟨1, ⟨"i"⟩⟩
    let p : ObjectPropertyExpression := .named ⟨⟨"p"⟩⟩
    let q : ObjectPropertyExpression := .named ⟨⟨"q"⟩⟩
    let x : ObjectPropertyExpression := .named ⟨⟨"r"⟩⟩
    let made := (((Library.empty 1).standalone r.id).2.standalone s.id).2
    let linked := ((made.addImport r s).2.addImport s r).2
    let l := ((linked.addAll r [⟨.equivalentObjectProperties (.ofList [.inverse p, q]), rfl⟩,
      .inverseObjectProperties q x]).2.add s ⟨.subPropertyChainOf [x, x] p, rfl⟩).2
    let an := new r ⟨.included⟩
    (an.isComposite l (.inverse (.inverse p))).1 = true ∧ (an.isComposite l (.inverse q)).1 = true ∧
      (an.isComposite l x).1 = false := by
  intro r s p q x made linked l an
  obtain ⟨hscope, hiff, -⟩ := isComposite_iff_name l r ⟨.included⟩
  have hmem := hscope.mem_iff_of_mutual (s := s) rfl rfl (by decide) (by decide)
  have hchain : (⟨.subPropertyChainOf [x, x] p, rfl⟩ : Axiom) ∈ an.axioms l :=
    (hmem _).2 (.inr List.mem_cons_self)
  have hequivalent : (⟨.equivalentObjectProperties (.ofList [.inverse p, q]), rfl⟩ : Axiom) ∈
      an.axioms l := (hmem _).2 (.inl List.mem_cons_self)
  have hall (a : Axiom) (ha : a ∈ an.axioms l) :
      a = ⟨.equivalentObjectProperties (.ofList [.inverse p, q]), rfl⟩ ∨
        a = .inverseObjectProperties q x ∨ a = ⟨.subPropertyChainOf [x, x] p, rfl⟩ := by
    rcases (hmem a).1 ha with ha | ha
    · rcases List.mem_cons.1 ha with rfl | ha
      · exact .inl rfl
      · exact .inr (.inl (List.mem_singleton.1 ha))
    · exact .inr (.inr (List.mem_singleton.1 ha))
  have hseed : IsSeedName (an.axioms l) p.namedProperty := .chain hchain rfl (by decide)
  have hseeds (n : ObjectProperty) (h : IsSeedName (an.axioms l) n) :
      n ∈ [.top, .bottom, p.namedProperty] := by
    cases h with
    | top | bottom => decide
    | transitive ha hk => rcases hall _ ha with rfl | rfl | rfl <;> cases hk
    | chain ha hk _ => rcases hall _ ha with rfl | rfl | rfl <;> cases hk; decide
  refine ⟨(hiff _).2 (.inl hseed), (hiff _).2 (.inr ⟨_, hequivalent, ?_, _, ?_, hseed⟩), ?_⟩
  · decide
  · decide
  · refine Bool.eq_false_iff.2 fun h => ?_
    rcases (hiff x).1 h with hx | ⟨a, ha, hx, n, hn, hname⟩
    · exact absurd (hseeds _ hx) (by decide)
    · have hother : ∀ m ∈ linkedNames (.inverseObjectProperties q x),
          m ∉ [.top, .bottom, p.namedProperty] := by decide
      rcases hall a ha with rfl | rfl | rfl
      · exact absurd hx (by decide)
      · exact hother n hn (hseeds n hname)
      · cases hx

end Analyzer

end OwlStructure
