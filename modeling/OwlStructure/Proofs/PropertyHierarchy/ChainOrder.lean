import OwlStructure.Proofs.Expression.Property
import OwlStructure.Proofs.PropertyHierarchy.Closure

/-!
The ordering of properties that takes chains into account: every member of a property chain counts
as below the property above the chain. The ordering is the least preorder that extends the declared
hierarchy in this way.
-/
namespace OwlStructure

open Relation ObjectPropertyExpression

namespace PropertyHierarchy

variable {axioms : List Axiom} {k : AxiomKind} {m : PropertyMap}
  {p q : ObjectPropertyExpression}

/-- A member of a property chain stands below the property above the chain, and the inverse of the
member below the inverse of that property. The length of the chain does not matter. -/
inductive ChainStep (axioms : List Axiom) :
    ObjectPropertyExpression → ObjectPropertyExpression → Prop where
  | member {a chain sup p} (ha : a ∈ axioms) (hk : a.kind = .subPropertyChainOf chain sup)
    (hp : p ∈ chain) : ChainStep axioms p.simplified sup.simplified
  | inverse {a chain sup p} (ha : a ∈ axioms) (hk : a.kind = .subPropertyChainOf chain sup)
    (hp : p ∈ chain) : ChainStep axioms p.inverseSimplified sup.inverseSimplified

/-- A step of the declared hierarchy, or one from a chain member up. -/
def OrderStep (axioms : List Axiom) (p q : ObjectPropertyExpression) : Prop :=
  Step axioms p q ∨ ChainStep axioms p q

theorem mem_chainArrows :
    (p, q) ∈ chainArrows k ↔
      ∃ chain sup, k = .subPropertyChainOf chain sup ∧ ∃ x ∈ chain,
        (p = x.simplified ∧ q = sup.simplified) ∨
          (p = x.inverseSimplified ∧ q = sup.inverseSimplified) := by
  constructor
  · intro h
    cases k <;> simp only [chainArrows, List.not_mem_nil] at h
    case subPropertyChainOf chain sup =>
      obtain ⟨x, hx, h⟩ := List.mem_flatMap.1 h
      exact ⟨chain, sup, rfl, x, hx, mem_arrowsBelow.1 h⟩
  · rintro ⟨chain, sup, rfl, x, hx, h⟩
    exact List.mem_flatMap.2 ⟨x, hx, mem_arrowsBelow.2 h⟩

theorem chainStep_iff : ChainStep axioms p q ↔ ∃ a ∈ axioms, (p, q) ∈ chainArrows a.kind := by
  simp only [mem_chainArrows]
  constructor
  · rintro (⟨ha, hk, hp⟩ | ⟨ha, hk, hp⟩)
    · exact ⟨_, ha, _, _, hk, _, hp, .inl ⟨rfl, rfl⟩⟩
    · exact ⟨_, ha, _, _, hk, _, hp, .inr ⟨rfl, rfl⟩⟩
  · rintro ⟨a, ha, chain, sup, hk, x, hx, ⟨rfl, rfl⟩ | ⟨rfl, rfl⟩⟩
    · exact .member ha hk hx
    · exact .inverse ha hk hx

theorem leads_withChains :
    (withChains axioms m).Leads p q ↔ m.Leads p q ∨ ChainStep axioms p q := by
  unfold withChains
  rw [SortedMap.leads_foldl_addArrow, List.mem_flatMap, chainStep_iff, or_comm]

theorem leads_withChains_direct_eq (axioms : List Axiom) :
    (withChains axioms (direct axioms)).Leads = OrderStep axioms := by
  funext p q
  exact propext (leads_withChains.trans (or_congr_left leads_direct))

/-! ### Preorders that respect chains -/

/-- A preorder of property expressions that has all that the hierarchy has, and puts the members of
each chain, and their inverses, below the property above the chain and its inverse. -/
structure OrdersChains (axioms : List Axiom)
    (isSub below : ObjectPropertyExpression → ObjectPropertyExpression → Prop) : Prop where
  refl : ∀ p, below p p
  trans : ∀ p q x, below p q → below q x → below p x
  sub : ∀ p q, isSub p q → below p q
  member : ∀ a ∈ axioms, ∀ chain sup, a.kind = .subPropertyChainOf chain sup →
    ∀ p ∈ chain, below p sup
  memberInverse : ∀ a ∈ axioms, ∀ chain sup, a.kind = .subPropertyChainOf chain sup →
    ∀ p ∈ chain, below (.inverse p) (.inverse sup)

/-- Steps of the hierarchy lead from one expression to the other, up to simplification. -/
def IsSub (axioms : List Axiom) (p q : ObjectPropertyExpression) : Prop :=
  ReflTransGen (Step axioms) p.simplified q.simplified

/-- The same with steps from chain members up. -/
def IsLess (axioms : List Axiom) (p q : ObjectPropertyExpression) : Prop :=
  ReflTransGen (OrderStep axioms) p.simplified q.simplified

theorem ordersChains_isLess (axioms : List Axiom) :
    OrdersChains axioms (IsSub axioms) (IsLess axioms) where
  refl _ := .refl
  trans _ _ _ hpq hqx := hpq.trans hqx
  sub _ _ h := ReflTransGen.mono (fun _ _ => .inl) _ _ h
  member _ ha _ _ hk _ hp := .single (.inr (.member ha hk hp))
  memberInverse _ ha _ _ hk _ hp := .single (.inr (.inverse ha hk hp))

namespace OrdersChains

variable {below : ObjectPropertyExpression → ObjectPropertyExpression → Prop}

theorem of_simplified_eq (h : OrdersChains axioms (IsSub axioms) below)
    (he : p.simplified = q.simplified) : below p q := by
  refine h.sub p q ?_
  unfold IsSub
  rw [he]

theorem of_step (h : OrdersChains axioms (IsSub axioms) below) (hstep : OrderStep axioms p q) :
    below p q := by
  rcases hstep with ⟨a, ha, sub, sup, hd, rfl, rfl⟩ | ⟨ha, hk, hp⟩ | ⟨ha, hk, hp⟩
  · refine h.sub _ _ (.single ?_)
    exact ⟨a, ha, sub, sup, hd, simplified_simplified sub, simplified_simplified sup⟩
  · have hmember := h.member _ ha _ _ hk _ hp
    exact h.trans _ _ _ (h.of_simplified_eq (simplified_simplified _))
      (h.trans _ _ _ hmember (h.of_simplified_eq (simplified_simplified _).symm))
  · have hmember := h.memberInverse _ ha _ _ hk _ hp
    exact h.trans _ _ _ (h.of_simplified_eq (simplified_simplified (.inverse _)))
      (h.trans _ _ _ hmember (h.of_simplified_eq (simplified_simplified (.inverse _)).symm))

/-- No preorder that respects the hierarchy and the chains has less. -/
theorem of_isLess (h : OrdersChains axioms (IsSub axioms) below) (hless : IsLess axioms p q) :
    below p q := by
  have hpath (x : ObjectPropertyExpression)
      (hx : ReflTransGen (OrderStep axioms) p.simplified x) : below p x := by
    induction hx with
    | refl => exact h.of_simplified_eq (simplified_simplified p).symm
    | tail _ hstep ih => exact h.trans _ _ _ ih (h.of_step hstep)
  exact h.trans _ _ _ (hpath _ hless) (h.of_simplified_eq (simplified_simplified q))

end OrdersChains

end PropertyHierarchy

/-! ### Analyzers -/

open PropertyHierarchy

namespace Analyzer

theorem isLessThan_new_iff (l : Library) (r : OntologyRef) (config : AnalyzerConfig)
    (p q : ObjectPropertyExpression) :
    ((new r config).isLessThan l p q).1 = true ↔ IsLess ((new r config).axioms l) p q := by
  unfold IsLess
  rw [← leads_withChains_direct_eq]
  exact isAtOrBelow_closure

/-- On a new analyzer of any ontology, with or without its imports, one property is less than
another exactly when steps of the declared hierarchy and steps from chain members to the properties
above their chains, in any succession, lead up to it. On all expressions, mentioned or not, this is
the least preorder that extends the hierarchy and respects the chains. -/
theorem isLessThan_least_preorder (l : Library) (r : OntologyRef) (config : AnalyzerConfig) :
    let an := new r config
    let axioms := an.axioms l
    let isSub p q : Prop := (an.isSubPropertyOf l p q).1 = true
    let isLess p q : Prop := (an.isLessThan l p q).1 = true
    IsScope l r config.imports axioms ∧
      (∀ p q, isLess p q ↔ ReflTransGen (OrderStep axioms) p.simplified q.simplified) ∧
      OrdersChains axioms isSub isLess ∧
      ∀ below, OrdersChains axioms isSub below → ∀ p q, isLess p q → below p q := by
  intro an axioms isSub isLess
  have hsub : isSub = IsSub axioms := by
    funext p q
    exact propext (isSubPropertyOf_new_iff l r config p q)
  have hless : isLess = IsLess axioms := by
    funext p q
    exact propext (isLessThan_new_iff l r config p q)
  rw [hsub, hless]
  exact ⟨isScope_axioms l r config, fun _ _ => Iff.rfl, ordersChains_isLess axioms,
    fun _ h _ _ => h.of_isLess⟩

/-- In an imported ontology the chain of `p` and the inverse of `q` stands below `x`, which is below
`p`: so `q` is less than the inverse of `p`, around a cycle, but nothing other than `q` is less than
`q`. -/
theorem isLessThan_least_preorder_cycle :
    let r : OntologyRef := ⟨0, ⟨"o"⟩⟩
    let s : OntologyRef := ⟨1, ⟨"i"⟩⟩
    let p : ObjectPropertyExpression := .named ⟨⟨"p"⟩⟩
    let q : ObjectPropertyExpression := .named ⟨⟨"q"⟩⟩
    let x : ObjectPropertyExpression := .named ⟨⟨"x"⟩⟩
    let made := (((Library.empty 1).standalone r.id).2.standalone s.id).2
    let linked := ((made.addImport r s).2.addImport s r).2
    let l := ((linked.add r (.subObjectPropertyOf x p)).2.add s
      ⟨.subPropertyChainOf [p, .inverse q] x, rfl⟩).2
    let an := new r ⟨.included⟩
    let below (a b : ObjectPropertyExpression) : Prop :=
      b.namedProperty = q.namedProperty → a.namedProperty = q.namedProperty
    OrdersChains (an.axioms l) (fun a b => (an.isSubPropertyOf l a b).1 = true) below ∧
      (an.isLessThan l p p).1 = true ∧ (an.isLessThan l q (.inverse p)).1 = true ∧
      (an.isLessThan l p q).1 = false := by
  intro r s p q x made linked l an below
  obtain ⟨hscope, hiff, -, hleast⟩ := isLessThan_least_preorder l r ⟨.included⟩
  have hmem := hscope.mem_iff_of_mutual (s := s) rfl rfl (by decide) (by decide)
  have hchain : (⟨.subPropertyChainOf [p, .inverse q] x, rfl⟩ : Axiom) ∈ an.axioms l :=
    (hmem _).2 (.inr List.mem_cons_self)
  have hdeclared : .subObjectPropertyOf x p ∈ an.axioms l := (hmem _).2 (.inl List.mem_cons_self)
  have hkind (a : Axiom) (ha : a ∈ an.axioms l) :
      a.kind = .subObjectPropertyOf x p ∨ a.kind = .subPropertyChainOf [p, .inverse q] x :=
    ((hmem a).1 ha).imp (fun ha => congrArg Axiom.kind (List.mem_singleton.1 ha))
      fun ha => congrArg Axiom.kind (List.mem_singleton.1 ha)
  -- nothing that is declared, and no chain, ends in `q`
  have hsub (a b : ObjectPropertyExpression) (h : (an.isSubPropertyOf l a b).1 = true) :
      below a b := by
    intro hq
    have hpath := (isSubPropertyOf_new_iff l r ⟨.included⟩ a b).1 h
    rcases hpath.cases_tail with hb | ⟨c, -, ax, hax, sub, sup, hd, -, hb⟩
    · exact (namedProperty_eq_of_simplified_eq hb).symm.trans hq
    · have hsup := (namedProperty_eq_of_simplified_eq hb).symm.trans hq
      rcases hkind ax hax with hk | hk <;> rw [hk] at hd
      · cases hd <;> exact absurd hsup (by decide)
      · cases hd
  have hsup (a : Axiom) (ha : a ∈ an.axioms l) (chain : List ObjectPropertyExpression)
      (sup : ObjectPropertyExpression) (hk : a.kind = .subPropertyChainOf chain sup) :
      sup.namedProperty ≠ q.namedProperty := by
    rcases hkind a ha with hk' | hk' <;> rw [hk'] at hk <;> cases hk
    decide
  have hbelow : OrdersChains (an.axioms l) (fun a b => (an.isSubPropertyOf l a b).1 = true) below :=
    { refl := fun _ => id
      trans := fun _ _ _ h h' hq => h (h' hq)
      sub := hsub
      member := fun a ha chain sup hk _ _ hq => absurd hq (hsup a ha chain sup hk)
      memberInverse := fun a ha chain sup hk _ _ hq => absurd hq (hsup a ha chain sup hk) }
  have hxp : Step (an.axioms l) x.simplified p.simplified :=
    ⟨_, hdeclared, x, p, .sub x p, rfl, rfl⟩
  have hxp' : Step (an.axioms l) x.inverseSimplified p.inverseSimplified :=
    ⟨_, hdeclared, _, _, .subInverse x p, rfl, rfl⟩
  have hpx : ChainStep (an.axioms l) p.simplified x.simplified :=
    .member hchain rfl List.mem_cons_self
  have hqx : ChainStep (an.axioms l) q.simplified x.inverseSimplified := by
    rw [← inverseSimplified_inverse]
    exact .inverse hchain rfl (List.mem_cons_of_mem _ List.mem_cons_self)
  refine ⟨hbelow, ?_, ?_, ?_⟩
  · exact (hiff p p).2 (.head (.inr hpx) (.single (.inl hxp)))
  · exact (hiff q (.inverse p)).2 (.head (.inr hqx) (.single (.inl hxp')))
  · refine Bool.eq_false_iff.2 fun h => ?_
    have hname := hleast below hbelow p q h rfl
    exact absurd hname (by decide)

end Analyzer

end OwlStructure
