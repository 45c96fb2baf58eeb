import OwlStructure.Proofs.Expression.Flattening
import OwlStructure.Proofs.PropertyHierarchy.ChainOrder
import OwlStructure.Proofs.PropertyHierarchy.CompositeNames
import OwlStructure.Proofs.PropertyHierarchy.Equivalence
import OwlStructure.Proofs.PropertyHierarchy.Inversion

/-!
Nested inverses in the property hierarchy. An axiom and its flattened form make the same properties
composite, and declare the same steps between distinct properties; all that an axiom loses when it
is flattened are steps from a property to itself, which no closure shows. So everything that is
worked out from some axioms is the same for all axioms with the same flattened forms.
-/
namespace OwlStructure.PropertyHierarchy

open Relation ObjectPropertyExpression Axiom

variable {axioms axioms' : List Axiom} {k : AxiomKind} {m m' : PropertyMap}
  {p q p' q' x y : ObjectPropertyExpression} {n : ObjectProperty}

/-! ### What one axiom contributes -/

theorem arrowsBelow_congr (hp : p.simplified = p'.simplified) (hq : q.simplified = q'.simplified) :
    arrowsBelow p q = arrowsBelow p' q' := by
  simp only [arrowsBelow, hp, hq, inverseSimplified_congr hp, inverseSimplified_congr hq]

/-- Between distinct properties it makes no difference that operands are compared as they are
written. -/
theorem mem_arrowsBelow_of_ne (hne : p ≠ q) :
    ((p, q) ∈ if x = y then [] else arrowsBelow x y) ↔ (p, q) ∈ arrowsBelow x y := by
  split
  · next he =>
    subst he
    refine iff_of_false List.not_mem_nil fun h => hne ?_
    rcases mem_arrowsBelow.1 h with ⟨hp, hq⟩ | ⟨hp, hq⟩ <;> rw [hp, hq]
  · exact Iff.rfl

theorem mem_declaredArrows_flattened (hne : p ≠ q) :
    (p, q) ∈ declaredArrows k.flattened ↔ (p, q) ∈ declaredArrows k := by
  have hs (x : ObjectPropertyExpression) : x.simplified.simplified = x.simplified :=
    simplified_simplified x
  have hi (x : ObjectPropertyExpression) :
      (ObjectPropertyExpression.inverse x.simplified).simplified = x.inverseSimplified :=
    inverseSimplified_simplified x
  cases k with
  | subObjectPropertyOf sub sup =>
    simp only [AxiomKind.flattened, declaredArrows, arrowsBelow_congr (hs sub) (hs sup)]
  | equivalentObjectProperties ops =>
    simp only [AxiomKind.flattened, declaredArrows, List.mem_flatMap, SortedSet.mem_toList,
      mem_arrowsBelow_of_ne hne, SortedSet.mem_map, exists_exists_and_eq_and,
      arrowsBelow_congr (hs _) (hs _)]
  | inverseObjectProperties first second =>
    simp only [AxiomKind.flattened, declaredArrows, arrowsBelow_congr (hs _) (hi _)]
  | symmetricObjectProperty p =>
    simp only [AxiomKind.flattened, declaredArrows, arrowsBelow_congr (hs _) (hi _)]
  | _ => exact Iff.rfl

theorem chainArrows_flattened (k : AxiomKind) : chainArrows k.flattened = chainArrows k := by
  cases k with
  | subPropertyChainOf chain sup =>
    simp only [AxiomKind.flattened, chainArrows, List.flatMap_map,
      arrowsBelow_congr (simplified_simplified _) (simplified_simplified sup)]
  | _ => rfl

theorem subPropertyArrow?_flattened (k : AxiomKind) :
    subPropertyArrow? k.flattened = subPropertyArrow? k := by
  cases k with
  | subObjectPropertyOf sub sup =>
    simp only [AxiomKind.flattened, subPropertyArrow?, simplified_simplified]
  | _ => rfl

theorem compositeSeeds_flattened (k : AxiomKind) :
    (compositeSeeds k.flattened).map namedProperty = (compositeSeeds k).map namedProperty := by
  cases k with
  | transitiveObjectProperty p => simp [AxiomKind.flattened, compositeSeeds]
  | subPropertyChainOf chain sup =>
    simp only [AxiomKind.flattened, compositeSeeds, List.length_map]
    split <;> simp
  | _ => rfl

theorem mem_linkedNames_flattened : n ∈ linkedNames k.flattened ↔ n ∈ linkedNames k := by
  cases k with
  | inverseObjectProperties first second =>
    simp only [AxiomKind.flattened, linkedNames, namedProperty_simplified]
  | equivalentObjectProperties ops =>
    simp only [AxiomKind.flattened, linkedNames, List.mem_map, SortedSet.mem_toList,
      SortedSet.mem_map, exists_exists_and_eq_and, namedProperty_simplified]
  | _ => exact Iff.rfl

/-! ### Steps and names -/

section Facts

variable (h : SameFlattened axioms axioms')

include h

theorem step_iff (hne : p ≠ q) : Step axioms p q ↔ Step axioms' p q := by
  unfold Step
  simp only [← mem_declaredArrows]
  exact h.exists_iff fun _ => mem_declaredArrows_flattened hne

theorem chainStep_congr : ChainStep axioms p q ↔ ChainStep axioms' p q := by
  simp only [chainStep_iff]
  exact h.exists_iff fun a => by rw [flattened, chainArrows_flattened]

theorem mentioned_eq : mentioned axioms = mentioned axioms' := by
  refine SortedSet.ext fun n => ?_
  rw [mem_mentioned, mem_mentioned]
  refine h.exists_iff fun a => ?_
  rw [mem_signature, mem_signature]
  exact and_congr_left fun _ => AxiomKind.mem_entities_flattened

theorem subPropertyArrows_eq : subPropertyArrows axioms = subPropertyArrows axioms' := by
  refine SortedSet.ext fun arrow => ?_
  unfold subPropertyArrows
  rw [SortedSet.mem_ofList, SortedSet.mem_ofList, List.mem_filterMap, List.mem_filterMap]
  exact h.exists_iff fun a => by rw [flattened, subPropertyArrow?_flattened]

theorem equivalenceClasses_eq : equivalenceClasses axioms = equivalenceClasses axioms' := by
  refine SortedSet.sorted_unique (equivalenceClasses_sorted axioms)
    (equivalenceClasses_sorted axioms') fun s => ?_
  rw [mem_equivalenceClasses_iff, mem_equivalenceClasses_iff, subPropertyArrows_eq h]

omit h in
theorem isSeedName_iff :
    IsSeedName axioms n ↔
      n = .top ∨ n = .bottom ∨ ∃ a ∈ axioms, n ∈ (compositeSeeds a.kind).map namedProperty := by
  simp only [List.mem_map, mem_compositeSeeds]
  constructor
  · rintro (_ | _ | ⟨ha, hk⟩ | ⟨ha, hk, hlong⟩)
    · exact .inl rfl
    · exact .inr (.inl rfl)
    · exact .inr (.inr ⟨_, ha, _, .inl hk, rfl⟩)
    · exact .inr (.inr ⟨_, ha, _, .inr ⟨_, hk, hlong⟩, rfl⟩)
  · rintro (rfl | rfl | ⟨a, ha, p, hk | ⟨members, hk, hlong⟩, rfl⟩)
    · exact .top
    · exact .bottom
    · exact .transitive ha hk
    · exact .chain ha hk hlong

theorem isSeedName_congr : IsSeedName axioms n ↔ IsSeedName axioms' n := by
  rw [isSeedName_iff, isSeedName_iff]
  refine or_congr_right (or_congr_right (h.exists_iff fun a => ?_))
  rw [flattened, compositeSeeds_flattened]

omit h in
theorem simplified_of_mem_composite (hx : x ∈ composite axioms) : x.simplified = x := by
  obtain ⟨s, -, rfl | ⟨a, -, p, q, -, -, rfl | rfl⟩⟩ := mem_composite.1 hx
  · exact simplified_simplified s
  · exact simplified_simplified q
  · exact simplified_inverseSimplified q

theorem composite_eq : composite axioms = composite axioms' := by
  have hnames (x : ObjectPropertyExpression) :
      x.simplified ∈ composite axioms ↔ x.simplified ∈ composite axioms' := by
    simp only [mem_composite_iff_name, isSeedName_congr h]
    refine or_congr_right (h.exists_iff fun a => ?_)
    simp only [flattened, mem_linkedNames_flattened]
  have hsimplified (l : List Axiom) (x : ObjectPropertyExpression) :
      x ∈ composite l ↔ x.simplified = x ∧ x.simplified ∈ composite l := by
    refine ⟨fun hx => ?_, fun ⟨hs, hx⟩ => hs ▸ hx⟩
    have hs := simplified_of_mem_composite hx
    exact ⟨hs, hs.symm ▸ hx⟩
  refine SortedSet.ext fun x => ?_
  rw [hsimplified axioms, hsimplified axioms', hnames]

end Facts

/-! ### Closures -/

/-- An expression is simplified and its property is one that some axioms mention. -/
def IsMentioned (axioms : List Axiom) (p : ObjectPropertyExpression) : Prop :=
  p.simplified = p ∧ p.namedProperty ∈ mentioned axioms

/-- A relation has no empty entry and lies between properties that some axioms mention. -/
structure LiesWithin (m : PropertyMap) (axioms : List Axiom) : Prop where
  noneEmpty : m.NoneEmpty
  isMentioned : ∀ p q, m.Leads p q → IsMentioned axioms p ∧ IsMentioned axioms q

theorem mem_mentioned_of_mem_entities {a : Axiom} (ha : a ∈ axioms)
    (hp : p.entity ∈ a.kind.entities) : p.namedProperty ∈ mentioned axioms :=
  mem_mentioned.2 ⟨a, ha, mem_signature.2 ⟨hp, rfl⟩⟩

theorem Declares.mem_entities (hd : Declares k p q) :
    p.entity ∈ k.entities ∧ q.entity ∈ k.entities := by
  cases hd with
  | equivalent hp hq | equivalentInverse hp hq =>
    exact ⟨List.mem_map.2 ⟨_, hp, rfl⟩, List.mem_map.2 ⟨_, hq, rfl⟩⟩
  | _ => simp [AxiomKind.entities, entity, namedProperty]

theorem Step.isMentioned (hstep : Step axioms p q) :
    IsMentioned axioms p ∧ IsMentioned axioms q := by
  obtain ⟨hp, hq⟩ := hstep.simplified
  obtain ⟨a, ha, sub, sup, hd, rfl, rfl⟩ := hstep
  refine ⟨⟨hp, mem_mentioned_of_mem_entities ha ?_⟩, hq, mem_mentioned_of_mem_entities ha ?_⟩
  · rw [entity_simplified]
    exact hd.mem_entities.1
  · rw [entity_simplified]
    exact hd.mem_entities.2

theorem ChainStep.isMentioned (hstep : ChainStep axioms p q) :
    IsMentioned axioms p ∧ IsMentioned axioms q := by
  have hchain {a : Axiom} {chain sup member} (hk : a.kind = .subPropertyChainOf chain sup)
      (hm : member ∈ chain) : member.entity ∈ a.kind.entities ∧ sup.entity ∈ a.kind.entities := by
    rw [hk]
    exact ⟨List.mem_append_left _ (List.mem_map_of_mem hm),
      List.mem_append_right _ List.mem_cons_self⟩
  cases hstep with
  | member ha hk hm =>
    obtain ⟨hmember, hsup⟩ := hchain hk hm
    exact ⟨⟨simplified_simplified _, mem_mentioned_of_mem_entities ha (by simpa using hmember)⟩,
      simplified_simplified _, mem_mentioned_of_mem_entities ha (by simpa using hsup)⟩
  | inverse ha hk hm =>
    obtain ⟨hmember, hsup⟩ := hchain hk hm
    have hi (x : ObjectPropertyExpression) : x.inverseSimplified.entity = x.entity :=
      entity_simplified (ObjectPropertyExpression.inverse x)
    exact ⟨⟨simplified_inverseSimplified _, mem_mentioned_of_mem_entities ha (by rwa [hi])⟩,
      simplified_inverseSimplified _, mem_mentioned_of_mem_entities ha (by rwa [hi])⟩

theorem liesWithin_direct (axioms : List Axiom) : LiesWithin (direct axioms) axioms where
  noneEmpty := noneEmpty_direct axioms
  isMentioned _ _ hl := (leads_direct.1 hl).isMentioned

theorem LiesWithin.withChains (hm : LiesWithin m axioms) :
    LiesWithin (withChains axioms m) axioms where
  noneEmpty := hm.noneEmpty.foldl_addArrow _
  isMentioned p q hl := by
    rcases leads_withChains.1 hl with hl | hstep
    · exact hm.isMentioned p q hl
    · exact hstep.isMentioned

/-- The closure of such a relation has an entry for each mentioned property and for its inverse, and
for nothing else. -/
theorem LiesWithin.mem_domain_iff (hm : LiesWithin m axioms) :
    p ∈ domain axioms m ↔ IsMentioned axioms p := by
  rw [mem_domain, hm.noneEmpty.mem_keys_iff]
  constructor
  · rintro (⟨q, hq, rfl | rfl⟩ | ⟨q, hl⟩ | ⟨q, hl⟩)
    · exact ⟨rfl, hq⟩
    · exact ⟨rfl, hq⟩
    · exact (hm.isMentioned p q hl).1
    · exact (hm.isMentioned q p hl).2
  · rintro ⟨hp, hname⟩
    exact .inl ⟨_, hname, eq_named_or_inverse hp⟩

/-- Steps from a property to itself lead nowhere. -/
theorem reflTransGen_of_ne {α : Type} {r s : α → α → Prop} {a b : α}
    (h : ∀ x y, x ≠ y → r x y → s x y) (hr : ReflTransGen r a b) : ReflTransGen s a b := by
  refine hr.lift' id fun x y hxy => ?_
  by_cases he : x = y
  · rw [he]
  · exact .single (h x y he hxy)

/-- Relations that differ in steps from a property to itself alone have one closure. -/
theorem LiesWithin.closure_eq (hm : LiesWithin m axioms) (hm' : LiesWithin m' axioms')
    (hmentioned : mentioned axioms = mentioned axioms')
    (hleads : ∀ p q, p ≠ q → (m.Leads p q ↔ m'.Leads p q)) :
    closure axioms m = closure axioms' m' := by
  have hdomain : domain axioms m = domain axioms' m' := by
    refine SortedSet.ext fun p => ?_
    rw [hm.mem_domain_iff, hm'.mem_domain_iff, IsMentioned, IsMentioned, hmentioned]
  have hreachable : m.reachable = m'.reachable := by
    funext p
    refine SortedSet.ext fun q => ?_
    rw [SortedMap.mem_reachable_iff, SortedMap.mem_reachable_iff]
    exact ⟨reflTransGen_of_ne fun x y hne => (hleads x y hne).1,
      reflTransGen_of_ne fun x y hne => (hleads x y hne).2⟩
  unfold closure
  rw [hdomain, hreachable]

theorem leads_direct_iff (h : SameFlattened axioms axioms') (hne : p ≠ q) :
    (direct axioms).Leads p q ↔ (direct axioms').Leads p q := by
  rw [leads_direct, leads_direct, step_iff h hne]

theorem closure_direct_eq (h : SameFlattened axioms axioms') :
    closure axioms (direct axioms) = closure axioms' (direct axioms') :=
  (liesWithin_direct axioms).closure_eq (liesWithin_direct axioms') (mentioned_eq h)
    fun _ _ => leads_direct_iff h

theorem ordering_direct_eq (h : SameFlattened axioms axioms') :
    ordering axioms (direct axioms) = ordering axioms' (direct axioms') := by
  refine (liesWithin_direct axioms).withChains.closure_eq (liesWithin_direct axioms').withChains
    (mentioned_eq h) fun p q hne => ?_
  rw [leads_withChains, leads_withChains, leads_direct_iff h hne, chainStep_congr h]

theorem isAtOrBelow_congr (hp : p.simplified = p'.simplified) (hq : q.simplified = q'.simplified) :
    isAtOrBelow m p q = isAtOrBelow m p' q' := by
  unfold isAtOrBelow
  rw [hp, hq]

/-! ### At most one inverse -/

theorem simplified_of_mem_nodes (hp : p ∈ nodes axioms) : p.simplified = p := by
  rcases mem_foldl_appendNew.1 hp with hp | hp
  · obtain ⟨n, -, rfl⟩ := List.mem_map.1 hp
    rfl
  · obtain ⟨⟨sub, sup⟩, he, hp⟩ := List.mem_flatMap.1 hp
    obtain ⟨a, -, sub', sup', -, rfl, rfl⟩ := mem_subPropertyArrows.1 he
    simp only [List.mem_cons, List.not_mem_nil, or_false] at hp
    rcases hp with rfl | rfl
    · exact simplified_simplified sub'
    · exact simplified_simplified sup'

theorem simplified_of_mem_equivalenceClasses {s : SortedSet ObjectPropertyExpression}
    (hs : s ∈ equivalenceClasses axioms) (hp : p ∈ s) : p.simplified = p := by
  obtain ⟨c, -, -, rfl⟩ := mem_equivalenceClasses.1 hs
  obtain ⟨i, -, rfl⟩ := mem_members.1 hp
  exact simplified_of_mem_nodes (List.get_mem _ i)

theorem simplified_of_mem_nonSimple {c : SortedSet ObjectPropertyExpression} (hm : Mirrored m)
    (hp : p ∈ nonSimple c m) : p.simplified = p := by
  have habove (x : ObjectPropertyExpression) (hx : x ∈ aboveComposite c m) : x.simplified = x := by
    obtain ⟨⟨key, above⟩, he, hx⟩ := List.mem_flatMap.1 hx
    split at hx
    · have hfind := SortedMap.mem_entries_iff.1 he
      rcases List.mem_cons.1 hx with rfl | hx
      · exact hm.simplified_key _ (SortedMap.mem_keys_iff.2 ⟨above, hfind⟩)
      · exact hm.simplified_member key x (SortedMap.leads_iff.2 ⟨above, hfind, hx⟩)
    · cases hx
  unfold nonSimple at hp
  rcases List.mem_append.1 (SortedSet.mem_ofList.1 hp) with hp | hp
  · exact habove p hp
  · obtain ⟨x, -, rfl⟩ := List.mem_map.1 hp
    exact simplified_inverseSimplified x

end OwlStructure.PropertyHierarchy
