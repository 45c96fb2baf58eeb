import OwlStructure.Proofs.Explanation.Reached
import OwlStructure.Proofs.Explanation.Siblings

/-!
The order in which the axioms below a node are discovered, and the order in which they stand. The
children of a node are sorted again after every entity, while more of them keep coming; an axiom
that was passed over for one entity is passed over for all later ones, so each child belongs to the
first entity that it explains, and the children are one sort of the list of discoveries.
-/
namespace OwlStructure

open ExplanationTree

/-- The axioms of a set that explain an entity, in their order. -/
def explainers (axioms : SortedSet Axiom) (e : Entity) : List Axiom :=
  axioms.toList.filter fun a => Staging.selects e && decide (e ∈ a.defining)

/-- The axioms that explain some entities, entity by entity, each where it comes first. -/
def discoveries (axioms : SortedSet Axiom) (es : List Entity) : List Axiom :=
  (es.flatMap (explainers axioms)).foldl appendNew []

/-- Trees are the sorted form of a list in which their axioms come as they are discovered from some
entities. -/
def Discovered (axioms : SortedSet Axiom) (es : List Entity) (children : List ExplanationTree) :
    Prop :=
  ∃ found : List ExplanationTree,
    (found.map statement).Sublist (discoveries axioms es) ∧ children = sortSiblings found

/-- At every node of some trees, the children are discovered from what the axiom of the node leads
to. -/
def DiscoveredBelow (axioms : SortedSet Axiom) (trees : List ExplanationTree) : Prop :=
  ∀ u ∈ trees.flatMap subtrees, Discovered axioms u.statement.kind.ledTo u.children

/-- The axioms of a list that are not about an entity, then those that are. -/
def aboutLast (target : Option Entity) (l : List Axiom) : List Axiom :=
  l.filter (fun a => !target.any fun e => decide (e ∈ a.defining)) ++
    l.filter fun a => target.any fun e => decide (e ∈ a.defining)

variable {axioms consumed before after : SortedSet Axiom} {es : List Entity} {e : Entity}
  {a : Axiom} {children trees more : List ExplanationTree}

theorem mem_explainers :
    a ∈ explainers axioms e ↔ a ∈ axioms ∧ Staging.selects e = true ∧ e ∈ a.defining := by
  unfold explainers
  rw [List.mem_filter, Bool.and_eq_true, decide_eq_true_eq, SortedSet.mem_toList]

theorem mem_discoveries :
    a ∈ discoveries axioms es ↔
      ∃ e ∈ es, a ∈ axioms ∧ Staging.selects e = true ∧ e ∈ a.defining := by
  unfold discoveries
  rw [mem_foldl_appendNew, List.mem_flatMap]
  simp only [List.not_mem_nil, false_or, mem_explainers]

theorem Discovered.statement_mem {t : ExplanationTree} (h : Discovered axioms es children)
    (ht : t ∈ children) : t.statement ∈ discoveries axioms es := by
  obtain ⟨found, hfound, rfl⟩ := h
  exact hfound.subset (List.mem_map_of_mem ((sortSiblings_perm found).mem_iff.1 ht))

theorem discovered_nil (axioms : SortedSet Axiom) (es : List Entity) : Discovered axioms es [] :=
  ⟨[], List.nil_sublist _, (sortSiblings_of_length_le_one (l := []) (Nat.zero_le 1)).symm⟩

namespace DiscoveredBelow

theorem nil (axioms : SortedSet Axiom) : DiscoveredBelow axioms [] :=
  fun _ hu => absurd hu List.not_mem_nil

theorem append (h : DiscoveredBelow axioms trees) (h' : DiscoveredBelow axioms more) :
    DiscoveredBelow axioms (trees ++ more) := by
  intro u hu
  rw [List.flatMap_append, List.mem_append] at hu
  exact hu.elim (h u) (h' u)

theorem perm (h : DiscoveredBelow axioms trees) (hp : more.Perm trees) :
    DiscoveredBelow axioms more :=
  fun u hu => h u ((hp.flatMap_right subtrees).mem_iff.1 hu)

theorem node (hchildren : Discovered axioms a.kind.ledTo children)
    (h : DiscoveredBelow axioms children) :
    DiscoveredBelow axioms [.node (.justification a) children] := by
  intro u hu
  rw [List.flatMap_singleton, subtrees_node, List.mem_cons] at hu
  rcases hu with rfl | hu
  · exact hchildren
  · exact h u hu

theorem leaves (axioms : SortedSet Axiom) (as : List Axiom) :
    DiscoveredBelow axioms (as.map fun a => .node (.justification a) []) := by
  intro u hu
  rw [subtrees_leaves, List.mem_map] at hu
  obtain ⟨a, -, rfl⟩ := hu
  exact discovered_nil axioms _

end DiscoveredBelow

namespace Staging

variable {s : Staging} {path seen as : List Axiom} {depth : Nat} {p : Placement}

theorem IsSound.toList_candidates (h : s.IsSound) (e : Entity) :
    (s.candidates e).toList = explainers s.axioms e := by
  refine SortedSet.sorted_unique (s.candidates e).sorted (s.axioms.sorted.filter _) fun a => ?_
  rw [SortedSet.mem_toList, h.mem_candidates, mem_explainers]

theorem isPassedOver_mono (hs : ∀ b ∈ before, b ∈ after)
    (h : s.isPassedOver path before a = true) : s.isPassedOver path after a = true := by
  rw [isPassedOver_iff] at h ⊢
  exact h.imp_right fun h => h.imp_left (hs a)

/-- Some axioms have been looked at for the node at hand. None of them will be placed below it any
more, and its children are those that were, up to the moves that sorting may make. -/
structure Scanned (s : Staging) (path seen : List Axiom) (p : Placement) : Prop where
  found : ∃ found : List ExplanationTree,
    (found.map statement).Sublist (seen.foldl appendNew []) ∧
      StablePerm siblingOrder p.children found
  passedOver : ∀ a ∈ seen, s.isPassedOver path p.consumed a = true
  below : DiscoveredBelow s.axioms p.children

namespace Scanned

theorem start (s : Staging) (path : List Axiom) (consumed : SortedSet Axiom) :
    s.Scanned path [] ⟨consumed, []⟩ where
  found := ⟨[], List.nil_sublist _, .refl siblingOrder []⟩
  passedOver _ ha := absurd ha List.not_mem_nil
  below := .nil s.axioms

theorem sort (h : s.Scanned path seen p) :
    s.Scanned path seen ⟨p.consumed, sortSiblings p.children⟩ where
  found := by
    obtain ⟨found, hsub, hperm⟩ := h.found
    exact ⟨found, hsub, (stablePerm_sortSiblings p.children).trans hperm⟩
  passedOver := h.passedOver
  below := h.below.perm (sortSiblings_perm p.children)

theorem skip (h : s.Scanned path seen p) (ha : s.isPassedOver path p.consumed a = true) :
    s.Scanned path (seen ++ [a]) p where
  found := by
    obtain ⟨found, hsub, hperm⟩ := h.found
    rw [List.foldl_append]
    exact ⟨found, hsub.trans (sublist_appendNew _ a), hperm⟩
  passedOver b hb := by
    rcases List.mem_append.1 hb with hb | hb
    · exact h.passedOver b hb
    · exact List.mem_singleton.1 hb ▸ ha
  below := h.below

/-- An axiom that is not passed over has not been looked at before, so it is discovered here. -/
theorem child (h : s.Scanned path seen p) (ha : ¬ s.isPassedOver path p.consumed a = true)
    (hc : ∀ b ∈ p.consumed.insert a, b ∈ consumed)
    (hchildren : Discovered s.axioms a.kind.ledTo children)
    (hbelow : DiscoveredBelow s.axioms children) :
    s.Scanned path (seen ++ [a])
      ⟨consumed, p.children ++ [.node (.justification a) children]⟩ where
  found := by
    obtain ⟨found, hsub, hperm⟩ := h.found
    have hnew : a ∉ seen.foldl appendNew [] := by
      rw [mem_foldl_appendNew]
      rintro (hmem | hmem)
      · exact List.not_mem_nil hmem
      · exact ha (h.passedOver a hmem)
    refine ⟨found ++ [.node (.justification a) children], ?_, hperm.append (.refl _ _)⟩
    rw [List.foldl_append, List.map_append, List.foldl_cons, List.foldl_nil, appendNew,
      if_neg hnew]
    exact hsub.append (.refl _)
  passedOver b hb := by
    rcases List.mem_append.1 hb with hb | hb
    · exact isPassedOver_mono (fun c hc' => hc c (SortedSet.mem_insert.2 (.inr hc')))
        (h.passedOver b hb)
    · obtain rfl := List.mem_singleton.1 hb
      exact isPassedOver_iff.2 (.inr (.inl (hc b (SortedSet.mem_insert.2 (.inl rfl)))))
  below := h.below.append (.node hchildren hbelow)

end Scanned

/-- What is placed below a new child is discovered from what the child leads to. -/
def PlacesDiscovered (s : Staging) (depth : Nat) : Prop :=
  ∀ path es consumed,
    let q := es.foldl (fun q e => s.explain depth path e q) ⟨consumed, []⟩
    Discovered s.axioms es q.children ∧ DiscoveredBelow s.axioms q.children

theorem Scanned.place (h : s.IsSound) (hp : s.Scanned path seen p)
    (hdepth : s.PlacesDiscovered depth) (ha : a ∈ s.axioms) :
    s.Scanned path (seen ++ [a]) (s.place depth path p a) := by
  unfold Staging.place
  split
  · next hover => exact hp.skip hover
  · next hnew =>
    obtain ⟨hchildren, hbelow⟩ := hdepth (a :: path) (s.leadsTo a) (p.consumed.insert a)
    have hgrows := Placement.Grows.foldl (l := s.leadsTo a)
      (fun e _ q => explain_grows h depth (a :: path) e q) ⟨p.consumed.insert a, []⟩
    rw [h.leadsTo_eq ha] at hchildren hbelow hgrows ⊢
    exact hp.child hnew (fun b hb => hgrows.mem_consumed hb) hchildren hbelow

theorem Scanned.places (h : s.IsSound) (hp : s.Scanned path seen p)
    (hdepth : s.PlacesDiscovered depth) (has : ∀ a ∈ as, a ∈ s.axioms) :
    s.Scanned path (seen ++ as) (as.foldl (s.place depth path) p) := by
  induction as generalizing p seen with
  | nil => rwa [List.append_nil]
  | cons a as ih =>
    rw [List.append_cons]
    exact ih (hp.place h hdepth (has a List.mem_cons_self))
      fun b hb => has b (List.mem_cons_of_mem a hb)

/-- Explaining entities one after the other looks at their candidates, and leaves the children
sorted. -/
theorem Scanned.explain (h : s.IsSound) (hp : s.Scanned path seen p)
    (hsorted : p.children.Pairwise fun t u => (siblingOrder t u).isLE = true)
    (hdepth : s.PlacesDiscovered depth) (es : List Entity) :
    let q := es.foldl (fun q e => s.explain (depth + 1) path e q) p
    s.Scanned path (seen ++ es.flatMap (explainers s.axioms)) q ∧
      q.children.Pairwise fun t u => (siblingOrder t u).isLE = true := by
  induction es generalizing p seen with
  | nil =>
    rw [List.flatMap_nil, List.append_nil]
    exact ⟨hp, hsorted⟩
  | cons e es ih =>
    have hstep : s.Scanned path (seen ++ explainers s.axioms e)
        (s.explain (depth + 1) path e p) := by
      rw [explain_succ, ← h.toList_candidates]
      exact (hp.places h hdepth fun a ha => h.mem_of_mem_candidates ha).sort
    rw [List.flatMap_cons, ← List.append_assoc]
    exact ih hstep (pairwise_sortSiblings _)

theorem placesDiscovered (h : s.IsSound) (depth : Nat) : s.PlacesDiscovered depth := by
  induction depth with
  | zero =>
    intro path es consumed
    have hnothing : es.foldl (fun q e => s.explain 0 path e q) ⟨consumed, []⟩ = ⟨consumed, []⟩ :=
      List.foldl_fixed es
    rw [hnothing]
    exact ⟨discovered_nil s.axioms es, .nil s.axioms⟩
  | succ depth ih =>
    intro path es consumed
    obtain ⟨hscanned, hsorted⟩ := (Scanned.start s path consumed).explain h .nil ih es
    obtain ⟨found, hsub, hperm⟩ := hscanned.found
    exact ⟨⟨found, hsub, eq_sortSiblings hperm hsorted⟩, hscanned.below⟩

theorem discovered_placement (h : s.IsSound) (entailment : Axiom) (source : Option Entity) :
    let placed := (s.placement ∅ entailment source).children
    Discovered s.axioms source.toList placed ∧ DiscoveredBelow s.axioms placed := by
  cases source with
  | none => exact ⟨discovered_nil s.axioms _, .nil s.axioms⟩
  | some e => exact placesDiscovered h (s.axioms.size + 1) [entailment] [e] ∅

/-! ### Leftovers -/

theorem mem_consumed_placement (h : s.IsSound) (entailment : Axiom) (source : Option Entity) :
    a ∈ (s.placement ∅ entailment source).consumed ↔
      .justification a ∈ (s.placement ∅ entailment source).children.flatMap nodes := by
  obtain ⟨added, -, hnodes, hconsumed⟩ := exists_placed h entailment source
  rw [← SortedSet.mem_toList, hconsumed.mem_iff, hnodes.mem_iff]
  simp only [List.mem_map, ExplanationNode.justification.injEq, exists_eq_right]

theorem leftovers_eq (h : s.IsSound) (consumed : SortedSet Axiom) (target : Option Entity) :
    s.leftovers consumed target =
      aboutLast target (s.axioms.toList.filter fun a => decide (a ∉ consumed)) := by
  have habout {e : Entity} : ∀ a ∈ s.axioms.toList.filter fun a => decide (a ∉ consumed),
      (a ∈ s.index.about e ↔ e ∈ a.defining) := fun a ha => by
    rw [h.mem_about, and_iff_right (SortedSet.mem_toList.1 (List.mem_filter.1 ha).1)]
  cases target with
  | none => simp [leftovers, aboutLast]
  | some e =>
    unfold leftovers aboutLast
    simp only [Option.any_some, ← decide_not]
    congr 1
    · exact List.filter_congr fun a ha => decide_eq_decide.2 (not_congr (habout a ha))
    · exact List.filter_congr fun a ha => decide_eq_decide.2 (habout a ha)

end Staging

namespace ExplanationOrderer

/-- The comparison of siblings is a total preorder: equivalences of classes come last, axioms about
properties first, nodes with children before leaves, subclass axioms before the others and by
superclass. At every node of a built tree the children that were placed there are one stable sort
of the order in which they were discovered: from the source below the root, below the other nodes
from the entities that the axiom leads to, properties first, with the axioms that explain an entity
in their order. The root has the axioms that were not placed as its last children, those about the
target behind the others. -/
theorem order_sorts_discoveries (o o' : ExplanationOrderer) (l l' : Library) (number : Nat)
    (entailment : Axiom) (justification : List Axiom) (t : ExplanationTree)
    (h : o.order l number entailment justification = (.ok t, o', l')) :
    let axioms := SortedSet.ofList justification
    let seeds := Seeds.ofKind entailment.kind
    Std.TransCmp siblingOrder ∧
      (∀ s t, siblingOrder s t =
        (compare (s.statement.type == .equivalentClasses)
          (t.statement.type == .equivalentClasses)).then
        ((compare (!s.statement.type.isPropertyAxiom) (!t.statement.type.isPropertyAxiom)).then
        ((compare s.isLeaf t.isLeaf).then
        ((compare (s.statement.type != .subClassOf) (t.statement.type != .subClassOf)).then
        (superclassOrder s.statement.kind t.statement.kind))))) ∧
      (∀ found, StablePerm siblingOrder (sortSiblings found) found ∧
        (sortSiblings found).Pairwise fun s t => (siblingOrder s t).isLE = true) ∧
      ∃ (placed : List ExplanationTree) (rest : List Axiom),
        t = .node (.entailment entailment)
          (placed ++ rest.map fun a => .node (.justification a) []) ∧
        Discovered axioms seeds.source.toList placed ∧
        (∀ u ∈ t.children.flatMap subtrees,
          Discovered axioms u.statement.kind.ledTo u.children) ∧
        rest = aboutLast seeds.target (axioms.toList.filter fun a =>
          decide (.justification a ∉ placed.flatMap nodes)) := by
  intro axioms seeds
  obtain ⟨s, consumed, leftovers, hs, -, ha, hb, rfl⟩ := order_eq_ok h
  simp only [build, Prod.mk.injEq] at hb
  obtain ⟨rfl, rfl, rfl⟩ := hb
  obtain ⟨hplaced, hbelow⟩ := Staging.discovered_placement hs entailment seeds.source
  set p := s.placement ∅ entailment seeds.source
  rw [ha] at hplaced hbelow
  refine ⟨inferInstance, siblingOrder_eq,
    fun found => ⟨stablePerm_sortSiblings found, pairwise_sortSiblings found⟩,
    p.children, s.leftovers p.consumed seeds.target, rfl, hplaced,
    hbelow.append (.leaves axioms _), ?_⟩
  rw [Staging.leftovers_eq hs, ha]
  congr 1
  exact List.filter_congr fun a _ => decide_eq_decide.2
    (not_congr (Staging.mem_consumed_placement hs entailment seeds.source))

/-- Nothing is about the individual that the explanation starts from, so all axioms are left over;
the two about the class that it leads to stand behind the one that is not. -/
theorem order_sorts_discoveries_leftovers :
    let named (c : String) := ClassExpression.named ⟨⟨c⟩⟩
    let sub (c d : String) := Axiom.subClassOf (named c) (named d)
    let entailment := Axiom.classAssertion (named "C") (.named ⟨⟨"tom"⟩⟩)
    let justification := [sub "C" "D", sub "E" "F", sub "C" "A"]
    ∃ t o' l', (new default).order (.empty 1) 0 entailment justification = (.ok t, o', l') ∧
      t = .node (.entailment entailment)
        ([sub "E" "F", sub "C" "A", sub "C" "D"].map fun a => .node (.justification a) []) := by
  intro named sub entailment justification
  obtain ⟨t, ht⟩ := (order_isOk_iff (new default) (.empty 1) 0 entailment justification).2 rfl
  have h : (new default).order (.empty 1) 0 entailment justification = (.ok t, _, _) :=
    Prod.ext ht rfl
  obtain ⟨-, -, -, placed, rest, rfl, ⟨found, hfound, hplaced⟩, -, hrest⟩ :=
    order_sorts_discoveries _ _ _ _ _ _ _ _ h
  have hnone : discoveries (.ofList justification) (Seeds.ofKind entailment.kind).source.toList =
      [] := by decide
  rw [hnone, List.sublist_nil, List.map_eq_nil_iff] at hfound
  rw [hfound, sortSiblings_of_length_le_one (l := []) (Nat.zero_le 1)] at hplaced
  subst hplaced
  have hlast : rest = [sub "E" "F", sub "C" "A", sub "C" "D"] := hrest.trans (by decide)
  exact ⟨_, _, _, h, by rw [hlast, List.nil_append]⟩

end ExplanationOrderer

end OwlStructure
