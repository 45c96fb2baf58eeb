import OwlStructure.Proofs.Explanation.Discovery

/-!
The edges of a built tree. Below the root every edge goes through an entity that the upper axiom
leads to and the lower one is about; at the root it goes through the source, or the axiom was left
over. The entailment is never placed, so below the root it can only be left over.
-/
namespace OwlStructure

open ExplanationTree

/-- A class, object or data property or named individual that joins one axiom to another: it is in
the signature of the first, among the entities that a map records on its right side, and the second
is about it. -/
structure AxiomMap.Joins (m : AxiomMap) (above below : Axiom) (e : Entity) : Prop where
  kind : e.kind ∈ [.namedClass, .objectProperty, .dataProperty, .namedIndividual]
  recorded : e ∈ m.rightOf above
  right : e ∈ above.kind.rightSide
  mem_signature : e ∈ signature above
  mem_defining : e ∈ below.defining

variable {axioms : SortedSet Axiom} {es : List Entity} {as : List Axiom}
  {children trees : List ExplanationTree} {t u : ExplanationTree}

/-- Where all nodes justify, a subtree stands for one of their axioms. -/
theorem statement_mem_of_mem_subtrees (h : trees.flatMap nodes = as.map .justification)
    (hu : u ∈ trees.flatMap subtrees) : u.statement ∈ as := by
  have hnode : u.label ∈ (trees.flatMap subtrees).map label := List.mem_map_of_mem hu
  rw [map_label_flatMap_subtrees, h, List.mem_map] at hnode
  obtain ⟨a, ha, hlabel⟩ := hnode
  have hstatement : a = u.statement := congrArg ExplanationNode.statement hlabel
  exact hstatement ▸ ha

theorem Discovered.exists_defining (h : Discovered axioms es children) (ht : t ∈ children) :
    ∃ e ∈ es, Staging.selects e = true ∧ e ∈ t.statement.defining := by
  obtain ⟨e, he, -, hselects, hdefining⟩ := mem_discoveries.1 (h.statement_mem ht)
  exact ⟨e, he, hselects, hdefining⟩

theorem Staging.IsSound.exists_joins {s : Staging} {a : Axiom} (h : s.IsSound) (ha : a ∈ s.axioms)
    (hchildren : Discovered axioms a.kind.ledTo children) (ht : t ∈ children) :
    ∃ e, s.map.Joins a t.statement e := by
  obtain ⟨e, he, hselects, hdefining⟩ := hchildren.exists_defining ht
  have hright := AxiomKind.mem_ledTo.1 he
  refine ⟨e, selects_iff.1 hselects, ?_, hright, Axiom.mem_signature_of_mem_rightSide hright,
    hdefining⟩
  rwa [h.map.right, if_pos (SortedSet.mem_toList.2 ha)]

namespace ExplanationOrderer

/-- Every edge of a built tree goes through an entity. A child of a node below the root is about a
class, property or named individual that the axiom of the node leads to, as the map of the builder
has it; a child of the root is about the source of the entailment, or it is one of the leaves for
the axioms that were not placed. The entailment is not among the axioms that were placed, and
wherever it stands below the root, it is such a leaf. -/
theorem order_edges_join (o o' : ExplanationOrderer) (l l' : Library) (number : Nat)
    (entailment : Axiom) (justification : List Axiom) (t : ExplanationTree)
    (h : o.order l number entailment justification = (.ok t, o', l')) :
    ∃ (placed : List ExplanationTree) (rest : List Axiom) (report : BuildReport),
      t = .node (.entailment entailment)
        (placed ++ rest.map fun a => .node (.justification a) []) ∧
      (o'.lastReport = some report ∧ (placed.flatMap nodes).length = report.placed ∧
        rest.length = report.leftovers) ∧
      (∀ u ∈ t.children.flatMap subtrees, ∀ c ∈ u.children,
        ∃ e, o'.map.Joins u.statement c.statement e) ∧
      (∀ c ∈ placed, ∃ e, (Seeds.ofKind entailment.kind).source = some e ∧
        e ∈ c.statement.defining) ∧
      (∀ u ∈ placed.flatMap subtrees, u.statement ≠ entailment) ∧
      ∀ u ∈ t.children.flatMap subtrees, u.statement = entailment →
        entailment ∈ rest ∧ u = .node (.justification entailment) [] := by
  obtain ⟨s, consumed, leftovers, hs, -, -, hb, rfl⟩ := order_eq_ok h
  obtain ⟨-, -, below, hnodes, hbelow⟩ := build_nodes hs hb
  simp only [build, Prod.mk.injEq] at hb
  obtain ⟨rfl, rfl, rfl⟩ := hb
  obtain ⟨reached, hreached, -, hmem, hsize⟩ := Staging.exists_reached hs entailment
  set seeds := Seeds.ofKind entailment.kind
  obtain ⟨hplaced, hdiscovered⟩ := Staging.discovered_placement hs entailment seeds.source
  set p := s.placement ∅ entailment seeds.source
  set rest := s.leftovers p.consumed seeds.target
  have hne : ∀ u ∈ p.children.flatMap subtrees, u.statement ≠ entailment := fun u hu =>
    ((hmem _).1 (statement_mem_of_mem_subtrees hreached hu)).placeable.ne
  refine ⟨p.children, rest, _, rfl, ⟨rfl, ?_, rfl⟩, ?_, ?_, hne, ?_⟩
  · rw [hreached, List.length_map, hsize]
  · intro u hu c hc
    rw [nodes_node, List.cons.injEq] at hnodes
    have hu' : u.statement ∈ s.axioms := SortedSet.mem_toList.1
      (hbelow.mem_iff.1 (statement_mem_of_mem_subtrees hnodes.2 hu))
    exact hs.exists_joins hu' (hdiscovered.append (.leaves s.axioms rest) u hu) hc
  · intro c hc
    obtain ⟨e, he, -, hdefining⟩ := hplaced.exists_defining hc
    exact ⟨e, Option.mem_toList.1 he, hdefining⟩
  · intro u hu heq
    rw [children, List.flatMap_append, List.mem_append, subtrees_leaves] at hu
    rcases hu with hu | hu
    · exact absurd heq (hne u hu)
    · obtain ⟨a, ha, rfl⟩ := List.mem_map.1 hu
      obtain rfl : a = entailment := heq
      exact ⟨ha, rfl⟩

/-- The characteristic of a property can only stand below an axiom that leads to the property, here
through its inverse; the entailment is among its own reasons and is a leaf. -/
theorem order_edges_join_inverse :
    let named (c : String) := ClassExpression.named ⟨⟨c⟩⟩
    let p : ObjectProperty := ⟨⟨"p"⟩⟩
    let restriction := Axiom.subClassOf (named "A") (.someValues (.inverse (.named p)) (named "B"))
    let transitive := Axiom.transitiveObjectProperty (.named p)
    let entailment := Axiom.subClassOf (named "A") (named "C")
    let justification := [entailment, restriction, transitive]
    ∃ t o' l', (new default).order (.empty 1) 0 entailment justification = (.ok t, o', l') ∧
      (∀ u ∈ t.children.flatMap subtrees, ∀ c ∈ u.children, c.statement = transitive →
        .objectProperty p ∈ o'.map.rightOf u.statement) ∧
      ∀ u ∈ t.children.flatMap subtrees, u.statement = entailment → u.children = [] := by
  intro named p restriction transitive entailment justification
  obtain ⟨t, ht⟩ := (order_isOk_iff (new default) (.empty 1) 0 entailment justification).2 rfl
  have h : (new default).order (.empty 1) 0 entailment justification = (.ok t, _, _) :=
    Prod.ext ht rfl
  obtain ⟨placed, rest, -, -, -, hedges, -, -, hleaf⟩ := order_edges_join _ _ _ _ _ _ _ _ h
  refine ⟨t, _, _, h, fun u hu c hc hstatement => ?_, fun u hu heq => ?_⟩
  · obtain ⟨e, he⟩ := hedges u hu c hc
    have hdefining := he.mem_defining
    rw [hstatement] at hdefining
    obtain rfl : e = .objectProperty p := List.mem_singleton.1 hdefining
    exact he.recorded
  · exact congrArg children (hleaf u hu heq).2

end ExplanationOrderer

end OwlStructure
