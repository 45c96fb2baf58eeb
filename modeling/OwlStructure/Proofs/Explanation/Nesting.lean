import OwlStructure.Proofs.Encoding.Explanation
import OwlStructure.Proofs.Explanation.Building

/-!
How deep explanations are nested. A level of a tree takes two containers of its JSON, an object for
the node and an array for its children, so the limit on nesting bounds the levels of the trees that
are restored from their texts. A built tree has no more levels than its justification has axioms.
-/
namespace OwlStructure

open Json

namespace ExplanationTree

variable {t child : ExplanationTree} {level : Nat}

/-! ### Levels -/

@[simp] theorem depth_encode_label (x : ExplanationNode) :
    x.encode.depth = x.statement.encode.depth + 1 := by
  cases x <;> exact depth_variant ..

/-- A node at a level stands in two containers for each level above it, and its axiom in two more,
those of the node itself and of the sort of its label. -/
def nesting (e : Nat × ExplanationTree) : Nat := 2 * e.1 + e.2.statement.encode.depth + 2

theorem depth_encode_le {x : ExplanationNode} {children : List ExplanationTree} {limit : Nat} :
    (node x children).encode.depth + 2 * level ≤ limit ↔
      nesting (level, node x children) ≤ limit ∧
        depthItems (encodeAll children) + 2 * (level + 1) ≤ limit := by
  simp only [encode, depth_record, List.map_cons, List.map_nil, depthItems, depth_arr,
    depth_encode_label, nesting, statement, label]
  omega

mutual

/-- The containers of a tree keep a limit when those around each axiom do. -/
theorem depth_encode_le_iff {limit : Nat} (level : Nat) : (t : ExplanationTree) →
    (t.encode.depth + 2 * level ≤ limit ↔ ∀ e ∈ t.walk level, nesting e ≤ limit)
  | .node x children => by
    rw [walk, List.forall_mem_cons, depth_encode_le]
    constructor
    · rintro ⟨hnode, hchildren⟩
      exact ⟨hnode, ((depthItems_encodeAll_le_iff (level + 1) children).1 hchildren).2⟩
    · rintro ⟨hnode, hchildren⟩
      refine ⟨hnode, (depthItems_encodeAll_le_iff (level + 1) children).2 ⟨?_, hchildren⟩⟩
      unfold nesting at hnode
      omega

theorem depthItems_encodeAll_le_iff {limit : Nat} (level : Nat) :
    (children : List ExplanationTree) →
    (depthItems (encodeAll children) + 2 * level ≤ limit ↔
      2 * level ≤ limit ∧ ∀ e ∈ walkAll level children, nesting e ≤ limit)
  | [] => by simp [encodeAll, walkAll]
  | t :: rest => by
    have ht : t.encode.depth + 2 * level ≤ limit ↔ _ := depth_encode_le_iff level t
    have hrest : depthItems (encodeAll rest) + 2 * level ≤ limit ↔ _ :=
      depthItems_encodeAll_le_iff level rest
    rw [encodeAll, walkAll, List.forall_mem_append, ← ht, and_left_comm, ← hrest, depthItems]
    omega

end

mutual

/-- No subtree lies further below the root than the deepest leaf. -/
theorem level_le_add_depth (level : Nat) : (t : ExplanationTree) →
    ∀ e ∈ t.walk level, e.1 ≤ level + t.depth
  | .node x children => by
    rw [walk]
    refine List.forall_mem_cons.2 ⟨Nat.le_add_right .., fun e he => ?_⟩
    exact level_le_add_depthBelow level children e he

theorem level_le_add_depthBelow (level : Nat) : (children : List ExplanationTree) →
    ∀ e ∈ walkAll (level + 1) children, e.1 ≤ level + depthBelow children
  | [] => fun e he => absurd he List.not_mem_nil
  | t :: rest => by
    rw [walkAll]
    intro e he
    rw [depthBelow]
    rcases List.mem_append.1 he with he | he
    · have h := level_le_add_depth (level + 1) t e he
      omega
    · have h := level_le_add_depthBelow level rest e he
      omega

end

theorem statement_mem_of_mem_walk {e : Nat × ExplanationTree} (he : e ∈ t.walk 0) :
    e.2.statement ∈ t.nodes.map ExplanationNode.statement := by
  unfold nodes
  rw [List.map_map]
  exact List.mem_map_of_mem he

/-- A tree with an entailment at the root is restored if none of its nodes is nested too deep. -/
theorem ofJson?_toJson_eq (hroot : t.label.isEntailment = true) :
    ofJson? t.toJson =
      if ∀ e ∈ t.walk 0, nesting e ≤ nestingLimit then .ok t else .error .malformed := by
  obtain ⟨-, hread⟩ := ofJson?_toJson t
  rw [hread, if_pos hroot]
  exact if_congr (depth_encode_le_iff 0 t) rfl rfl

end ExplanationTree

namespace ExplanationOrderer

open ExplanationTree

variable {o o' : ExplanationOrderer} {l l' : Library} {number : Nat} {entailment : Axiom}
  {justification : List Axiom} {t : ExplanationTree}

/-- A built tree has at most one level for each distinct axiom of the justification below the
root, and holds no other axioms. -/
theorem order_levels (h : o.order l number entailment justification = (.ok t, o', l'))
    {e : Nat × ExplanationTree} (he : e ∈ t.walk 0) :
    e.1 ≤ justification.dedup.length ∧ e.2.statement ∈ entailment :: justification := by
  obtain ⟨s, consumed, leftovers, hs, -, ha, hb, -⟩ := order_eq_ok h
  have hlevel := level_le_add_depth 0 t e he
  have hdepth := build_depth_le hs hb
  rw [ha, SortedSet.size_ofList] at hdepth
  refine ⟨by omega, ?_⟩
  obtain ⟨-, -, below, hnodes, hperm⟩ := build_nodes hs hb
  rw [ha] at hperm
  have hstatement := statement_mem_of_mem_walk he
  rw [hnodes, List.map_cons, List.map_map] at hstatement
  have hbelow (a : Axiom) : a ∈ below ↔ a ∈ justification := by
    rw [hperm.mem_iff, SortedSet.mem_toList, SortedSet.mem_ofList]
  simpa [Function.comp_def, ExplanationNode.statement, hbelow] using hstatement

theorem exists_order_eq_ok (o : ExplanationOrderer) (l : Library) (number : Nat)
    (entailment : Axiom) (justification : List Axiom)
    (hfree : l.isRegistered (o.stagingId number) = false) :
    ∃ t o' l', o.order l number entailment justification = (.ok t, o', l') := by
  obtain ⟨t, ht⟩ := (order_isOk_iff o l number entailment justification).2 hfree
  rcases hresult : o.order l number entailment justification with ⟨result, o', l'⟩
  rw [hresult] at ht
  obtain rfl : result = .ok t := ht
  exact ⟨t, o', l', rfl⟩

/-- The text of a built tree is read as the tree if every axiom, in the containers of the levels
above it, keeps the limit on nesting, and is refused otherwise. So a tree is restored at least when
two containers for each distinct axiom of the justification, two more, and those of any single axiom
keep the limit together. -/
theorem order_restored (o o' : ExplanationOrderer) (l l' : Library) (number : Nat)
    (entailment : Axiom) (justification : List Axiom) (t : ExplanationTree)
    (h : o.order l number entailment justification = (.ok t, o', l')) :
    ofJson? t.toJson =
        (if ∀ e ∈ t.walk 0, 2 * e.1 + e.2.statement.encode.depth + 2 ≤ nestingLimit then .ok t
        else .error .malformed) ∧
      ∀ depth, (∀ a ∈ entailment :: justification, a.encode.depth ≤ depth) →
        2 * justification.dedup.length + depth + 2 ≤ nestingLimit → ofJson? t.toJson = .ok t := by
  have hlabel : t.label = .entailment entailment := by
    obtain ⟨s, consumed, leftovers, hs, -, -, hb, -⟩ := order_eq_ok h
    exact (build_nodes hs hb).1
  have hread : ofJson? t.toJson = _ := ofJson?_toJson_eq (by rw [hlabel]; rfl)
  refine ⟨hread, fun depth hdepth hlimit => ?_⟩
  rw [hread, if_pos]
  intro e he
  obtain ⟨hlevel, hstatement⟩ := order_levels h he
  have haxiom := hdepth _ hstatement
  unfold nesting
  omega

/-- An explanation by two subclass axioms is restored. -/
theorem order_restored_subclasses :
    let sub (c d : String) := Axiom.subClassOf (.named ⟨⟨c⟩⟩) (.named ⟨⟨d⟩⟩)
    ∃ t o' l', (new default).order (.empty 1) 0 (sub "A" "C") [sub "A" "B", sub "B" "C"] =
      (.ok t, o', l') ∧ ofJson? t.toJson = .ok t := by
  intro sub
  obtain ⟨t, o', l', h⟩ := exists_order_eq_ok (new default) (.empty 1) 0 (sub "A" "C")
    [sub "A" "B", sub "B" "C"] rfl
  obtain ⟨-, hrestored⟩ := order_restored _ _ _ _ _ _ _ t h
  exact ⟨t, o', l', h, hrestored 3 (by decide) (by decide)⟩

end ExplanationOrderer

end OwlStructure
