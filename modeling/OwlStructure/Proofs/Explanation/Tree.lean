import OwlStructure.Explanation.Tree

/-!
The subtrees of a tree, each with the nodes below it, and its nodes, as lists that its size, its
axioms and what holds at every node are read off.
-/
namespace OwlStructure.ExplanationTree

/-- Every subtree, the tree itself included, each before those below it. -/
def subtrees (t : ExplanationTree) : List ExplanationTree := (t.walk 0).map Prod.snd

mutual

theorem subtrees_walk (level : Nat) : (t : ExplanationTree) →
    (t.walk level).map Prod.snd = t.subtrees
  | .node x children => by
    simp only [subtrees, walk, List.map_cons]
    rw [subtrees_walkAll (level + 1) children, subtrees_walkAll (0 + 1) children]

theorem subtrees_walkAll (level : Nat) : (children : List ExplanationTree) →
    (walkAll level children).map Prod.snd = children.flatMap subtrees
  | [] => rfl
  | t :: rest => by
    rw [walkAll, List.map_append, subtrees_walk level t, subtrees_walkAll level rest,
      List.flatMap_cons]

end

@[simp] theorem subtrees_node (x : ExplanationNode) (children : List ExplanationTree) :
    (node x children).subtrees = node x children :: children.flatMap subtrees := by
  rw [subtrees, walk, List.map_cons, subtrees_walkAll]

theorem map_label_subtrees (t : ExplanationTree) : t.subtrees.map label = t.nodes := by
  rw [subtrees, List.map_map]
  rfl

theorem map_label_flatMap_subtrees (trees : List ExplanationTree) :
    (trees.flatMap subtrees).map label = trees.flatMap nodes := by
  rw [List.map_flatMap]
  simp only [map_label_subtrees]

@[simp] theorem nodes_node (x : ExplanationNode) (children : List ExplanationTree) :
    (node x children).nodes = x :: children.flatMap nodes := by
  rw [← map_label_subtrees, subtrees_node, List.map_cons, map_label_flatMap_subtrees, label]

/-! ### Leaves -/

theorem subtrees_leaves (as : List Axiom) :
    (as.map fun a => node (.justification a) []).flatMap subtrees =
      as.map fun a => node (.justification a) [] := by
  induction as with
  | nil => rfl
  | cons a as ih => simp [ih]

theorem nodes_leaves (as : List Axiom) :
    (as.map fun a => node (.justification a) []).flatMap nodes = as.map .justification := by
  rw [← map_label_flatMap_subtrees, subtrees_leaves, List.map_map]
  rfl

/-! ### Size, depth and axioms -/

mutual

theorem size_eq : (t : ExplanationTree) → t.size = t.nodes.length
  | .node x children => by rw [size, nodes_node, List.length_cons, sizeAll_eq children]

theorem sizeAll_eq : (children : List ExplanationTree) →
    sizeAll children = (children.flatMap nodes).length
  | [] => rfl
  | t :: rest => by
    rw [sizeAll, size_eq t, sizeAll_eq rest, List.flatMap_cons, List.length_append]

end

mutual

/-- Every step down to the deepest leaf comes to one more node. -/
theorem depth_lt_size : (t : ExplanationTree) → t.depth < t.size
  | .node _ children => by
    have h := depthBelow_le_sizeAll children
    rw [depth, size]
    omega

theorem depthBelow_le_sizeAll : (children : List ExplanationTree) →
    depthBelow children ≤ sizeAll children
  | [] => Nat.le_refl 0
  | t :: rest => by
    have ht := depth_lt_size t
    have hrest := depthBelow_le_sizeAll rest
    rw [depthBelow, sizeAll]
    omega

end

theorem mem_axiomClosure {t : ExplanationTree} {a : Axiom} :
    a ∈ t.axiomClosure ↔ .justification a ∈ t.nodes := by
  unfold axiomClosure
  rw [SortedSet.mem_ofList, List.mem_filterMap]
  constructor
  · rintro ⟨x, hx, ha⟩
    cases x with
    | entailment b => cases ha
    | justification b => exact Option.some.inj ha ▸ hx
  · intro h
    exact ⟨_, h, rfl⟩

end OwlStructure.ExplanationTree
