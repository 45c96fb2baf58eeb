import OwlStructure.Encoding.Explanation
import OwlStructure.Proofs.Encoding.Axiom
import OwlStructure.Proofs.Json.Layout

/-!
Explanations are restored from their text. The limit on nesting counts the containers of the JSON of
a tree; a tree that keeps it is given back if its root is an entailment.
-/
namespace OwlStructure

open Json

theorem ExplanationNode.restores : (x : ExplanationNode) →
    Restores ExplanationNode.decode? x.encode x
  | .entailment a => ((a.restores true).map entailment).variant rfl fun _ => rfl
  | .justification a => ((a.restores true).map justification).variant rfl fun _ => rfl

namespace ExplanationTree

theorem encodeAll_eq (l : List ExplanationTree) : encodeAll l = l.map encode := by
  induction l with
  | nil => rfl
  | cons t l ih => rw [encodeAll, ih, List.map_cons]

/-- The children are read one level below the array that they stand in. -/
theorem decode?_record (x : ExplanationNode) (items : List Json) (limit : Nat) :
    decode? (limit + 1) (.record [("node", x.encode), ("children", .arr items)]) =
      (do some (.node (← ExplanationNode.decode? limit x.encode)
        (← listOf? decode? limit (.arr items)))) := by
  cases limit with
  | zero => cases x <;> rfl
  | succ limit => rfl

mutual

theorem restores : (t : ExplanationTree) → Restores decode? t.encode t
  | .node x children => by
    have hchildren := Restores.listOf (restores_children children)
    rw [← encodeAll_eq] at hchildren
    exact .pair x.restores hchildren node rfl (decode?_record x _)

theorem restores_children : (children : List ExplanationTree) →
    ∀ t ∈ children, Restores decode? t.encode t
  | [] => fun _ ht => absurd ht List.not_mem_nil
  | t :: children => List.forall_mem_cons.2 ⟨restores t, restores_children children⟩

end

theorem ofText?_toJson (t : ExplanationTree) :
    ofText? decode? t.toJson = if t.encode.depth ≤ nestingLimit then some t else none :=
  t.restores.ofText?_indented

theorem ofJson?_of_depth_le {t : ExplanationTree} (hroot : t.label.isEntailment = true)
    (h : t.encode.depth ≤ nestingLimit) : ofJson? t.toJson = .ok t := by
  rw [ofJson?, ofText?_toJson, if_pos h]
  exact if_pos hroot

/-- The text of a tree writes `t.encode`, and what is read from it depends on its root and on how
deep its containers are nested alone. -/
theorem ofJson?_toJson (t : ExplanationTree) :
    parse? t.toJson = some t.encode ∧
      ofJson? t.toJson =
        if t.encode.depth ≤ nestingLimit then
          if t.label.isEntailment then .ok t else .error .rootNotEntailment
        else .error .malformed := by
  refine ⟨parse?_indented t.encode, ?_⟩
  rw [ofJson?, ofText?_toJson]
  by_cases h : t.encode.depth ≤ nestingLimit
  · rw [if_pos h, if_pos h]
  · rw [if_neg h, if_neg h]

end ExplanationTree

end OwlStructure
