import OwlStructure.Proofs.Encoding.Explanation
import OwlStructure.Proofs.Explanation.Tree
import OwlStructure.Proofs.Json.Names

/-!
What a text that is accepted as an explanation says about the nodes of the tree. The root is checked
and no other node is, so the sort of a node below the root is what the text says; but every
entailment node takes a member of its own that is named so.
-/
namespace OwlStructure

open Json

theorem ExplanationNode.isEntailment_le_of_decode? {n : Nat} {j : Json} {x : ExplanationNode}
    (h : decode? n j = some x) : x.isEntailment.toNat ≤ j.occurrences "Entailment" := by
  unfold decode? at h
  split at h
  · next payload =>
    have hname : (Json.obj [(some "Entailment", payload)]).occurrences "Entailment" =
        payload.occurrences "Entailment" + 1 := occurrences_variant "Entailment" payload
    rw [hname]
    exact (Bool.toNat_le _).trans (Nat.le_add_left 1 _)
  · obtain ⟨a, -, rfl⟩ := Option.map_eq_some_iff.1 h
    exact Nat.zero_le _
  · cases h

namespace ExplanationTree

/-- What a tree was read from: its label and its children are the two fields of a record. -/
theorem exists_of_decode? {n : Nat} {j : Json} {t : ExplanationTree} (h : decode? n j = some t) :
    ∃ m label items x children, n = m + 2 ∧
      j.record? ["node", "children"] = some [label, .arr items] ∧
      ExplanationNode.decode? (m + 1) label = some x ∧ items.mapM (decode? m) = some children ∧
      t = .node x children := by
  unfold decode? at h
  split at h
  · split at h
    · next m label items hrecord =>
      obtain ⟨x, hx, h⟩ := Option.bind_eq_some_iff.1 h
      obtain ⟨children, hchildren, h⟩ := Option.bind_eq_some_iff.1 h
      exact ⟨m, label, items, x, children, rfl, hrecord, hx, hchildren, (Option.some.inj h).symm⟩
    · cases h
  · cases h

/-- A tree has no more entailment nodes than there are members with their name. -/
theorem countP_isEntailment_le {n : Nat} {j : Json} {t : ExplanationTree}
    (h : decode? n j = some t) :
    t.nodes.countP ExplanationNode.isEntailment ≤ j.occurrences "Entailment" := by
  -- The children are read with two levels less, so the induction on the limit has to be strong.
  induction n using Nat.strong_induction_on generalizing j t with
  | _ n ih =>
    obtain ⟨m, label, items, x, children, rfl, hrecord, hx, hchildren, rfl⟩ := exists_of_decode? h
    have hlabel := ExplanationNode.isEntailment_le_of_decode? hx
    have hbelow : ((children.map nodes).map (List.countP ExplanationNode.isEntailment)).sum ≤
        (items.map (occurrences "Entailment")).sum := by
      rw [List.map_map]
      exact sum_mapM_le (fun _ _ ht => ih m (by omega) ht) hchildren
    have hparts := sum_parts_le "Entailment" (by decide) hrecord
    simp only [List.map_cons, List.map_nil, List.sum_cons, List.sum_nil, occurrences_arr] at hparts
    have hcount : (node x children).nodes.countP ExplanationNode.isEntailment =
        ((children.map nodes).map (List.countP ExplanationNode.isEntailment)).sum +
          x.isEntailment.toNat := by
      rw [nodes_node, List.countP_cons, List.flatMap, List.countP_flatten]
      cases x.isEntailment <;> rfl
    omega

theorem isEntailment_of_ofJson? {text : String} {t : ExplanationTree} (h : ofJson? text = .ok t) :
    t.label.isEntailment = true ∧ ofText? decode? text = some t := by
  unfold ofJson? at h
  split at h
  · next s hs =>
    split at h
    · next hroot =>
      cases h
      exact ⟨hroot, hs⟩
    · cases h
  · cases h

theorem mem_axiomClosure_iff_below {t : ExplanationTree} (hroot : t.label.isEntailment = true)
    {a : Axiom} : a ∈ t.axiomClosure ↔ .justification a ∈ t.children.flatMap nodes := by
  obtain ⟨x, children⟩ := t
  rw [mem_axiomClosure, nodes_node, List.mem_cons]
  refine or_iff_right ?_
  rintro rfl
  cases hroot

/-- The root of an accepted text is an entailment, and the closure has the axioms of the
justification nodes below it. Where the name of entailment nodes stands in the text once, these are
all nodes below the root. -/
theorem ofJson?_root {text : String} {t : ExplanationTree} (h : ofJson? text = .ok t) :
    t.label.isEntailment = true ∧
      (∀ a, a ∈ t.axiomClosure ↔ .justification a ∈ t.children.flatMap nodes) ∧
      ∀ j, parse? text = some j → j.occurrences "Entailment" ≤ 1 →
        ∀ x ∈ t.children.flatMap nodes, x.isEntailment = false ∧ x.statement ∈ t.axiomClosure := by
  obtain ⟨hroot, hread⟩ := isEntailment_of_ofJson? h
  refine ⟨hroot, fun a => mem_axiomClosure_iff_below hroot, fun j hj honce x hx => ?_⟩
  rw [ofText?, hj, Option.bind_some] at hread
  have hcount := (countP_isEntailment_le hread).trans honce
  have hnone : (t.children.flatMap nodes).countP ExplanationNode.isEntailment = 0 := by
    obtain ⟨y, children⟩ := t
    have hy : y.isEntailment = true := hroot
    rw [nodes_node, List.countP_cons_of_pos hy] at hcount
    exact Nat.le_zero.1 (Nat.le_of_succ_le_succ hcount)
  have hsort : x.isEntailment = false := by
    simpa using List.countP_eq_zero.1 hnone x hx
  refine ⟨hsort, (mem_axiomClosure_iff_below hroot).2 ?_⟩
  cases x with
  | entailment a => cases hsort
  | justification a => exact hx

/-- A subclass axiom justifies another: the name of entailment nodes stands at the root alone. -/
theorem ofJson?_root_subclass :
    let sub (c d : String) := Axiom.subClassOf (.named ⟨⟨c⟩⟩) (.named ⟨⟨d⟩⟩)
    let t : ExplanationTree :=
      .node (.entailment (sub "A" "C")) [.node (.justification (sub "A" "B")) []]
    ofJson? t.toJson = .ok t ∧ parse? t.toJson = some t.encode ∧
      t.encode.occurrences "Entailment" ≤ 1 ∧ sub "A" "B" ∈ t.axiomClosure := by
  intro sub t
  have h : ofJson? t.toJson = .ok t := ofJson?_of_depth_le rfl (by decide)
  have hparse : parse? t.toJson = some t.encode := parse?_indented t.encode
  have honce : t.encode.occurrences "Entailment" ≤ 1 := by decide
  have hbelow : .justification (sub "A" "B") ∈ t.children.flatMap nodes := by simp [t, children]
  obtain ⟨-, -, hclosure⟩ := ofJson?_root h
  exact ⟨h, hparse, honce, (hclosure _ hparse honce _ hbelow).2⟩

/-- An entailment below the root is accepted, and its axiom is not in the closure. -/
theorem ofJson?_entailment_below :
    let sub (c d : String) := Axiom.subClassOf (.named ⟨⟨c⟩⟩) (.named ⟨⟨d⟩⟩)
    let t : ExplanationTree :=
      .node (.entailment (sub "A" "C")) [.node (.entailment (sub "A" "B")) []]
    ofJson? t.toJson = .ok t ∧ .entailment (sub "A" "B") ∈ t.children.flatMap nodes ∧
      sub "A" "B" ∉ t.axiomClosure := by
  intro sub t
  refine ⟨ofJson?_of_depth_le rfl (by decide), by simp [t, children], ?_⟩
  rw [mem_axiomClosure]
  simp [t]

end ExplanationTree

end OwlStructure
