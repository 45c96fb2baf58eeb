import OwlStructure.Collections.Count
import OwlStructure.Explanation.Placement
import OwlStructure.Proofs.Collections.SortedSet
import OwlStructure.Proofs.Explanation.AxiomMap
import OwlStructure.Proofs.Explanation.Tree

/-!
The placement of a justification. Whatever a placement does below a node, the axioms that it uses up
and the nodes that it adds are the same list of axioms: this one relation between the placement
before and after is kept by every step of the recursion, through all branches.
-/
namespace OwlStructure

open ExplanationTree

/-- From one placement to another, staged axioms have been used up, and the nodes for just these
axioms have been added. -/
def Placement.Grows (s : Staging) (p q : Placement) : Prop :=
  ∃ added : List Axiom, (∀ a ∈ added, a ∈ s.axioms) ∧
    (q.children.flatMap nodes).Perm
      (p.children.flatMap nodes ++ added.map .justification) ∧
    q.consumed.toList.Perm (p.consumed.toList ++ added)

namespace Placement.Grows

variable {s : Staging} {p q r : Placement}

theorem refl (s : Staging) (p : Placement) : p.Grows s p :=
  ⟨[], by simp, by simp, by simp⟩

theorem trans (h : p.Grows s q) (h' : q.Grows s r) : p.Grows s r := by
  obtain ⟨first, hs, hn, hc⟩ := h
  obtain ⟨more, hs', hn', hc'⟩ := h'
  refine ⟨first ++ more, ?_, ?_, ?_⟩
  · intro a ha
    rcases List.mem_append.1 ha with ha | ha
    · exact hs a ha
    · exact hs' a ha
  · rw [List.map_append, ← List.append_assoc]
    exact hn'.trans (hn.append_right _)
  · rw [← List.append_assoc]
    exact hc'.trans (hc.append_right _)

theorem foldl {f : Placement → α → Placement} {l : List α}
    (h : ∀ x ∈ l, ∀ p : Placement, p.Grows s (f p x)) (p : Placement) :
    p.Grows s (l.foldl f p) := by
  induction l generalizing p with
  | nil => exact .refl s p
  | cons x l ih =>
    have hx := h x List.mem_cons_self p
    exact hx.trans (ih (fun y hy => h y (List.mem_cons_of_mem _ hy)) (f p x))

/-- Steps that agree on all that can be reached by them agree as a whole. -/
theorem foldl_congr {f f' : Placement → α → Placement} {l : List α}
    (hf : ∀ x ∈ l, ∀ q : Placement, q.Grows s (f q x))
    (h : ∀ x ∈ l, ∀ q, p.Grows s q → f q x = f' q x) : l.foldl f p = l.foldl f' p := by
  induction l generalizing p with
  | nil => rfl
  | cons x l ih =>
    rw [List.foldl_cons, List.foldl_cons, ← h x List.mem_cons_self p (.refl s p)]
    have hx := hf x List.mem_cons_self p
    apply ih
    · exact fun y hy => hf y (List.mem_cons_of_mem _ hy)
    · exact fun y hy q hq => h y (List.mem_cons_of_mem _ hy) q (hx.trans hq)

theorem mem_consumed (h : p.Grows s q) {a : Axiom} (ha : a ∈ p.consumed) : a ∈ q.consumed := by
  obtain ⟨added, -, -, hc⟩ := h
  exact hc.mem_iff.2 (List.mem_append_left _ ha)

theorem sort (h : p.Grows s q) : p.Grows s ⟨q.consumed, sortSiblings q.children⟩ := by
  obtain ⟨added, hs, hn, hc⟩ := h
  have hp : (sortSiblings q.children).Perm q.children := List.mergeSort_perm ..
  exact ⟨added, hs, (hp.flatMap_right nodes).trans hn, hc⟩

/-- A new child stands for its axiom and for what has been placed below it. -/
theorem child {a : Axiom} (ha : a ∈ s.axioms) (hc : a ∉ p.consumed)
    (h : Placement.Grows s ⟨p.consumed.insert a, []⟩ q) :
    p.Grows s ⟨q.consumed, p.children ++ [.node (.justification a) q.children]⟩ := by
  obtain ⟨added, hs, hn, hq⟩ := h
  refine ⟨a :: added, ?_, ?_, ?_⟩
  · intro b hb
    rcases List.mem_cons.1 hb with rfl | hb
    · exact ha
    · exact hs b hb
  · rw [List.flatMap_append, List.flatMap_singleton, nodes_node, List.map_cons]
    exact (hn.cons _).append_left _
  · have hi := SortedSet.toList_insert_perm hc
    exact (hq.trans (hi.append_right added)).trans List.perm_middle.symm

end Placement.Grows

namespace Staging

/-- The index of the staging ontology and the map hold the staged axioms. -/
structure IsSound (s : Staging) : Prop where
  index : s.index.Represents s.axioms.toList
  map : s.map.Represents s.axioms.toList

theorem IsSound.mem_about {s : Staging} (h : s.IsSound) {a : Axiom} {e : Entity} :
    a ∈ s.index.about e ↔ a ∈ s.axioms ∧ e ∈ a.defining := by
  rw [h.index.about_eq, List.mem_filter, SortedSet.mem_toList]
  simp [AxiomIndex.isAbout]

theorem IsSound.mem_filedUnder {s : Staging} (h : s.IsSound) {a : Axiom} {e : Entity} :
    a ∈ s.map.filedUnder e ↔ a ∈ s.axioms ∧ e ∈ a.kind.leftSide := by
  rw [h.map.mem_filedUnder, SortedSet.mem_toList]

theorem IsSound.mem_of_mem_candidates {s : Staging} (h : s.IsSound) {a : Axiom} {e : Entity}
    (ha : a ∈ s.candidates e) : a ∈ s.axioms := by
  unfold candidates at ha
  split at ha
  · rw [SortedSet.mem_insertAll, SortedSet.mem_ofList, h.mem_filedUnder, h.mem_about] at ha
    rcases ha with ha | ha
    · exact ha.1
    · exact ha.1
  · exact (h.mem_filedUnder.1 (SortedSet.mem_ofList.1 ha)).1

/-- One candidate: it is passed over, or becomes a child with what it leads to below it. -/
def place (s : Staging) (depth : Nat) (path : List Axiom) (p : Placement) (a : Axiom) :
    Placement :=
  if s.isPassedOver path p.consumed a then p
  else
    let below := (s.leadsTo a).foldl (fun q e => s.explain depth (a :: path) e q)
      ⟨p.consumed.insert a, []⟩
    ⟨below.consumed, p.children ++ [.node (.justification a) below.children]⟩

/-- Explaining an entity places its candidates one after the other, then sorts the children. -/
theorem explain_succ (s : Staging) (depth : Nat) (path : List Axiom) (e : Entity)
    (p : Placement) :
    s.explain (depth + 1) path e p =
      let placed := (s.candidates e).toList.foldl (s.place depth path) p
      ⟨placed.consumed, sortSiblings placed.children⟩ := rfl

theorem isPassedOver_iff {s : Staging} {path : List Axiom} {consumed : SortedSet Axiom}
    {a : Axiom} :
    s.isPassedOver path consumed a = true ↔
      s.config.isPassThrough a.type = true ∨ a ∈ consumed ∨ a ∈ path := by
  simp [isPassedOver, or_assoc]

theorem not_mem_consumed_of_not_passedOver {s : Staging} {path : List Axiom}
    {consumed : SortedSet Axiom} {a : Axiom} (h : ¬ s.isPassedOver path consumed a = true) :
    a ∉ consumed := fun hc => h (isPassedOver_iff.2 (.inr (.inl hc)))

theorem place_grows {s : Staging} {depth : Nat} {path : List Axiom} {p : Placement} {a : Axiom}
    (ih : ∀ path e p, Placement.Grows s p (s.explain depth path e p)) (ha : a ∈ s.axioms) :
    p.Grows s (s.place depth path p a) := by
  unfold place
  split
  · exact .refl s p
  · next h =>
    exact .child ha (not_mem_consumed_of_not_passedOver h)
      (.foldl (fun e _ q => ih (a :: path) e q) _)

theorem explain_grows {s : Staging} (h : s.IsSound) (depth : Nat) (path : List Axiom)
    (e : Entity) (p : Placement) : p.Grows s (s.explain depth path e p) := by
  induction depth generalizing path e p with
  | zero => exact .refl s p
  | succ depth ih =>
    rw [explain_succ]
    exact (Placement.Grows.foldl
      (fun a ha p => place_grows ih (h.mem_of_mem_candidates ha)) p).sort

/-! ### The depth of the recursion -/

/-- How many staged axioms have not been used up. -/
def unplaced (s : Staging) (consumed : SortedSet Axiom) : Nat :=
  s.axioms.toList.countP fun a => decide (a ∉ consumed)

theorem unplaced_le_of_subset {s : Staging} {before after : SortedSet Axiom}
    (h : ∀ a ∈ before, a ∈ after) : s.unplaced after ≤ s.unplaced before := by
  apply countP_le_of_imp
  intro a _ ha
  simp only [decide_eq_true_eq] at ha ⊢
  exact fun hp => ha (h a hp)

theorem unplaced_le {s : Staging} {p q : Placement} (h : p.Grows s q) :
    s.unplaced q.consumed ≤ s.unplaced p.consumed :=
  unplaced_le_of_subset fun _ => h.mem_consumed

theorem unplaced_lt_of_subset {s : Staging} {before after : SortedSet Axiom} {a : Axiom}
    (h : ∀ b ∈ before, b ∈ after) (ha : a ∈ s.axioms) (hafter : a ∈ after) (hbefore : a ∉ before) :
    s.unplaced after < s.unplaced before := by
  apply countP_lt_of_imp (a := a) _ ha
  · exact decide_eq_true hbefore
  · exact decide_eq_false (not_not_intro hafter)
  · intro x _ hx
    simp only [decide_eq_true_eq] at hx ⊢
    exact fun hb => hx (h x hb)

theorem unplaced_insert_lt {s : Staging} {consumed : SortedSet Axiom} {a : Axiom}
    (ha : a ∈ s.axioms) (hc : a ∉ consumed) :
    s.unplaced (consumed.insert a) < s.unplaced consumed := by
  apply unplaced_lt_of_subset _ ha _ hc
  · exact fun b hb => SortedSet.mem_insert.2 (.inr hb)
  · exact SortedSet.mem_insert.2 (.inl rfl)

theorem unplaced_le_size (s : Staging) (consumed : SortedSet Axiom) :
    s.unplaced consumed ≤ s.axioms.size := List.countP_le_length

/-- Below a new child one axiom less is left to place. -/
theorem place_depth {s : Staging} (h : s.IsSound) {depth depth' : Nat} {path : List Axiom}
    {a : Axiom} {p : Placement} (ha : a ∈ s.axioms)
    (ih : ∀ path e q, s.unplaced q.consumed < s.unplaced p.consumed →
      s.explain depth path e q = s.explain depth' path e q) :
    s.place depth path p a = s.place depth' path p a := by
  unfold place
  split
  · rfl
  · next hnew =>
    have hlt := unplaced_insert_lt ha (not_mem_consumed_of_not_passedOver hnew)
    have hbelow : (s.leadsTo a).foldl (fun q e => s.explain depth (a :: path) e q)
          ⟨p.consumed.insert a, []⟩ =
        (s.leadsTo a).foldl (fun q e => s.explain depth' (a :: path) e q)
          ⟨p.consumed.insert a, []⟩ := by
      apply Placement.Grows.foldl_congr
      · exact fun e _ q => explain_grows h depth (a :: path) e q
      · exact fun e _ q hq => ih (a :: path) e q (Nat.lt_of_le_of_lt (unplaced_le hq) hlt)
    rw [hbelow]

/-- The recursion ends by itself: no depth above the number of unplaced axioms is ever used up. -/
theorem explain_depth {s : Staging} (h : s.IsSound) {depth depth' : Nat} {path : List Axiom}
    {e : Entity} {p : Placement} (hd : s.unplaced p.consumed < depth)
    (hd' : s.unplaced p.consumed < depth') :
    s.explain depth path e p = s.explain depth' path e p := by
  induction depth generalizing depth' path e p with
  | zero => omega
  | succ depth ih =>
    cases depth' with
    | zero => omega
    | succ depth' =>
      have hplaced : (s.candidates e).toList.foldl (s.place depth path) p =
          (s.candidates e).toList.foldl (s.place depth' path) p := by
        apply Placement.Grows.foldl_congr
        · intro a ha q
          exact place_grows (explain_grows h depth) (h.mem_of_mem_candidates ha)
        · intro a ha q hq
          have hle := unplaced_le hq
          apply place_depth h (h.mem_of_mem_candidates ha)
          intro path e q' hlt
          apply ih
          · omega
          · omega
      rw [explain_succ, explain_succ, hplaced]

/-- The axioms that a whole placement has used up are those at its nodes. -/
theorem exists_placed {s : Staging} (h : s.IsSound) (entailment : Axiom)
    (source : Option Entity) :
    ∃ added : List Axiom, (∀ a ∈ added, a ∈ s.axioms) ∧
      ((s.placement ∅ entailment source).children.flatMap nodes).Perm
        (added.map .justification) ∧
      (s.placement ∅ entailment source).consumed.toList.Perm added := by
  cases source with
  | none => exact ⟨[], by simp, by simp [placement], .refl _⟩
  | some e => exact explain_grows h (s.axioms.size + 1) [entailment] e ⟨∅, []⟩

/-- What is left over, in whichever order, is what has not been used up. -/
theorem leftovers_perm (s : Staging) (consumed : SortedSet Axiom) (target : Option Entity) :
    (s.leftovers consumed target).Perm
      (s.axioms.toList.filter fun a => decide (a ∉ consumed)) := by
  unfold leftovers
  simp only [decide_not]
  exact List.perm_append_comm.trans (List.filter_append_perm _ _)

end Staging

end OwlStructure
