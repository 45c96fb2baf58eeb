import OwlStructure.Explanation.Orderer
import OwlStructure.Proofs.Explanation.Placement
import OwlStructure.Proofs.Store.Edits

/-!
Building an explanation. A builder stages the distinct axioms of the justification, arranges them in
a tree, and reports how many it placed; every one of them stands at exactly one node.
-/
namespace OwlStructure

namespace Library

theorem holds_register (l : Library) (id : Iri) (h : ¬ l.isRegistered id = true) :
    (l.register id h).2.Holds (l.register id h).1 [] := by
  have hreg : (l.register id h).2.ontologies[(l.register id h).1.position]? =
      some (.empty id none) := by simp [register]
  exact .of_empty hreg

theorem create?_of_free {l : Library} {id : Iri} (h : ¬ l.isRegistered id = true) :
    l.create? id = .ok (l.register id h) := dif_neg h

theorem create?_of_taken {l : Library} {id : Iri} (h : l.isRegistered id = true) :
    l.create? id = .error (.duplicateOntology id.text) := dif_pos h

theorem registered_add (l : Library) (r : OntologyRef) (a : Axiom) :
    (l.add r a).2.registered = l.registered := by
  cases hc : (l.get r).ownCache <;> simp only [add, hc] <;> rfl

theorem registered_addAll (l : Library) (r : OntologyRef) (as : List Axiom) :
    (l.addAll r as).2.registered = l.registered := by
  induction as generalizing l with
  | nil => rfl
  | cons a as ih => exact (ih (l.add r a).2).trans (l.registered_add r a)

end Library

namespace ExplanationOrderer

variable {o o' : ExplanationOrderer} {l l' : Library} {number : Nat} {entailment : Axiom}
  {justification : List Axiom} {t : ExplanationTree}

/-- A builder fails only when the IRI that it would stage under is taken. -/
theorem order_isOk_iff (o : ExplanationOrderer) (l : Library) (number : Nat) (entailment : Axiom)
    (justification : List Axiom) :
    (∃ t, (o.order l number entailment justification).1 = .ok t) ↔
      l.isRegistered (o.stagingId number) = false := by
  by_cases h : l.isRegistered (o.stagingId number) = true
  · simp [order, Library.create?_of_taken h, h]
  · have hr : ((l.register (o.stagingId number) h).2.addAll (l.register (o.stagingId number) h).1
        (SortedSet.ofList justification).toList).2.isRegistered (o.stagingId number) = true := by
      unfold Library.isRegistered Library.find?
      rw [Library.registered_addAll]
      simp [Library.register]
    obtain ⟨r, hf⟩ := Option.isSome_iff_exists.1 hr
    simp [order, Library.create?_of_free h, h, Library.unregister?, hf]

/-- A built tree is that of the staged justification, of which nothing counts as placed at first,
and the report counts what the tree holds. -/
theorem order_eq_ok (h : o.order l number entailment justification = (.ok t, o', l')) :
    ∃ s : Staging, ∃ consumed leftovers, s.IsSound ∧ s.config = o.config ∧
      s.axioms = .ofList justification ∧ build s ∅ entailment = (t, consumed, leftovers) ∧
      o' = ⟨o.config, s.map, consumed, some ⟨o.stagingId number, consumed.size, leftovers⟩⟩ := by
  by_cases hf : l.isRegistered (o.stagingId number) = true
  · simp only [order, Library.create?_of_taken hf] at h
    cases h
  · simp only [order, Library.create?_of_free hf] at h
    have hs := (l.holds_register (o.stagingId number) hf).addAll
      (SortedSet.ofList justification).toList
    rw [foldl_appendNew (SortedSet.nodup_toList _), List.nil_append] at hs
    have hm := AxiomMap.build_represents (SortedSet.ofList justification).nodup_toList
    split at h
    · cases h
    · cases h
      exact ⟨⟨o.config, .ofList justification, _, _⟩, _, _, ⟨hs.represents, hm⟩, rfl, rfl, rfl, rfl⟩

/-- A list that is one of justification nodes up to order is a list of justification nodes. -/
theorem exists_map_justification {x : List ExplanationNode} {as : List Axiom}
    (h : x.Perm (as.map .justification)) :
    ∃ below : List Axiom, x = below.map .justification ∧ below.Perm as := by
  have hx : x = (x.map ExplanationNode.statement).map .justification := by
    have he : x.map (.justification ∘ ExplanationNode.statement) = x.map id := by
      refine List.map_congr_left fun y hy => ?_
      obtain ⟨a, _, rfl⟩ := List.mem_map.1 (h.mem_iff.1 hy)
      rfl
    rw [List.map_map, he, List.map_id]
  refine ⟨_, hx, ?_⟩
  have hm := h.map ExplanationNode.statement
  rw [List.map_map] at hm
  simpa only [Function.comp_def, ExplanationNode.statement, List.map_id'] using hm

/-- What has been used up and what is left over are the staged axioms. -/
theorem consumed_append_leftovers {s : Staging} {p : Placement} {added : List Axiom}
    (target : Option Entity) (hs : ∀ a ∈ added, a ∈ s.axioms)
    (hc : p.consumed.toList.Perm added) :
    (added ++ s.leftovers p.consumed target).Perm s.axioms.toList := by
  have hf : (s.axioms.toList.filter fun a => decide (a ∈ p.consumed)).Perm added := by
    refine .trans ?_ hc
    refine (List.perm_ext_iff_of_nodup (s.axioms.nodup_toList.filter _)
      p.consumed.nodup_toList).2 fun a => ?_
    rw [List.mem_filter, decide_eq_true_eq]
    exact ⟨fun ha => ha.2, fun ha => ⟨hs a (hc.mem_iff.1 ha), ha⟩⟩
  have hl := s.leftovers_perm p.consumed target
  simp only [decide_not] at hl
  exact (hf.symm.append hl).trans (List.filter_append_perm _ _)

/-- The nodes of a built tree are the entailment, and below it the staged axioms. -/
theorem build_nodes {s : Staging} (h : s.IsSound) {consumed : SortedSet Axiom} {leftovers : Nat}
    (hb : build s ∅ entailment = (t, consumed, leftovers)) :
    t.label = .entailment entailment ∧ consumed.size + leftovers = s.axioms.size ∧
      ∃ below : List Axiom, t.nodes = .entailment entailment :: below.map .justification ∧
        below.Perm s.axioms.toList := by
  simp only [build, Prod.mk.injEq] at hb
  obtain ⟨rfl, rfl, rfl⟩ := hb
  let seeds := Seeds.ofKind entailment.kind
  obtain ⟨added, hs, hn, hc⟩ := Staging.exists_placed h entailment seeds.source
  have hp := consumed_append_leftovers seeds.target hs hc
  refine ⟨rfl, ?_, ?_⟩
  · have hl := hp.length_eq
    rw [List.length_append, ← hc.length_eq] at hl
    exact hl
  · rw [ExplanationTree.nodes_node, List.flatMap_append, ExplanationTree.nodes_leaves]
    have hm := hn.append_right (List.map ExplanationNode.justification
      (s.leftovers (s.placement ∅ entailment seeds.source).consumed seeds.target))
    rw [← List.map_append] at hm
    obtain ⟨below, he, hperm⟩ := exists_map_justification hm
    exact ⟨below, by rw [he], hperm.trans hp⟩

/-- In the worst case the axioms of a built tree stand one below the other. -/
theorem build_depth_le {s : Staging} (h : s.IsSound) {consumed : SortedSet Axiom} {leftovers : Nat}
    (hb : build s ∅ entailment = (t, consumed, leftovers)) : t.depth ≤ s.axioms.size := by
  obtain ⟨-, -, below, hnodes, hperm⟩ := build_nodes h hb
  have hdepth := t.depth_lt_size
  rw [ExplanationTree.size_eq, hnodes, List.length_cons, List.length_map, hperm.length_eq] at hdepth
  exact Nat.le_of_lt_succ hdepth

/-- Every axiom of a justification stands at exactly one node of a built tree, and nothing else does
but the entailment at the root, whatever the justification repeats, however its axioms lead to each
other, and whatever the builder and the library have done before. -/
theorem order_places_each_once (o o' : ExplanationOrderer) (l l' : Library) (number : Nat)
    (entailment : Axiom) (justification : List Axiom) (t : ExplanationTree)
    (h : o.order l number entailment justification = (.ok t, o', l')) :
    t.label = .entailment entailment ∧
      (∃ below : List Axiom, t.nodes = .entailment entailment :: below.map .justification ∧
        below.Perm justification.dedup) ∧
      t.size = 1 + justification.dedup.length ∧
      (∀ a, a ∈ t.axiomClosure ↔ a ∈ justification) ∧
      ∃ report, o'.lastReport = some report ∧
        report.placed + report.leftovers = justification.dedup.length := by
  obtain ⟨s, consumed, leftovers, hs, -, ha, hb, rfl⟩ := order_eq_ok h
  obtain ⟨hlabel, hcount, below, hn, hp⟩ := build_nodes hs hb
  have hd := SortedSet.toList_ofList_perm justification
  rw [ha] at hp hcount
  have hpd := hp.trans hd
  refine ⟨hlabel, ⟨below, hn, hpd⟩, ?_, ?_, _, rfl, ?_⟩
  · rw [ExplanationTree.size_eq, hn, List.length_cons, List.length_map, hpd.length_eq, Nat.add_comm]
  · intro a
    rw [ExplanationTree.mem_axiomClosure, hn]
    simp [hpd.mem_iff]
  · rw [hcount, ← hd.length_eq]
    rfl

/-- Two classes below each other, an axiom given twice, and the entailment among its own reasons. -/
theorem order_places_each_once_cyclic :
    let sub (c d : String) := Axiom.subClassOf (.named ⟨⟨c⟩⟩) (.named ⟨⟨d⟩⟩)
    let justification := [sub "B" "A", sub "A" "B", sub "A" "C", sub "B" "A"]
    ∃ t o' l', (new default).order (.empty 1) 0 (sub "A" "C") justification = (.ok t, o', l') ∧
      t.size = 4 ∧ (∀ a, a ∈ t.axiomClosure ↔ a ∈ justification) := by
  intro sub justification
  obtain ⟨t, ht⟩ := (order_isOk_iff (new default) (.empty 1) 0 (sub "A" "C") justification).2 rfl
  have h : (new default).order (.empty 1) 0 (sub "A" "C") justification = (.ok t, _, _) :=
    Prod.ext ht rfl
  have hd : justification.dedup.length = 3 := by decide
  obtain ⟨-, -, hsize, hclosure, -⟩ := order_places_each_once _ _ _ _ _ _ _ _ h
  exact ⟨t, _, _, h, by rw [hsize, hd], hclosure⟩

end ExplanationOrderer

end OwlStructure
