import OwlStructure.Explanation.Siblings
import OwlStructure.Proofs.Collections.StableSort
import OwlStructure.Proofs.Order.Lexicographic

/-!
The order of siblings, read off the keys that they are sorted by, and the list of siblings that
sorting gives.
-/
namespace OwlStructure.ExplanationTree

/-- Of two subclass axioms the superclasses are compared; nothing else tells two kinds of one type
apart here. -/
def superclassOrder : AxiomKind → AxiomKind → Ordering
  | .subClassOf _ c, .subClassOf _ d => compare c d
  | _, _ => .eq

theorem compare_firstIf (b c : Bool) : compare (firstIf b) (firstIf c) = compare (!b) (!c) := by
  cases b <;> cases c <;> decide

theorem superclassKey_of_type_ne {k : AxiomKind} (h : k.type ≠ .subClassOf) :
    superclassKey k = [] := by
  cases k <;> first | rfl | exact absurd rfl h

theorem superclassOrder_of_type_ne {k k' : AxiomKind} (h : k.type ≠ .subClassOf) :
    superclassOrder k k' = .eq := by
  cases k <;> first | rfl | exact absurd rfl h

theorem compare_superclassKey {k k' : AxiomKind}
    (h : k.type = .subClassOf ↔ k'.type = .subClassOf) :
    compare (superclassKey k) (superclassKey k') = superclassOrder k k' := by
  by_cases hk : k.type = .subClassOf
  · have hk' : k'.type = .subClassOf := h.1 hk
    cases k <;> simp only [AxiomKind.type, reduceCtorEq] at hk
    cases k' <;> simp only [AxiomKind.type, reduceCtorEq] at hk'
    rfl
  · rw [superclassKey_of_type_ne hk, superclassKey_of_type_ne (mt h.2 hk),
      superclassOrder_of_type_ne hk]
    rfl

/-- Siblings compare first by what stands on the left in this chain; of the two truth values,
`false` comes first. -/
theorem siblingOrder_eq (s t : ExplanationTree) :
    siblingOrder s t =
      (compare (s.statement.type == .equivalentClasses)
        (t.statement.type == .equivalentClasses)).then
      ((compare (!s.statement.type.isPropertyAxiom) (!t.statement.type.isPropertyAxiom)).then
      ((compare s.isLeaf t.isLeaf).then
      ((compare (s.statement.type != .subClassOf) (t.statement.type != .subClassOf)).then
      (superclassOrder s.statement.kind t.statement.kind)))) := by
  simp only [siblingOrder, siblingKey, List.compare_cons_cons, compare_firstIf, bne, Bool.not_not]
  congr 3
  by_cases h : s.statement.type = .subClassOf ↔ t.statement.type = .subClassOf
  · rw [compare_superclassKey h]
  · -- one of the two is no subclass axiom, which decides before their keys are looked at
    have hne : compare (!s.statement.type == .subClassOf) (!t.statement.type == .subClassOf) ≠
        .eq := by
      intro heq
      have hsame := Std.LawfulEqCmp.eq_of_compare heq
      rw [Bool.not_inj_iff, Bool.eq_iff_iff, beq_iff_eq, beq_iff_eq] at hsame
      exact h hsame
    rw [then_of_ne hne, then_of_ne hne]

instance : Std.TransCmp siblingOrder := inferInstanceAs (Std.TransCmp (compareOn siblingKey))

theorem sortSiblings_of_length_le_one {l : List ExplanationTree} (h : l.length ≤ 1) :
    sortSiblings l = l := by
  match l, h with
  | [], _ => exact List.mergeSort_nil
  | [t], _ => exact List.mergeSort_singleton t

theorem sortSiblings_perm (l : List ExplanationTree) : (sortSiblings l).Perm l :=
  List.mergeSort_perm l _

theorem pairwise_sortSiblings (l : List ExplanationTree) :
    (sortSiblings l).Pairwise fun s t => (siblingOrder s t).isLE = true :=
  pairwise_mergeSort_cmp siblingOrder l

theorem stablePerm_sortSiblings (l : List ExplanationTree) :
    StablePerm siblingOrder (sortSiblings l) l := .mergeSort siblingOrder l

/-- Siblings that are sorted already, and come without moves from another list, are the sorted form
of that list. -/
theorem eq_sortSiblings {l found : List ExplanationTree} (h : StablePerm siblingOrder l found)
    (hl : l.Pairwise fun s t => (siblingOrder s t).isLE = true) : l = sortSiblings found :=
  (h.trans (stablePerm_sortSiblings found).symm).eq_of_pairwise hl (pairwise_sortSiblings found)

end OwlStructure.ExplanationTree
