import OwlStructure.Collections.MaximalSets
import OwlStructure.Proofs.Collections.SortKey
import OwlStructure.Proofs.Collections.SortedSet
import OwlStructure.Proofs.Collections.StableSort

/-!
The maximal sets of a list are its members that no other member contains, each once, in strictly
ascending order. Sets without common members ascend as their least members do.
-/
namespace OwlStructure

namespace SortedSet

variable {α : Type u} [Keyed α] {s t : SortedSet α} {sets l : List (SortedSet α)} {a b : α}

/-- The least member of a set. -/
def IsLeast (s : SortedSet α) (a : α) : Prop := a ∈ s ∧ ∀ b ∈ s, b = a ∨ Before a b

theorem exists_isLeast (ha : a ∈ s) : ∃ b l, s.toList = b :: l ∧ s.IsLeast b := by
  obtain ⟨b, l, hs⟩ := List.exists_cons_of_ne_nil (List.ne_nil_of_mem ha)
  have hsorted := s.sorted
  rw [hs] at hsorted
  have hmem {c : α} : c ∈ s ↔ c ∈ b :: l := by rw [← hs, mem_toList]
  refine ⟨b, l, hs, hmem.2 List.mem_cons_self, fun c hc => ?_⟩
  rcases List.mem_cons.1 (hmem.1 hc) with rfl | hc
  · exact .inl rfl
  · exact .inr ((List.pairwise_cons.1 hsorted).1 c hc)

/-- The order of sets is that of their least members, if these are different. -/
theorem before_of_heads {l m : List α} (hs : s.toList = a :: l) (ht : t.toList = b :: m)
    (hab : a ≠ b) (h : Before s t) : Before a b := by
  have hne : compare a b ≠ .eq := fun e => hab (Std.LawfulEqCmp.eq_of_compare e)
  unfold Before at h
  rwa [compare_eq, hs, ht, List.compare_cons_cons, then_of_ne hne] at h

/-! ### The sets that are kept -/

theorem eq_of_subset (h : ∀ a ∈ s, a ∈ t) (hsize : t.size ≤ s.size) : s = t := by
  have hperm := (List.subperm_of_subset s.nodup_toList h).perm_of_length_le hsize
  exact ext fun a => hperm.mem_iff

instance : Std.TransCmp (sizeOrder (α := α)) :=
  inferInstanceAs (Std.TransCmp (compareLex (compareOn size) compare))

theorem size_le_of_sizeOrder (h : (sizeOrder s t).isLE = true) : s.size ≤ t.size := by
  unfold sizeOrder at h
  have hle := (Ordering.isLE_then_iff_and.1 h).1
  exact Nat.isLE_compare.1 hle

theorem mem_dropCovered (h : l.Pairwise fun s t => s.size ≤ t.size) :
    s ∈ dropCovered l ↔ s ∈ l ∧ ∀ t ∈ l, (∀ a ∈ s, a ∈ t) → t = s := by
  induction l with
  | nil => simp [dropCovered]
  | cons x l ih =>
    obtain ⟨hx, hl⟩ := List.pairwise_cons.1 h
    -- a set contains no smaller one but itself
    have hself (hs : s ∈ l) (hsub : ∀ a ∈ s, a ∈ x) : x = s :=
      (eq_of_subset hsub (hx s hs)).symm
    unfold dropCovered
    split
    · next hany =>
      obtain ⟨t, ht, hsub⟩ := List.any_eq_true.1 hany
      rw [isSubset_iff] at hsub
      rw [ih hl]
      constructor
      · rintro ⟨hs, hmax⟩
        exact ⟨List.mem_cons_of_mem _ hs, List.forall_mem_cons.2 ⟨hself hs, hmax⟩⟩
      · rintro ⟨hs, hmax⟩
        obtain ⟨-, hlater⟩ := List.forall_mem_cons.1 hmax
        refine ⟨?_, hlater⟩
        rcases List.mem_cons.1 hs with rfl | hs
        · exact hlater t ht hsub ▸ ht
        · exact hs
    · next hany =>
      have hnot (t : SortedSet α) (ht : t ∈ l) (hsub : ∀ a ∈ x, a ∈ t) : False :=
        hany (List.any_eq_true.2 ⟨t, ht, isSubset_iff.2 hsub⟩)
      rw [List.mem_cons, List.mem_cons, ih hl, List.forall_mem_cons]
      constructor
      · rintro (rfl | ⟨hs, hmax⟩)
        · exact ⟨.inl rfl, fun _ => rfl, fun t ht hsub => (hnot t ht hsub).elim⟩
        · exact ⟨.inr hs, hself hs, hmax⟩
      · rintro ⟨rfl | hs, -, hmax⟩
        · exact .inl rfl
        · exact .inr ⟨hs, hmax⟩

theorem dropCovered_sublist (l : List (SortedSet α)) : (dropCovered l).Sublist l := by
  induction l with
  | nil => exact .slnil
  | cons x l ih =>
    unfold dropCovered
    split
    · exact ih.cons x
    · exact ih.cons_cons x

theorem nodup_dropCovered (l : List (SortedSet α)) : (dropCovered l).Nodup := by
  induction l with
  | nil => exact List.nodup_nil
  | cons x l ih =>
    unfold dropCovered
    split
    · exact ih
    · next hany =>
      refine List.nodup_cons.2 ⟨fun hx => hany ?_, ih⟩
      have hx' : x ∈ l := (dropCovered_sublist l).subset hx
      exact List.any_eq_true.2 ⟨x, hx', isSubset_iff.2 fun _ ha => ha⟩

/-- The maximal sets are the members of the list that no other member contains. -/
theorem mem_maximal : s ∈ maximal sets ↔ s ∈ sets ∧ ∀ t ∈ sets, (∀ a ∈ s, a ∈ t) → t = s := by
  unfold maximal
  have hsorted := pairwise_mergeSort_cmp sizeOrder sets
  rw [List.mem_mergeSort, mem_dropCovered (hsorted.imp size_le_of_sizeOrder)]
  simp only [List.mem_mergeSort]

theorem maximal_sorted (sets : List (SortedSet α)) : (maximal sets).Pairwise Before := by
  unfold maximal
  generalize hl : dropCovered (sets.mergeSort fun s t => (sizeOrder s t).isLE) = l
  have hnodup : (l.mergeSort fun s t => (compare s t).isLE).Nodup :=
    (List.mergeSort_perm l _).nodup_iff.2 (hl ▸ nodup_dropCovered _)
  refine ((pairwise_mergeSort_cmp compare l).and hnodup).imp fun {s t} ⟨hle, hne⟩ => ?_
  rcases Before.trichotomy s t with h | h | h
  · exact h
  · exact absurd h hne
  · rw [Std.OrientedCmp.gt_of_lt h] at hle
    cases hle

/-- The first set is a part of the second and leaves some of its members out. -/
def IsProperPart (s t : SortedSet α) : Prop := (∀ a ∈ s, a ∈ t) ∧ ∃ a ∈ t, a ∉ s

theorem isProperPart_iff : s.IsProperPart t ↔ (∀ a ∈ s, a ∈ t) ∧ t ≠ s := by
  refine and_congr_right fun hsub => ?_
  constructor
  · rintro ⟨a, ha, hnot⟩ rfl
    exact hnot ha
  · intro hne
    by_contra hall
    push Not at hall
    exact hne (ext fun a => ⟨hall a, hsub a⟩)

/-- Of a list of sets, whatever they share and however often one is given, just those are listed
that are no proper part of another, each once, and in strictly ascending order of their members. -/
theorem maximal_lists_uncovered (sets : List (SortedSet α)) :
    (maximal sets).Pairwise (fun s t => compare s.toList t.toList = .lt) ∧ (maximal sets).Nodup ∧
      ∀ s, s ∈ maximal sets ↔ s ∈ sets ∧ ¬ ∃ t ∈ sets, s.IsProperPart t := by
  have hsorted := maximal_sorted sets
  refine ⟨hsorted.imp fun {s t} h => ?_, hsorted.imp Before.ne, fun s => ?_⟩
  · rw [← compare_eq]
    exact h
  · rw [mem_maximal]
    refine and_congr_right fun _ => ?_
    simp only [isProperPart_iff, not_exists, not_and, not_not]

end SortedSet

end OwlStructure
