import Mathlib.Data.List.Pairwise

/-!
Stable sorting. Sorting a list moves no value past another that the comparison does not tell from
it, and a sorted list with the same values and without such moves is unique. So a list that is
sorted again whenever values have been added to it is sorted as if this were done once, at the end.
-/
namespace OwlStructure

/-- Of two values at least one does not come after the other. -/
theorem isLE_total {α : Type u} (cmp : α → α → Ordering) [Std.OrientedCmp cmp] (a b : α) :
    (cmp a b).isLE || (cmp b a).isLE := by
  have hswap : cmp a b = (cmp b a).swap := Std.OrientedCmp.eq_swap
  rw [hswap]
  cases cmp b a <;> rfl

/-- Sorting by a comparison leaves no value before a smaller one. -/
theorem pairwise_mergeSort_cmp {α : Type u} (cmp : α → α → Ordering) [Std.TransCmp cmp]
    (l : List α) :
    (l.mergeSort fun a b => (cmp a b).isLE).Pairwise fun a b => (cmp a b).isLE = true :=
  List.pairwise_mergeSort (fun _ _ _ => Std.TransCmp.isLE_trans) (isLE_total cmp) l

variable {α : Type u} {cmp : α → α → Ordering} {l l' l'' m m' : List α}

/-- Two lists have the same values, and values that a comparison does not tell apart stand in both
in the same order. -/
structure StablePerm (cmp : α → α → Ordering) (l l' : List α) : Prop where
  perm : l.Perm l'
  filter_eq : ∀ x, (l.filter fun y => cmp x y == .eq) = l'.filter fun y => cmp x y == .eq

namespace StablePerm

theorem refl (cmp : α → α → Ordering) (l : List α) : StablePerm cmp l l := ⟨.refl l, fun _ => rfl⟩

theorem symm (h : StablePerm cmp l l') : StablePerm cmp l' l where
  perm := h.perm.symm
  filter_eq x := (h.filter_eq x).symm

theorem trans (h : StablePerm cmp l l') (h' : StablePerm cmp l' l'') : StablePerm cmp l l'' where
  perm := h.perm.trans h'.perm
  filter_eq x := (h.filter_eq x).trans (h'.filter_eq x)

theorem append (h : StablePerm cmp l l') (h' : StablePerm cmp m m') :
    StablePerm cmp (l ++ m) (l' ++ m') where
  perm := h.perm.append h'.perm
  filter_eq x := by rw [List.filter_append, List.filter_append, h.filter_eq, h'.filter_eq]

variable [Std.TransCmp cmp]

/-- The values that are not told apart from one value are a sorted part of any list. -/
theorem pairwise_filter (x : α) (l : List α) :
    (l.filter fun y => cmp x y == .eq).Pairwise fun a b => (cmp a b).isLE = true := by
  refine List.pairwise_of_forall_mem_list fun a ha b hb => ?_
  have hxa : cmp x a = .eq := beq_iff_eq.1 (List.mem_filter.1 ha).2
  have hxb : cmp x b = .eq := beq_iff_eq.1 (List.mem_filter.1 hb).2
  rw [Std.TransCmp.congr_left (Std.OrientedCmp.eq_symm hxa), hxb]
  rfl

theorem mergeSort (cmp : α → α → Ordering) [Std.TransCmp cmp] (l : List α) :
    StablePerm cmp (l.mergeSort fun a b => (cmp a b).isLE) l where
  perm := List.mergeSort_perm l _
  filter_eq x := by
    have hperm := (List.mergeSort_perm l fun a b => (cmp a b).isLE).filter fun y => cmp x y == .eq
    have hsub := List.sublist_mergeSort (fun _ _ _ => Std.TransCmp.isLE_trans) (isLE_total cmp)
      (pairwise_filter x l) List.filter_sublist
    have hfilter := hsub.filter fun y => cmp x y == .eq
    rw [List.filter_filter] at hfilter
    simp only [Bool.and_self] at hfilter
    exact (hfilter.eq_of_length hperm.length_eq.symm).symm

/-- Sorted lists without moves between them are equal. -/
theorem eq_of_pairwise (h : StablePerm cmp l l')
    (hl : l.Pairwise fun a b => (cmp a b).isLE = true)
    (hl' : l'.Pairwise fun a b => (cmp a b).isLE = true) : l = l' := by
  induction l generalizing l' with
  | nil => exact h.perm.nil_eq
  | cons a l ih =>
    cases l' with
    | nil => exact h.perm.eq_nil
    | cons b l' =>
      rw [List.pairwise_cons] at hl hl'
      -- each head is in the other list, so neither comes before the other
      have hle : (cmp a b).isLE = true := by
        rcases List.mem_cons.1 (h.perm.mem_iff.2 List.mem_cons_self) with rfl | hb
        · exact Std.ReflCmp.isLE_rfl
        · exact hl.1 b hb
      have hge : (cmp b a).isLE = true := by
        rcases List.mem_cons.1 (h.perm.mem_iff.1 List.mem_cons_self) with rfl | ha
        · exact Std.ReflCmp.isLE_rfl
        · exact hl'.1 a ha
      have hab : cmp a b = .eq := Std.OrientedCmp.isLE_antisymm hle hge
      have hheads := h.filter_eq a
      simp only [List.filter_cons, Std.ReflCmp.compare_self, hab, BEq.rfl, ↓reduceIte,
        List.cons.injEq] at hheads
      obtain ⟨rfl, -⟩ := hheads
      refine congrArg _ (ih ⟨h.perm.cons_inv, fun x => ?_⟩ hl.2 hl'.2)
      have htails := h.filter_eq x
      rw [List.filter_cons, List.filter_cons] at htails
      split at htails
      · exact (List.cons.inj htails).2
      · exact htails

end StablePerm

end OwlStructure
