import Mathlib.Data.List.Basic
import Mathlib.Data.List.Induction
import OwlStructure.Collections.Distinct

/-!
Where values come first. Appending only new values keeps the order in which the values come first,
and in a list of blocks the order of first places is read off the first block of each value.
-/
namespace OwlStructure

theorem pairwise_idxOf_foldl_appendNew [DecidableEq α] (l : List α) :
    (l.foldl appendNew []).Pairwise fun a b => l.idxOf a < l.idxOf b := by
  induction l using List.reverseRecOn with
  | nil => exact .nil
  | append_singleton l a ih =>
    have hmem {x : α} (hx : x ∈ l.foldl appendNew []) : (l ++ [a]).idxOf x = l.idxOf x := by
      rw [mem_foldl_appendNew] at hx
      exact List.idxOf_append_of_mem (hx.resolve_left List.not_mem_nil)
    have hold : (l.foldl appendNew []).Pairwise fun x y =>
        (l ++ [a]).idxOf x < (l ++ [a]).idxOf y :=
      ih.imp_of_mem fun hx hy h => by rwa [hmem hx, hmem hy]
    rw [List.foldl_append, List.foldl_cons, List.foldl_nil, appendNew]
    split
    · exact hold
    · next hnew =>
      rw [mem_foldl_appendNew, not_or] at hnew
      refine List.pairwise_append.2 ⟨hold, List.pairwise_singleton _ _, fun x hx y hy => ?_⟩
      obtain rfl := List.mem_singleton.1 hy
      rw [hmem hx, List.idxOf_append_of_notMem hnew.2]
      rw [mem_foldl_appendNew] at hx
      have hlt := List.idxOf_lt_length_of_mem (hx.resolve_left List.not_mem_nil)
      omega

theorem rel_of_idxOf_lt [DecidableEq α] {R : α → α → Prop} {l : List α} {a b : α}
    (h : l.Pairwise R) (hb : b ∈ l) (hlt : l.idxOf a < l.idxOf b) : R a b := by
  have hbl := List.idxOf_lt_length_of_mem hb
  have hab := List.pairwise_iff_getElem.1 h _ _ (Nat.lt_trans hlt hbl) hbl hlt
  rwa [List.getElem_idxOf, List.getElem_idxOf] at hab

/-! ### Blocks -/

section Blocks

variable {α : Type u} {β : Type v} [DecidableEq β]

/-- The first key whose block holds a value. -/
def firstBlock (f : α → List β) (xs : List α) (b : β) : Option α :=
  xs.find? fun x => decide (b ∈ f x)

variable {f : α → List β} {x p : α} {xs : List α} {b s t : β}

theorem firstBlock_cons_of_mem (h : b ∈ f x) : firstBlock f (x :: xs) b = some x :=
  List.find?_cons_of_pos (decide_eq_true h)

theorem firstBlock_cons_of_not_mem (h : b ∉ f x) : firstBlock f (x :: xs) b = firstBlock f xs b :=
  List.find?_cons_of_neg fun hb => h (of_decide_eq_true hb)

theorem mem_of_firstBlock (h : firstBlock f xs b = some p) : p ∈ xs ∧ b ∈ f p := by
  unfold firstBlock at h
  have hb := List.find?_some h
  exact ⟨List.mem_of_find?_eq_some h, of_decide_eq_true hb⟩

theorem exists_firstBlock (h : b ∈ xs.flatMap f) : ∃ p, firstBlock f xs b = some p := by
  obtain ⟨x, hx, hb⟩ := List.mem_flatMap.1 h
  exact Option.isSome_iff_exists.1 (List.find?_isSome.2 ⟨x, hx, decide_eq_true hb⟩)

variable [DecidableEq α]

theorem idxOf_firstBlock_le (h : firstBlock f xs b = some p) (hb : b ∈ f x) :
    xs.idxOf p ≤ xs.idxOf x := by
  induction xs with
  | nil => cases h
  | cons y xs ih =>
    by_cases hy : b ∈ f y
    · rw [firstBlock_cons_of_mem hy] at h
      rw [List.idxOf_cons_eq xs (Option.some.inj h)]
      exact Nat.zero_le _
    · rw [firstBlock_cons_of_not_mem hy] at h
      have hp : y ≠ p := fun he => hy (he ▸ (mem_of_firstBlock h).2)
      have hx : y ≠ x := fun he => hy (he ▸ hb)
      rw [List.idxOf_cons_ne xs hp, List.idxOf_cons_ne xs hx]
      exact Nat.succ_le_succ (ih h)

/-- One value is before another: its first block is earlier, or it has the earlier place in their
common first block. -/
def FirstBefore (f : α → List β) (xs : List α) (s t : β) : Prop :=
  ∃ p q, firstBlock f xs s = some p ∧ firstBlock f xs t = some q ∧
    (xs.idxOf p < xs.idxOf q ∨ p = q ∧ (f p).idxOf s < (f p).idxOf t)

theorem FirstBefore.cons (h : FirstBefore f xs s t) (hs : s ∉ f x) (ht : t ∉ f x) :
    FirstBefore f (x :: xs) s t := by
  obtain ⟨p, q, hp, hq, hlt⟩ := h
  have hxp : x ≠ p := fun he => hs (he ▸ (mem_of_firstBlock hp).2)
  have hxq : x ≠ q := fun he => ht (he ▸ (mem_of_firstBlock hq).2)
  refine ⟨p, q, (firstBlock_cons_of_not_mem hs).trans hp, (firstBlock_cons_of_not_mem ht).trans hq,
    hlt.imp_left fun hlt => ?_⟩
  rw [List.idxOf_cons_ne xs hxp, List.idxOf_cons_ne xs hxq]
  exact Nat.succ_lt_succ hlt

theorem FirstBefore.of_idxOf_lt (ht : t ∈ xs.flatMap f)
    (h : (xs.flatMap f).idxOf s < (xs.flatMap f).idxOf t) : FirstBefore f xs s t := by
  induction xs with
  | nil => cases ht
  | cons x xs ih =>
    rw [List.flatMap_cons] at ht h
    by_cases hs' : s ∈ f x
    · by_cases ht' : t ∈ f x
      · rw [List.idxOf_append_of_mem hs', List.idxOf_append_of_mem ht'] at h
        exact ⟨x, x, firstBlock_cons_of_mem hs', firstBlock_cons_of_mem ht', .inr ⟨rfl, h⟩⟩
      · obtain ⟨q, hq⟩ := exists_firstBlock ((List.mem_append.1 ht).resolve_left ht')
        have hxq : x ≠ q := fun he => ht' (he ▸ (mem_of_firstBlock hq).2)
        refine ⟨x, q, firstBlock_cons_of_mem hs', (firstBlock_cons_of_not_mem ht').trans hq,
          .inl ?_⟩
        rw [List.idxOf_cons_eq xs rfl, List.idxOf_cons_ne xs hxq]
        exact Nat.succ_pos _
    · rw [List.idxOf_append_of_notMem hs'] at h
      by_cases ht' : t ∈ f x
      · rw [List.idxOf_append_of_mem ht'] at h
        have hlt := List.idxOf_lt_length_of_mem ht'
        omega
      · rw [List.idxOf_append_of_notMem ht', Nat.add_lt_add_iff_left] at h
        exact (ih ((List.mem_append.1 ht).resolve_left ht') h).cons hs' ht'

end Blocks

end OwlStructure
