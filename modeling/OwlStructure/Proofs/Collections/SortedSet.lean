import Mathlib.Data.Finset.Card
import OwlStructure.Collections.SortedSet

/-! Sorted sets as lists without repetition. -/
namespace OwlStructure.SortedSet

variable {α : Type u} {β : Type v} [Keyed α] [Keyed β]

theorem nodup_toList (s : SortedSet α) : s.toList.Nodup := s.sorted.imp Before.ne

theorem toList_perm {s : SortedSet α} {l : List α} (hl : l.Nodup) (h : ∀ x, x ∈ s ↔ x ∈ l) :
    s.toList.Perm l := (List.perm_ext_iff_of_nodup s.nodup_toList hl).2 h

theorem toList_insert_perm {s : SortedSet α} {a : α} (h : a ∉ s) :
    (s.insert a).toList.Perm (a :: s.toList) := by
  refine toList_perm (List.nodup_cons.2 ⟨h, s.nodup_toList⟩) fun x => ?_
  rw [mem_insert, List.mem_cons, mem_toList]

theorem toList_ofList_perm [DecidableEq α] (l : List α) : (ofList l).toList.Perm l.dedup :=
  toList_perm l.nodup_dedup fun x => by rw [mem_ofList, List.mem_dedup]

theorem size_ofList [DecidableEq α] (l : List α) : (ofList l).size = l.dedup.length :=
  (toList_ofList_perm l).length_eq

theorem toList_ofList_of_sorted {l : List α} (h : l.Pairwise Before) : (ofList l).toList = l :=
  sorted_unique (ofList l).sorted h fun _ => mem_ofList

/-- A sorted set has as many members as the finite set with the same members. -/
theorem size_eq_card [DecidableEq α] {s : SortedSet α} {t : Finset α} (h : ∀ x, x ∈ s ↔ x ∈ t) :
    s.size = t.card := by
  rw [size, ← List.toFinset_card_of_nodup s.nodup_toList]
  congr 1
  ext x
  rw [List.mem_toFinset]
  exact h x

theorem exists_ne {s : SortedSet α} (h : 2 ≤ s.size) : ∃ x ∈ s, ∃ y ∈ s, x ≠ y := by
  classical
  have hcard : s.size = s.toList.toFinset.card :=
    size_eq_card fun x => by rw [List.mem_toFinset, mem_toList]
  obtain ⟨x, hx, y, hy, hne⟩ := Finset.one_lt_card.1 (hcard ▸ h)
  exact ⟨x, mem_toList.1 (List.mem_toFinset.1 hx), y, mem_toList.1 (List.mem_toFinset.1 hy), hne⟩

/-! ### Images -/

theorem isEmpty_iff {s : SortedSet α} : s.isEmpty = true ↔ ∀ a, a ∉ s := by
  rw [isEmpty, List.isEmpty_iff, List.eq_nil_iff_forall_not_mem]
  rfl

theorem isEmpty_map (s : SortedSet α) (f : α → β) : (s.map f).isEmpty = s.isEmpty := by
  refine Bool.eq_iff_iff.2 ?_
  simp only [isEmpty_iff, mem_map]
  constructor
  · exact fun h a ha => h (f a) ⟨a, ha, rfl⟩
  · rintro h _ ⟨a, ha, rfl⟩
    exact h a ha

theorem map_eq_self {s : SortedSet α} {f : α → α} (h : ∀ a ∈ s, f a = a) : s.map f = s := by
  refine ext fun a => mem_map.trans ⟨?_, fun ha => ⟨a, ha, h a ha⟩⟩
  rintro ⟨b, hb, rfl⟩
  rwa [h b hb]

end OwlStructure.SortedSet
