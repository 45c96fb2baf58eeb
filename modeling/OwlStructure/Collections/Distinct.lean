/-!
Lists without repetition that grow at their end.
-/
namespace OwlStructure

variable {α : Type u} [DecidableEq α] {l as : List α} {a x : α}

/-- Puts a value at the end of a list, unless it is there. -/
def appendNew (l : List α) (a : α) : List α := if a ∈ l then l else l ++ [a]

theorem mem_appendNew : x ∈ appendNew l a ↔ x ∈ l ∨ x = a := by
  unfold appendNew
  split
  · next h =>
    constructor
    · exact .inl
    · rintro (hx | rfl)
      · exact hx
      · exact h
  · rw [List.mem_append, List.mem_singleton]

theorem sublist_appendNew (l : List α) (a : α) : l.Sublist (appendNew l a) := by
  unfold appendNew
  split
  · exact .refl l
  · exact List.sublist_append_left l [a]

theorem nodup_appendNew (h : l.Nodup) : (appendNew l a).Nodup := by
  unfold appendNew
  split
  · exact h
  · next ha =>
    refine List.nodup_append.2 ⟨h, by simp, ?_⟩
    rintro x hx y hy rfl
    exact ha (List.mem_singleton.1 hy ▸ hx)

theorem mem_foldl_appendNew : x ∈ as.foldl appendNew l ↔ x ∈ l ∨ x ∈ as := by
  induction as generalizing l with
  | nil => simp
  | cons a as ih => rw [List.foldl_cons, ih, mem_appendNew, List.mem_cons, or_assoc]

theorem nodup_foldl_appendNew (h : l.Nodup) : (as.foldl appendNew l).Nodup := by
  induction as generalizing l with
  | nil => exact h
  | cons a as ih => exact ih (nodup_appendNew h)

/-- Values that are new and different all stand at the end. -/
theorem foldl_appendNew (h : (l ++ as).Nodup) : as.foldl appendNew l = l ++ as := by
  induction as generalizing l with
  | nil => rw [List.append_nil]; rfl
  | cons a as ih =>
    have ha : a ∉ l := fun hm => (List.nodup_append.1 h).2.2 a hm a List.mem_cons_self rfl
    rw [List.append_cons] at h
    rw [List.foldl_cons, appendNew, if_neg ha, ih h, List.append_assoc, List.singleton_append]

end OwlStructure
