import Mathlib.Logic.Relation
import Mathlib.Tactic.Tauto
import OwlStructure.Collections.Reachability
import OwlStructure.Proofs.Collections.SortedMap

/-!
Maps as sets of arrows, and the search along them. The search finds exactly what the
reflexive-transitive closure of the arrows relates to the start, on graphs with any cycles.
-/
namespace OwlStructure.SortedMap

open Relation

variable {κ : Type u} [Keyed κ] {m : SortedMap κ (SortedSet κ)}

/-- A map has an arrow from a key to a value. -/
def Leads (m : SortedMap κ (SortedSet κ)) (k x : κ) : Prop := x ∈ m.next k

theorem leads_iff {k x : κ} : m.Leads k x ↔ ∃ s, m.find? k = some s ∧ x ∈ s := by
  unfold Leads next
  cases m.find? k <;> simp

/-- No key has an empty set of values. -/
def NoneEmpty (m : SortedMap κ (SortedSet κ)) : Prop := ∀ k s, m.find? k = some s → ∃ x, x ∈ s

theorem NoneEmpty.mem_keys_iff (h : m.NoneEmpty) {k : κ} : k ∈ m.keys ↔ ∃ x, m.Leads k x := by
  rw [SortedMap.mem_keys_iff]
  constructor
  · rintro ⟨s, hs⟩
    obtain ⟨x, hx⟩ := h k s hs
    exact ⟨x, leads_iff.2 ⟨s, hs, hx⟩⟩
  · rintro ⟨x, hx⟩
    obtain ⟨s, hs, _⟩ := leads_iff.1 hx
    exact ⟨s, hs⟩

/-- Maps without empty entries that lead to the same values are equal. -/
theorem NoneEmpty.ext {m' : SortedMap κ (SortedSet κ)} (h : m.NoneEmpty) (h' : m'.NoneEmpty)
    (hleads : ∀ k x, m.Leads k x ↔ m'.Leads k x) : m = m' := by
  have hkeys (k : κ) : k ∈ m.keys ↔ k ∈ m'.keys := by
    rw [h.mem_keys_iff, h'.mem_keys_iff]
    exact exists_congr (hleads k)
  have hnext (k : κ) : m.next k = m'.next k := SortedSet.ext (hleads k)
  refine ext_find? fun k => ?_
  by_cases hk : k ∈ m.keys
  · obtain ⟨s, hs⟩ := SortedMap.mem_keys_iff.1 hk
    obtain ⟨s', hs'⟩ := SortedMap.mem_keys_iff.1 ((hkeys k).1 hk)
    have hsets := hnext k
    rw [next, next, hs, hs'] at hsets
    rw [hs, hs']
    exact congrArg some hsets
  · rw [find?_eq_none_iff.2 hk, find?_eq_none_iff.2 (mt (hkeys k).2 hk)]

theorem noneEmpty_empty : NoneEmpty (∅ : SortedMap κ (SortedSet κ)) := by
  intro k s hs
  cases hs

theorem find?_addArrow {k x j : κ} :
    (m.addArrow k x).find? j =
      if compare j k = .eq then some ((m.next k).insert x) else m.find? j := find?_alter

theorem leads_addArrow {k x j y : κ} :
    (m.addArrow k x).Leads j y ↔ (j = k ∧ y = x) ∨ m.Leads j y := by
  rw [leads_iff, find?_addArrow]
  by_cases h : j = k
  · subst h
    simp [Leads]
  · simp [h, leads_iff]

theorem NoneEmpty.addArrow (h : m.NoneEmpty) (k x : κ) : (m.addArrow k x).NoneEmpty := by
  intro j s hs
  rw [find?_addArrow] at hs
  split at hs
  · cases hs
    exact ⟨x, SortedSet.mem_insert.2 (.inl rfl)⟩
  · exact h j s hs

theorem leads_foldl_addArrow (arrows : List (κ × κ)) {j y : κ} :
    (arrows.foldl (fun m a => m.addArrow a.1 a.2) m).Leads j y ↔
      (j, y) ∈ arrows ∨ m.Leads j y := by
  induction arrows generalizing m with
  | nil => simp
  | cons a arrows ih =>
    rw [List.foldl_cons, ih, leads_addArrow, List.mem_cons, Prod.ext_iff]
    tauto

theorem NoneEmpty.foldl_addArrow (h : m.NoneEmpty) (arrows : List (κ × κ)) :
    (arrows.foldl (fun m a => m.addArrow a.1 a.2) m).NoneEmpty := by
  induction arrows generalizing m with
  | nil => exact h
  | cons a arrows ih => exact ih (h.addArrow a.1 a.2)

theorem leads_ofArrows {arrows : List (κ × κ)} {j y : κ} :
    (ofArrows arrows).Leads j y ↔ (j, y) ∈ arrows := by
  rw [ofArrows, leads_foldl_addArrow, leads_iff]
  simp

/-! ### The search -/

/-- Visiting the first pending key loses none. -/
theorem carried {visited : SortedSet κ} {k x : κ} {rest : List κ}
    (h : x ∈ visited ∨ x ∈ k :: rest) : x ∈ visited.insert k ∨ x ∈ rest := by
  rw [SortedSet.mem_insert]
  rw [List.mem_cons] at h
  tauto

theorem carried_of_mem {visited : SortedSet κ} {k x : κ} {rest : List κ} (hk : k ∈ visited)
    (h : x ∈ visited ∨ x ∈ k :: rest) : x ∈ visited ∨ x ∈ rest := by
  rcases carried h with h | h
  · rcases SortedSet.mem_insert.1 h with rfl | h
    · exact .inl hk
    · exact .inl h
  · exact .inr h

theorem mem_visit_of_mem {pending : List κ} {visited : SortedSet κ} {x : κ}
    (h : x ∈ visited ∨ x ∈ pending) : x ∈ m.visit pending visited := by
  fun_induction visit m pending visited with
  | case1 visited => simpa using h
  | case2 visited k rest hk ih => exact ih (carried_of_mem hk h)
  | case3 visited k rest _ _ ih => exact ih (carried h)
  | case4 visited k rest _ s _ ih =>
    exact ih ((carried h).imp_right (List.mem_append_right _))

/-- Only what was visited, and what the pending keys lead to, is visited. -/
theorem exists_path_of_mem_visit {pending : List κ} {visited : SortedSet κ} {x : κ}
    (h : x ∈ m.visit pending visited) :
    x ∈ visited ∨ ∃ k ∈ pending, ReflTransGen m.Leads k x := by
  fun_induction visit m pending visited with
  | case1 visited => exact .inl h
  | case2 visited k rest hk ih =>
    rcases ih h with h | ⟨j, hj, hp⟩
    · exact .inl h
    · exact .inr ⟨j, List.mem_cons_of_mem _ hj, hp⟩
  | case3 visited k rest _ _ ih =>
    rcases ih h with h | ⟨j, hj, hp⟩
    · rcases SortedSet.mem_insert.1 h with rfl | h
      · exact .inr ⟨x, List.mem_cons_self, .refl⟩
      · exact .inl h
    · exact .inr ⟨j, List.mem_cons_of_mem _ hj, hp⟩
  | case4 visited k rest _ s hs ih =>
    rcases ih h with h | ⟨j, hj, hp⟩
    · rcases SortedSet.mem_insert.1 h with rfl | h
      · exact .inr ⟨x, List.mem_cons_self, .refl⟩
      · exact .inl h
    · rcases List.mem_append.1 hj with hj | hj
      · exact .inr ⟨k, List.mem_cons_self, .head (leads_iff.2 ⟨s, hs, hj⟩) hp⟩
      · exact .inr ⟨j, List.mem_cons_of_mem _ hj, hp⟩

/-- While whatever the visited keys lead to is visited or pending, the search ends in a set that
nothing leads out of. -/
theorem visit_closed {pending : List κ} {visited : SortedSet κ}
    (h : ∀ k ∈ visited, ∀ x, m.Leads k x → x ∈ visited ∨ x ∈ pending) :
    ∀ k ∈ m.visit pending visited, ∀ x, m.Leads k x → x ∈ m.visit pending visited := by
  fun_induction visit m pending visited with
  | case1 visited => simpa using h
  | case2 visited k rest hk ih =>
    apply ih
    intro j hj x hx
    exact carried_of_mem hk (h j hj x hx)
  | case3 visited k rest _ hs ih =>
    apply ih
    intro j hj x hx
    rcases SortedSet.mem_insert.1 hj with rfl | hj
    · obtain ⟨s, hs', _⟩ := leads_iff.1 hx
      rw [hs] at hs'
      cases hs'
    · exact carried (h j hj x hx)
  | case4 visited k rest _ s hs ih =>
    apply ih
    intro j hj x hx
    rcases SortedSet.mem_insert.1 hj with rfl | hj
    · obtain ⟨s', hs', hm⟩ := leads_iff.1 hx
      rw [hs] at hs'
      cases hs'
      exact .inr (List.mem_append_left _ hm)
    · exact (carried (h j hj x hx)).imp_right (List.mem_append_right _)

theorem mem_reachable_iff {start x : κ} :
    x ∈ m.reachable start ↔ ReflTransGen m.Leads start x := by
  unfold reachable
  constructor
  · intro h
    rcases exists_path_of_mem_visit h with h | ⟨k, hk, hp⟩
    · exact absurd h (SortedSet.not_mem_empty x)
    · rwa [List.mem_singleton.1 hk] at hp
  · intro h
    induction h with
    | refl => exact mem_visit_of_mem (.inr (List.mem_singleton.2 rfl))
    | tail _ hstep ih =>
      exact visit_closed (fun k hk => absurd hk (SortedSet.not_mem_empty k)) _ ih _ hstep

end OwlStructure.SortedMap
