import Mathlib.Data.Finset.Card

/-!
Lists whose elements are moved to the front, one after the other. In front of an element stand those
that were moved after it, each once; so whether it is among the first few is a matter of their
number. What comes behind the first few never matters to which elements these are.
-/
namespace OwlStructure

universe u

variable {γ : Type u} [DecidableEq γ] {x o : γ} {l before rest xs : List γ}

/-- An element in front of all others. -/
def moveToFront (l : List γ) (x : γ) : List γ := x :: l.filter fun y => decide (y ≠ x)

theorem nodup_moveToFront (h : l.Nodup) (x : γ) : (moveToFront l x).Nodup :=
  List.nodup_cons.2 ⟨by simp, h.filter _⟩

/-- What stands behind the first elements has no part in which come first next. -/
theorem take_moveToFront (h : l.Nodup) (room : Nat) (x : γ) :
    (moveToFront (l.take room) x).take room = (moveToFront l x).take room := by
  cases room with
  | zero => rfl
  | succ n =>
    simp only [moveToFront, List.take_succ_cons, List.cons.injEq, true_and]
    induction l generalizing n with
    | nil => simp
    | cons y l ih =>
      obtain ⟨hy, hl⟩ := List.nodup_cons.1 h
      rw [List.take_succ_cons]
      by_cases hyx : y = x
      · subst hyx
        have hall (l' : List γ) (hsub : l' ⊆ l) : (l'.filter fun z => decide (z ≠ y)) = l' :=
          List.filter_eq_self.2 fun z hz => decide_eq_true fun he => hy (he ▸ hsub hz)
        rw [List.filter_cons_of_neg (by simp), List.filter_cons_of_neg (by simp),
          hall _ (List.take_subset n l), hall l (List.Subset.refl l), List.take_take, Nat.min_self]
      · rw [List.filter_cons_of_pos (by simpa using hyx),
          List.filter_cons_of_pos (by simpa using hyx)]
        cases n with
        | zero => rfl
        | succ n => rw [List.take_succ_cons, List.take_succ_cons, ih hl]

theorem moveToFront_append (h : x ≠ o) :
    moveToFront (before ++ o :: rest) x =
      moveToFront before x ++ o :: rest.filter fun y => decide (y ≠ x) := by
  simp [moveToFront, h.symm]

/-- In front of an element that is not moved itself stand those that were there or were moved. -/
theorem exists_foldl_moveToFront (hbefore : before.Nodup) (ho : o ∉ before) (hxs : o ∉ xs)
    (rest : List γ) :
    ∃ before' rest', xs.foldl moveToFront (before ++ o :: rest) = before' ++ o :: rest' ∧
      before'.Nodup ∧ o ∉ before' ∧ ∀ y, y ∈ before' ↔ y ∈ before ∨ y ∈ xs := by
  induction xs generalizing before rest with
  | nil => exact ⟨before, rest, rfl, hbefore, ho, by simp⟩
  | cons x xs ih =>
    obtain ⟨hne, hxs⟩ := List.ne_and_not_mem_of_not_mem_cons hxs
    have ho' : o ∉ moveToFront before x := by simp [moveToFront, hne, ho]
    obtain ⟨before', rest', heq, hnodup, hnot, hmem⟩ :=
      ih (nodup_moveToFront hbefore x) ho' hxs (rest.filter fun y => decide (y ≠ x))
    refine ⟨before', rest', ?_, hnodup, hnot, fun y => ?_⟩
    · rw [List.foldl_cons, moveToFront_append hne.symm, heq]
    · rw [hmem, List.mem_cons]
      by_cases hy : y = x <;> simp [moveToFront, hy]

omit [DecidableEq γ] in
theorem mem_take_append_cons (h : o ∉ before) (room : Nat) :
    o ∈ (before ++ o :: rest).take room ↔ before.length < room := by
  rw [List.take_append, List.mem_append]
  constructor
  · rintro (hm | hm)
    · exact absurd (List.mem_of_mem_take hm) h
    · by_contra hge
      rw [Nat.sub_eq_zero_of_le (Nat.not_lt.1 hge)] at hm
      cases hm
  · intro hlt
    obtain ⟨n, hn⟩ : ∃ n, room - before.length = n + 1 := ⟨room - before.length - 1, by omega⟩
    rw [hn, List.take_succ_cons]
    exact .inr List.mem_cons_self

/-- An element is among the first ones as long as fewer others than these were moved after it. -/
theorem mem_take_foldl_moveToFront (hxs : o ∉ xs) (l : List γ) (room : Nat) :
    o ∈ (xs.foldl moveToFront (moveToFront l o)).take room ↔ xs.toFinset.card < room := by
  obtain ⟨before, rest, heq, hnodup, hnot, hmem⟩ :=
    exists_foldl_moveToFront List.nodup_nil List.not_mem_nil hxs
      (l.filter fun y => decide (y ≠ o))
  have hset : before.toFinset = xs.toFinset := by
    ext y
    simp [hmem]
  rw [← hset, List.toFinset_card_of_nodup hnodup, ← mem_take_append_cons hnot room, ← heq]
  rfl

end OwlStructure
