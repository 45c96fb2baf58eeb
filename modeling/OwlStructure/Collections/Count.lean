/-!
Counting the members of a list that have a property, as a measure of what is left to do.
-/
namespace OwlStructure

variable {α : Type u} {p q : α → Bool} {l : List α}

theorem countP_le_of_imp (h : ∀ x ∈ l, q x = true → p x = true) : l.countP q ≤ l.countP p :=
  List.countP_mono_left h

/-- Fewer members have a stronger property if some member has only the weaker one. -/
theorem countP_lt_of_imp {a : α} (h : ∀ x ∈ l, q x = true → p x = true) (ha : a ∈ l)
    (hp : p a = true) (hq : q a = false) : l.countP q < l.countP p := by
  induction l with
  | nil => cases ha
  | cons b l ih =>
    have hl : ∀ x ∈ l, q x = true → p x = true := fun x hx => h x (List.mem_cons_of_mem _ hx)
    rcases List.mem_cons.1 ha with rfl | ha
    · have := countP_le_of_imp hl
      simp only [List.countP_cons, hp, hq]
      simp only [Bool.false_eq_true, if_false, if_true]
      omega
    · have := ih hl ha
      have hb := h b List.mem_cons_self
      simp only [List.countP_cons]
      cases hqb : q b
      · simp only [Bool.false_eq_true, if_false]
        omega
      · simp only [hb hqb, if_true]
        omega

end OwlStructure
