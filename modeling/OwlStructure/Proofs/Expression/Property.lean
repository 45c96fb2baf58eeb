import OwlStructure.Expression.Property

/-!
Simplified expressions. Only the property at the core and the parity of the inverses around it
matter, so simplification and inversion can be done in any order.
-/
namespace OwlStructure.ObjectPropertyExpression

variable {p q : ObjectPropertyExpression}

theorem simplified_eq_iff :
    p.simplified = q.simplified ↔
      p.namedProperty = q.namedProperty ∧ p.inversions % 2 = q.inversions % 2 := by
  unfold simplified
  rcases Nat.mod_two_eq_zero_or_one p.inversions with hp | hp <;>
    rcases Nat.mod_two_eq_zero_or_one q.inversions with hq | hq <;> simp [hp, hq]

@[simp] theorem namedProperty_simplified (p : ObjectPropertyExpression) :
    p.simplified.namedProperty = p.namedProperty := by
  unfold simplified
  split <;> rfl

theorem inversions_simplified (p : ObjectPropertyExpression) :
    p.simplified.inversions = p.inversions % 2 := by
  unfold simplified
  split
  · next h => exact h.symm
  · next h => exact (Nat.mod_two_ne_zero.1 h).symm

@[simp] theorem simplified_simplified (p : ObjectPropertyExpression) :
    p.simplified.simplified = p.simplified := by
  rw [simplified_eq_iff, inversions_simplified, Nat.mod_mod]
  exact ⟨namedProperty_simplified p, rfl⟩

/-- At most one inverse stands around the property of a simplified expression. -/
theorem eq_named_or_inverse (h : p.simplified = p) :
    p = .named p.namedProperty ∨ p = .inverse (.named p.namedProperty) := by
  unfold simplified at h
  split at h
  · exact .inl h.symm
  · exact .inr h.symm

theorem inversions_le_one (h : p.simplified = p) : p.inversions ≤ 1 := by
  have hparity := inversions_simplified p
  rw [h] at hparity
  omega

/-- Expressions with one simplified form have inverses with one simplified form. -/
theorem inverseSimplified_congr (h : p.simplified = q.simplified) :
    p.inverseSimplified = q.inverseSimplified := by
  obtain ⟨hname, hparity⟩ := simplified_eq_iff.1 h
  refine simplified_eq_iff.2 ⟨hname, ?_⟩
  simp only [inversions]
  omega

@[simp] theorem inverseSimplified_simplified (p : ObjectPropertyExpression) :
    p.simplified.inverseSimplified = p.inverseSimplified :=
  inverseSimplified_congr (simplified_simplified p)

@[simp] theorem simplified_inverseSimplified (p : ObjectPropertyExpression) :
    p.inverseSimplified.simplified = p.inverseSimplified := simplified_simplified (inverse p)

@[simp] theorem inverseSimplified_inverse (p : ObjectPropertyExpression) :
    (inverse p).inverseSimplified = p.simplified := simplified_inverse_inverse p

@[simp] theorem inverseSimplified_inverseSimplified (p : ObjectPropertyExpression) :
    p.inverseSimplified.inverseSimplified = p.simplified :=
  (inverseSimplified_simplified (inverse p)).trans (inverseSimplified_inverse p)

theorem namedProperty_eq_of_simplified_eq (h : p.simplified = q.simplified) :
    p.namedProperty = q.namedProperty := (simplified_eq_iff.1 h).1

/-- Two expressions over one name are the same up to simplification, or inverse to each other. -/
theorem simplified_eq_or_inverse (h : p.namedProperty = q.namedProperty) :
    p.simplified = q.simplified ∨ p.simplified = q.inverseSimplified := by
  have hinverse : q.inverseSimplified = (inverse q).simplified := rfl
  rw [hinverse, simplified_eq_iff, simplified_eq_iff]
  simp only [inversions, namedProperty, h, true_and]
  omega

end OwlStructure.ObjectPropertyExpression
