import OwlStructure.Proofs.Expression.Property

/-!
Towers of inverses. Taking the inverses off one at a time finds the property at the core and their
number; of the number only the parity is left by simplification. Up to simplification, inversion
is an involution that moves every expression.
-/
namespace OwlStructure.ObjectPropertyExpression

/-- Takes the inverses off from the outside and counts them, on from a number. -/
def unwind (count : Nat) : ObjectPropertyExpression → Nat × ObjectProperty
  | .named p => (count, p)
  | .inverse e => e.unwind (count + 1)

/-- The property, or an inverse of it if the number that goes with it is odd. -/
def ofParity (found : Nat × ObjectProperty) : ObjectPropertyExpression :=
  if found.1 % 2 = 0 then .named found.2 else .inverse (.named found.2)

/-- Each turn takes one inverse from the tower to the count. -/
theorem unwind_eq (e : ObjectPropertyExpression) (count : Nat) :
    e.unwind count = (count + e.inversions, e.namedProperty) := by
  induction e generalizing count with
  | named p => rfl
  | inverse e ih =>
    have hcount : count + 1 + e.inversions = count + (e.inversions + 1) := by omega
    rw [unwind, ih, hcount]
    rfl

theorem simplified_eq_ofParity (e : ObjectPropertyExpression) :
    e.simplified = ofParity (e.unwind 0) := by
  rw [unwind_eq, Nat.zero_add]
  rfl

/-- One more inverse changes the parity. -/
theorem inverseSimplified_ne_simplified (e : ObjectPropertyExpression) :
    e.inverseSimplified ≠ e.simplified := by
  intro h
  have hparity : (e.inversions + 1) % 2 = e.inversions % 2 := (simplified_eq_iff.1 h).2
  omega

/-- Simplification unwinds a tower and leaves one inverse at most. It keeps the property and the
parity of the inverses, and nothing else, so it does nothing a second time. The simplified inverse
comes out the same whether an expression is inverted first or simplified first; it is never the
simplified expression itself, and its own simplified inverse is. -/
theorem simplified_keeps_parity (e f : ObjectPropertyExpression) :
    e.simplified = ofParity (e.unwind 0) ∧
    e.simplified.inversions ≤ 1 ∧
    (e.simplified = f.simplified ↔
      e.namedProperty = f.namedProperty ∧ e.inversions % 2 = f.inversions % 2) ∧
    e.simplified.simplified = e.simplified ∧
    e.simplified.namedProperty = e.namedProperty ∧
    e.inverseSimplified = (inverse e).simplified ∧
    e.simplified.inverseSimplified = e.inverseSimplified ∧
    e.inverseSimplified ≠ e.simplified ∧
    e.inverseSimplified.inverseSimplified = e.simplified := by
  have hidempotent := simplified_simplified e
  refine ⟨simplified_eq_ofParity e, inversions_le_one hidempotent, simplified_eq_iff, hidempotent,
    namedProperty_simplified e, rfl, inverseSimplified_simplified e, ?_, ?_⟩
  · exact inverseSimplified_ne_simplified e
  · exact inverseSimplified_inverseSimplified e

end OwlStructure.ObjectPropertyExpression
