import OwlStructure.Entity

/-!
Object property expressions: a named property under any number of inverses. Only the parity of that
number matters: `simplified` keeps at most one inverse.
-/
namespace OwlStructure

inductive ObjectPropertyExpression where
  | named (p : ObjectProperty)
  | inverse (e : ObjectPropertyExpression)
  deriving DecidableEq, Repr

namespace ObjectPropertyExpression

/-- The property at the core. -/
def namedProperty : ObjectPropertyExpression → ObjectProperty
  | .named p => p
  | .inverse e => e.namedProperty

/-- How many inverses stand around the core. -/
def inversions : ObjectPropertyExpression → Nat
  | .named _ => 0
  | .inverse e => e.inversions + 1

/-- The named property or a single inverse of it. -/
def simplified (e : ObjectPropertyExpression) : ObjectPropertyExpression :=
  if e.inversions % 2 = 0 then .named e.namedProperty else .inverse (.named e.namedProperty)

def inverseSimplified (e : ObjectPropertyExpression) : ObjectPropertyExpression :=
  (inverse e).simplified

/-- Two inverses cancel. -/
theorem simplified_inverse_inverse (e : ObjectPropertyExpression) :
    (inverse (inverse e)).simplified = e.simplified := by
  unfold simplified
  simp only [inversions, namedProperty, Nat.add_assoc, Nat.add_mod_right]

/-- The expression under `n` further inverses. -/
def inverted (e : ObjectPropertyExpression) : Nat → ObjectPropertyExpression
  | 0 => e
  | n + 1 => .inverse (e.inverted n)

def asNamed? : ObjectPropertyExpression → Option ObjectProperty
  | .named p => some p
  | .inverse _ => none

def isInverse : ObjectPropertyExpression → Bool
  | .named _ => false
  | .inverse _ => true

/-- The named top property; no inverse of it counts. -/
def isTop (e : ObjectPropertyExpression) : Bool := e.asNamed?.any ObjectProperty.isTop

/-- The named bottom property; no inverse of it counts. -/
def isBottom (e : ObjectPropertyExpression) : Bool := e.asNamed?.any ObjectProperty.isBottom

/-- The entity at the core. -/
def entity (e : ObjectPropertyExpression) : Entity := .objectProperty e.namedProperty

/-- The property as an entity, unless an inverse stands around it. -/
def namedEntity? (e : ObjectPropertyExpression) : Option Entity := e.asNamed?.map .objectProperty

def render : ObjectPropertyExpression → String
  | .named p => p.iri.render
  | .inverse e => "ObjectInverseOf(" ++ e.render ++ ")"

/-- Named properties come before inverses. -/
def sortKey : ObjectPropertyExpression → List KeySymbol
  | .named p => .tag 0 :: Keyed.key p
  | .inverse e => .tag 1 :: e.sortKey

theorem sortKey_split {a b : ObjectPropertyExpression} {r s : List KeySymbol}
    (h : a.sortKey ++ r = b.sortKey ++ s) : a = b ∧ r = s := by
  induction a generalizing b with
  | named p =>
    cases b with
    | named q =>
      obtain ⟨rfl, h'⟩ := Keyed.split (List.cons.inj h).2
      exact ⟨rfl, h'⟩
    | inverse e => simp [sortKey] at h
  | inverse e ih =>
    cases b with
    | named q => simp [sortKey] at h
    | inverse e' =>
      obtain ⟨rfl, h'⟩ := ih (List.cons.inj h).2
      exact ⟨rfl, h'⟩

instance : Keyed ObjectPropertyExpression where
  key := sortKey
  starts e := by cases e <;> exact ⟨_, _, rfl, by simp⟩
  split := sortKey_split

end ObjectPropertyExpression

end OwlStructure
