import OwlStructure.Axiom.Kind

/-!
Axioms: kinds with the operands that they need. Axioms compare as their kinds do, except that two
subclass axioms compare by superclass first.
-/
namespace OwlStructure

structure Axiom where
  kind : AxiomKind
  valid : kind.fault? = none

namespace Axiom

theorem ext {a b : Axiom} (h : a.kind = b.kind) : a = b := by
  cases a; cases b; cases h; rfl

instance : DecidableEq Axiom := fun a b =>
  decidable_of_iff (a.kind = b.kind) ⟨ext, congrArg kind⟩

/-- The axiom of a kind, if the kind has its operands. -/
def ofKind? (k : AxiomKind) : Except ModelError Axiom :=
  match h : k.fault? with
  | none => .ok ⟨k, h⟩
  | some e => .error e

theorem ofKind?_kind (a : Axiom) : ofKind? a.kind = .ok a := by
  rw [ofKind?]
  split
  · rfl
  · next h => rw [a.valid] at h; cases h

theorem ofKind?_eq_ok_iff {k : AxiomKind} {a : Axiom} : ofKind? k = .ok a ↔ a.kind = k := by
  constructor
  · intro h
    rw [ofKind?] at h
    split at h
    · cases h; rfl
    · cases h
  · rintro rfl
    exact ofKind?_kind a

def type (a : Axiom) : AxiomType := a.kind.type

/-! ### Constructors -/

def declaration (e : Entity) : Axiom := ⟨.declaration e, rfl⟩

instance : Inhabited Axiom := ⟨declaration (.namedClass .thing)⟩

def subClassOf (sub sup : ClassExpression) : Axiom := ⟨.subClassOf sub sup, rfl⟩

def equivalentClasses? (operands : List ClassExpression) : Except ModelError Axiom :=
  ofKind? (.equivalentClasses (.ofList operands))

def disjointClasses? (operands : List ClassExpression) : Except ModelError Axiom :=
  ofKind? (.disjointClasses (.ofList operands))

def subObjectPropertyOf (sub sup : ObjectPropertyExpression) : Axiom :=
  ⟨.subObjectPropertyOf sub sup, rfl⟩

def subPropertyChainOf? (chain : List ObjectPropertyExpression) (sup : ObjectPropertyExpression) :
    Except ModelError Axiom :=
  ofKind? (.subPropertyChainOf chain sup)

def equivalentObjectProperties? (operands : List ObjectPropertyExpression) :
    Except ModelError Axiom :=
  ofKind? (.equivalentObjectProperties (.ofList operands))

def inverseObjectProperties (first second : ObjectPropertyExpression) : Axiom :=
  ⟨.inverseObjectProperties first second, rfl⟩

def transitiveObjectProperty (p : ObjectPropertyExpression) : Axiom :=
  ⟨.transitiveObjectProperty p, rfl⟩

def symmetricObjectProperty (p : ObjectPropertyExpression) : Axiom :=
  ⟨.symmetricObjectProperty p, rfl⟩

def classAssertion (c : ClassExpression) (i : Individual) : Axiom := ⟨.classAssertion c i, rfl⟩

/-! ### Order -/

/-- The symbols that an axiom is sorted by. -/
def sortKey (a : Axiom) : List KeySymbol :=
  match a.kind with
  | .subClassOf sub sup => Keyed.key AxiomType.subClassOf ++ (Keyed.key sup ++ Keyed.key sub)
  | k => Keyed.key k

theorem sortKey_eq (a : Axiom) : ∃ xs, a.sortKey = Keyed.key a.type ++ xs := by
  obtain ⟨k, _⟩ := a
  cases k <;> exact ⟨_, rfl⟩

theorem sortKey_split {a b : Axiom} {r s : List KeySymbol}
    (h : a.sortKey ++ r = b.sortKey ++ s) : a = b ∧ r = s := by
  have ht : a.kind.type = b.kind.type := by
    obtain ⟨xs, ha⟩ := sortKey_eq a
    obtain ⟨ys, hb⟩ := sortKey_eq b
    rw [ha, hb, List.append_assoc, List.append_assoc] at h
    exact (Keyed.split h).1
  obtain ⟨k, hk⟩ := a
  obtain ⟨l, hl⟩ := b
  by_cases hs : k.type = .subClassOf
  · have hs' : l.type = .subClassOf := ht.symm.trans hs
    cases k <;> simp only [AxiomKind.type, reduceCtorEq] at hs
    cases l <;> simp only [AxiomKind.type, reduceCtorEq] at hs'
    simp only [sortKey, List.append_assoc] at h
    obtain ⟨_, h₁⟩ := Keyed.split h
    obtain ⟨rfl, h₂⟩ := Keyed.split h₁
    obtain ⟨rfl, h₃⟩ := Keyed.split h₂
    exact ⟨rfl, h₃⟩
  · have hs' : l.type ≠ .subClassOf := fun e => hs (ht.trans e)
    have hk' : sortKey ⟨k, hk⟩ = Keyed.key k := by
      cases k <;> first | rfl | exact absurd rfl hs
    have hl' : sortKey ⟨l, hl⟩ = Keyed.key l := by
      cases l <;> first | rfl | exact absurd rfl hs'
    rw [hk', hl'] at h
    obtain ⟨rfl, h'⟩ := Keyed.split h
    exact ⟨rfl, h'⟩

instance : Keyed Axiom where
  key := sortKey
  starts a := by
    obtain ⟨xs, h⟩ := sortKey_eq a
    exact ⟨_, xs, h, by simp⟩
  split := sortKey_split

/-! ### Parts -/

/-- The functional form. -/
def render (a : Axiom) : String := renderForm a.type.name a.kind.arguments

/-- The entities at each place of the axiom. -/
def entities (a : Axiom) : List Entity := a.kind.entities

/-- The anonymous individuals of the axiom. -/
def unnamed (a : Axiom) : List AnonymousIndividual := a.kind.unnamed

/-- The entities that the axiom is about. -/
def defining (a : Axiom) : List Entity := a.kind.defining

end Axiom

end OwlStructure
