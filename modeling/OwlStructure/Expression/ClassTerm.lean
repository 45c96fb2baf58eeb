import OwlStructure.Expression.Property
import OwlStructure.Expression.Individual
import OwlStructure.Expression.Literal

/-!
Class terms: class expressions as they are written, with the operands of an intersection or union
in any order and perhaps repeated. `normal` puts every operand list of a term into ascending order,
once each; a term in this form is what it denotes, so equal expressions have equal normal terms.
-/
namespace OwlStructure

inductive ClassTerm where
  | named (c : Class)
  | intersection (operands : List ClassTerm)
  | union (operands : List ClassTerm)
  | complement (operand : ClassTerm)
  | oneOf (individuals : SortedSet Individual)
  | someValues (property : ObjectPropertyExpression) (filler : ClassTerm)
  | allValues (property : ObjectPropertyExpression) (filler : ClassTerm)
  | hasValue (property : ObjectPropertyExpression) (individual : Individual)
  | minCardinality (cardinality : UInt32) (property : ObjectPropertyExpression) (filler : ClassTerm)
  | exactCardinality (cardinality : UInt32) (property : ObjectPropertyExpression)
      (filler : ClassTerm)
  | maxCardinality (cardinality : UInt32) (property : ObjectPropertyExpression) (filler : ClassTerm)
  | hasSelf (property : ObjectPropertyExpression)
  | dataSomeValues (property : DataProperty) (range : DataRange)
  | dataAllValues (property : DataProperty) (range : DataRange)
  | dataHasValue (property : DataProperty) (value : Literal)

namespace ClassTerm

instance : Inhabited ClassTerm := ⟨.named .thing⟩

/-- The position of the outermost form in the order of forms. -/
def ordinal : ClassTerm → Nat
  | .named _ => 0
  | .intersection _ => 1
  | .union _ => 2
  | .complement _ => 3
  | .oneOf _ => 4
  | .someValues .. => 5
  | .allValues .. => 6
  | .hasValue .. => 7
  | .minCardinality .. => 8
  | .exactCardinality .. => 9
  | .maxCardinality .. => 10
  | .hasSelf _ => 11
  | .dataSomeValues .. => 12
  | .dataAllValues .. => 13
  | .dataHasValue .. => 14

/-- The name of the outermost form. -/
def form : ClassTerm → String
  | .named _ => "Class"
  | .intersection _ => "ObjectIntersectionOf"
  | .union _ => "ObjectUnionOf"
  | .complement _ => "ObjectComplementOf"
  | .oneOf _ => "ObjectOneOf"
  | .someValues .. => "ObjectSomeValuesFrom"
  | .allValues .. => "ObjectAllValuesFrom"
  | .hasValue .. => "ObjectHasValue"
  | .minCardinality .. => "ObjectMinCardinality"
  | .exactCardinality .. => "ObjectExactCardinality"
  | .maxCardinality .. => "ObjectMaxCardinality"
  | .hasSelf _ => "ObjectHasSelf"
  | .dataSomeValues .. => "DataSomeValuesFrom"
  | .dataAllValues .. => "DataAllValuesFrom"
  | .dataHasValue .. => "DataHasValue"

def asClass? : ClassTerm → Option Class
  | .named c => some c
  | _ => none

/-! ### Order -/

mutual

/-- A term is spelled by its form and then its parts, cardinality first. -/
def sortKey : ClassTerm → List KeySymbol
  | .named c => [.tag 0, .text c.iri.text]
  | .intersection ops => .tag 1 :: operandsKey ops
  | .union ops => .tag 2 :: operandsKey ops
  | .complement c => .tag 3 :: sortKey c
  | .oneOf is => .tag 4 :: Keyed.key is
  | .someValues p c => .tag 5 :: (Keyed.key p ++ sortKey c)
  | .allValues p c => .tag 6 :: (Keyed.key p ++ sortKey c)
  | .hasValue p i => .tag 7 :: (Keyed.key p ++ Keyed.key i)
  | .minCardinality n p c => .tag 8 :: .tag n.toNat :: (Keyed.key p ++ sortKey c)
  | .exactCardinality n p c => .tag 9 :: .tag n.toNat :: (Keyed.key p ++ sortKey c)
  | .maxCardinality n p c => .tag 10 :: .tag n.toNat :: (Keyed.key p ++ sortKey c)
  | .hasSelf p => .tag 11 :: Keyed.key p
  | .dataSomeValues p r => .tag 12 :: (Keyed.key p ++ Keyed.key r)
  | .dataAllValues p r => .tag 13 :: (Keyed.key p ++ Keyed.key r)
  | .dataHasValue p v => .tag 14 :: (Keyed.key p ++ Keyed.key v)

def operandsKey : List ClassTerm → List KeySymbol
  | [] => [.stop]
  | c :: rest => sortKey c ++ operandsKey rest

end

theorem sortKey_starts (c : ClassTerm) : ∃ xs, c.sortKey = .tag c.ordinal :: xs := by
  cases c <;> exact ⟨_, rfl⟩

theorem ordinal_eq_of_sortKey {a b : ClassTerm} {r s : List KeySymbol}
    (h : a.sortKey ++ r = b.sortKey ++ s) : a.ordinal = b.ordinal := by
  obtain ⟨xs, ha⟩ := sortKey_starts a
  obtain ⟨ys, hb⟩ := sortKey_starts b
  rw [ha, hb] at h
  simpa using (List.cons.inj h).1

theorem pair_split {α β : Type} [Keyed α] [Keyed β] {a a' : α} {b b' : β} {r s : List KeySymbol}
    (h : (Keyed.key a ++ Keyed.key b) ++ r = (Keyed.key a' ++ Keyed.key b') ++ s) :
    a = a' ∧ b = b' ∧ r = s := by
  simp only [List.append_assoc] at h
  obtain ⟨h₁, h⟩ := Keyed.split h
  exact ⟨h₁, Keyed.split h⟩

mutual

theorem sortKey_split : (a : ClassTerm) → {b : ClassTerm} → {r s : List KeySymbol} →
    a.sortKey ++ r = b.sortKey ++ s → a = b ∧ r = s
  | .named c, b, r, s, h => by
    have ho := ordinal_eq_of_sortKey h
    cases b <;> simp only [ordinal, reduceCtorEq] at ho
    next d =>
    obtain ⟨⟨c⟩⟩ := c
    obtain ⟨⟨d⟩⟩ := d
    simpa [sortKey] using h
  | .intersection ops, b, r, s, h => by
    have ho := ordinal_eq_of_sortKey h
    cases b <;> simp only [ordinal, reduceCtorEq, Nat.reduceEqDiff] at ho
    obtain ⟨rfl, h'⟩ := operandsKey_split ops (List.cons.inj h).2
    exact ⟨rfl, h'⟩
  | .union ops, b, r, s, h => by
    have ho := ordinal_eq_of_sortKey h
    cases b <;> simp only [ordinal, reduceCtorEq, Nat.reduceEqDiff] at ho
    obtain ⟨rfl, h'⟩ := operandsKey_split ops (List.cons.inj h).2
    exact ⟨rfl, h'⟩
  | .complement c, b, r, s, h => by
    have ho := ordinal_eq_of_sortKey h
    cases b <;> simp only [ordinal, reduceCtorEq, Nat.reduceEqDiff] at ho
    obtain ⟨rfl, h'⟩ := sortKey_split c (List.cons.inj h).2
    exact ⟨rfl, h'⟩
  | .oneOf is, b, r, s, h => by
    have ho := ordinal_eq_of_sortKey h
    cases b <;> simp only [ordinal, reduceCtorEq, Nat.reduceEqDiff] at ho
    obtain ⟨rfl, h'⟩ := Keyed.split (List.cons.inj h).2
    exact ⟨rfl, h'⟩
  | .someValues p c, b, r, s, h => by
    have ho := ordinal_eq_of_sortKey h
    cases b <;> simp only [ordinal, reduceCtorEq, Nat.reduceEqDiff] at ho
    simp only [sortKey, List.cons_append, List.append_assoc, List.cons.injEq, true_and] at h
    obtain ⟨rfl, h'⟩ := Keyed.split h
    obtain ⟨rfl, h''⟩ := sortKey_split c h'
    exact ⟨rfl, h''⟩
  | .allValues p c, b, r, s, h => by
    have ho := ordinal_eq_of_sortKey h
    cases b <;> simp only [ordinal, reduceCtorEq, Nat.reduceEqDiff] at ho
    simp only [sortKey, List.cons_append, List.append_assoc, List.cons.injEq, true_and] at h
    obtain ⟨rfl, h'⟩ := Keyed.split h
    obtain ⟨rfl, h''⟩ := sortKey_split c h'
    exact ⟨rfl, h''⟩
  | .hasValue p i, b, r, s, h => by
    have ho := ordinal_eq_of_sortKey h
    cases b <;> simp only [ordinal, reduceCtorEq, Nat.reduceEqDiff] at ho
    obtain ⟨rfl, rfl, h'⟩ := pair_split (List.cons.inj h).2
    exact ⟨rfl, h'⟩
  | .minCardinality n p c, b, r, s, h => by
    have ho := ordinal_eq_of_sortKey h
    cases b <;> simp only [ordinal, reduceCtorEq, Nat.reduceEqDiff] at ho
    simp only [sortKey, List.cons_append, List.append_assoc, List.cons.injEq, true_and,
      KeySymbol.tag.injEq, UInt32.toNat_inj] at h
    obtain ⟨rfl, h₁⟩ := h
    obtain ⟨rfl, h₂⟩ := Keyed.split h₁
    obtain ⟨rfl, h₃⟩ := sortKey_split c h₂
    exact ⟨rfl, h₃⟩
  | .exactCardinality n p c, b, r, s, h => by
    have ho := ordinal_eq_of_sortKey h
    cases b <;> simp only [ordinal, reduceCtorEq, Nat.reduceEqDiff] at ho
    simp only [sortKey, List.cons_append, List.append_assoc, List.cons.injEq, true_and,
      KeySymbol.tag.injEq, UInt32.toNat_inj] at h
    obtain ⟨rfl, h₁⟩ := h
    obtain ⟨rfl, h₂⟩ := Keyed.split h₁
    obtain ⟨rfl, h₃⟩ := sortKey_split c h₂
    exact ⟨rfl, h₃⟩
  | .maxCardinality n p c, b, r, s, h => by
    have ho := ordinal_eq_of_sortKey h
    cases b <;> simp only [ordinal, reduceCtorEq, Nat.reduceEqDiff] at ho
    simp only [sortKey, List.cons_append, List.append_assoc, List.cons.injEq, true_and,
      KeySymbol.tag.injEq, UInt32.toNat_inj] at h
    obtain ⟨rfl, h₁⟩ := h
    obtain ⟨rfl, h₂⟩ := Keyed.split h₁
    obtain ⟨rfl, h₃⟩ := sortKey_split c h₂
    exact ⟨rfl, h₃⟩
  | .hasSelf p, b, r, s, h => by
    have ho := ordinal_eq_of_sortKey h
    cases b <;> simp only [ordinal, reduceCtorEq, Nat.reduceEqDiff] at ho
    obtain ⟨rfl, h'⟩ := Keyed.split (List.cons.inj h).2
    exact ⟨rfl, h'⟩
  | .dataSomeValues p d, b, r, s, h => by
    have ho := ordinal_eq_of_sortKey h
    cases b <;> simp only [ordinal, reduceCtorEq, Nat.reduceEqDiff] at ho
    obtain ⟨rfl, rfl, h'⟩ := pair_split (List.cons.inj h).2
    exact ⟨rfl, h'⟩
  | .dataAllValues p d, b, r, s, h => by
    have ho := ordinal_eq_of_sortKey h
    cases b <;> simp only [ordinal, reduceCtorEq, Nat.reduceEqDiff] at ho
    obtain ⟨rfl, rfl, h'⟩ := pair_split (List.cons.inj h).2
    exact ⟨rfl, h'⟩
  | .dataHasValue p v, b, r, s, h => by
    have ho := ordinal_eq_of_sortKey h
    cases b <;> simp only [ordinal, reduceCtorEq, Nat.reduceEqDiff] at ho
    obtain ⟨rfl, rfl, h'⟩ := pair_split (List.cons.inj h).2
    exact ⟨rfl, h'⟩

theorem operandsKey_split : (l : List ClassTerm) → {m : List ClassTerm} → {r s : List KeySymbol} →
    operandsKey l ++ r = operandsKey m ++ s → l = m ∧ r = s
  | [], m, r, s, h => by
    cases m with
    | nil => exact ⟨rfl, (List.cons.inj h).2⟩
    | cons d m =>
      obtain ⟨xs, hd⟩ := sortKey_starts d
      simp [operandsKey, hd] at h
  | c :: l, m, r, s, h => by
    cases m with
    | nil =>
      obtain ⟨xs, hc⟩ := sortKey_starts c
      simp [operandsKey, hc] at h
    | cons d m =>
      simp only [operandsKey, List.append_assoc] at h
      obtain ⟨rfl, h'⟩ := sortKey_split c h
      obtain ⟨rfl, h''⟩ := operandsKey_split l h'
      exact ⟨rfl, h''⟩

end

instance : Keyed ClassTerm where
  key := sortKey
  starts c := by
    obtain ⟨xs, h⟩ := sortKey_starts c
    exact ⟨_, xs, h, by simp⟩
  split := sortKey_split _

instance : DecidableEq ClassTerm := Keyed.decEq

/-! ### Normal form -/

mutual

/-- The term with every operand list sorted and without repeats. -/
def normal : ClassTerm → ClassTerm
  | .intersection ops => .intersection (normalOperands ops)
  | .union ops => .union (normalOperands ops)
  | .complement c => .complement (normal c)
  | .someValues p c => .someValues p (normal c)
  | .allValues p c => .allValues p (normal c)
  | .minCardinality n p c => .minCardinality n p (normal c)
  | .exactCardinality n p c => .exactCardinality n p (normal c)
  | .maxCardinality n p c => .maxCardinality n p (normal c)
  | c => c

def normalOperands : List ClassTerm → List ClassTerm
  | [] => []
  | c :: rest => SortedSet.place (normal c) (normalOperands rest)

end

mutual

/-- Every operand list is in strictly ascending order. -/
def IsNormal : ClassTerm → Prop
  | .intersection ops => ops.Pairwise Before ∧ AreNormal ops
  | .union ops => ops.Pairwise Before ∧ AreNormal ops
  | .complement c => IsNormal c
  | .someValues _ c => IsNormal c
  | .allValues _ c => IsNormal c
  | .minCardinality _ _ c => IsNormal c
  | .exactCardinality _ _ c => IsNormal c
  | .maxCardinality _ _ c => IsNormal c
  | _ => True

def AreNormal : List ClassTerm → Prop
  | [] => True
  | c :: rest => IsNormal c ∧ AreNormal rest

end

theorem areNormal_iff {l : List ClassTerm} : AreNormal l ↔ ∀ c ∈ l, c.IsNormal := by
  induction l with
  | nil => simp [AreNormal]
  | cons c l ih => simp [AreNormal, ih]

theorem normalOperands_eq (l : List ClassTerm) :
    normalOperands l = (SortedSet.ofList (l.map normal)).toList := by
  induction l with
  | nil => rfl
  | cons c l ih => rw [normalOperands, ih]; rfl

theorem normalOperands_sorted (l : List ClassTerm) : (normalOperands l).Pairwise Before := by
  rw [normalOperands_eq]
  exact (SortedSet.ofList _).sorted

mutual

theorem normal_isNormal : (c : ClassTerm) → c.normal.IsNormal
  | .intersection ops => ⟨normalOperands_sorted ops, normalOperands_areNormal ops⟩
  | .union ops => ⟨normalOperands_sorted ops, normalOperands_areNormal ops⟩
  | .complement c => normal_isNormal c
  | .someValues _ c => normal_isNormal c
  | .allValues _ c => normal_isNormal c
  | .minCardinality _ _ c => normal_isNormal c
  | .exactCardinality _ _ c => normal_isNormal c
  | .maxCardinality _ _ c => normal_isNormal c
  | .named _ => trivial
  | .oneOf _ => trivial
  | .hasValue .. => trivial
  | .hasSelf _ => trivial
  | .dataSomeValues .. => trivial
  | .dataAllValues .. => trivial
  | .dataHasValue .. => trivial

theorem normalOperands_areNormal : (l : List ClassTerm) → AreNormal (normalOperands l)
  | [] => trivial
  | c :: l => by
    refine areNormal_iff.2 fun d hd => ?_
    rcases SortedSet.mem_place.1 hd with rfl | hd
    · exact normal_isNormal c
    · exact areNormal_iff.1 (normalOperands_areNormal l) d hd

end

/-! ### Text -/

mutual

def render : ClassTerm → String
  | .named c => c.iri.render
  | .intersection ops => renderForm "ObjectIntersectionOf" (renderOperands ops)
  | .union ops => renderForm "ObjectUnionOf" (renderOperands ops)
  | .complement c => renderForm "ObjectComplementOf" [render c]
  | .oneOf is => renderForm "ObjectOneOf" (is.toList.map Individual.render)
  | .someValues p c => renderForm "ObjectSomeValuesFrom" [p.render, render c]
  | .allValues p c => renderForm "ObjectAllValuesFrom" [p.render, render c]
  | .hasValue p i => renderForm "ObjectHasValue" [p.render, i.render]
  | .minCardinality n p c =>
    renderForm "ObjectMinCardinality" [n.toNat.repr, p.render, render c]
  | .exactCardinality n p c =>
    renderForm "ObjectExactCardinality" [n.toNat.repr, p.render, render c]
  | .maxCardinality n p c =>
    renderForm "ObjectMaxCardinality" [n.toNat.repr, p.render, render c]
  | .hasSelf p => renderForm "ObjectHasSelf" [p.render]
  | .dataSomeValues p r => renderForm "DataSomeValuesFrom" [p.iri.render, r.render]
  | .dataAllValues p r => renderForm "DataAllValuesFrom" [p.iri.render, r.render]
  | .dataHasValue p v => renderForm "DataHasValue" [p.iri.render, v.render]

def renderOperands : List ClassTerm → List String
  | [] => []
  | c :: rest => render c :: renderOperands rest

end

/-! ### Entities -/

mutual

/-- The entities at each place of a term, from left to right. -/
def entities : ClassTerm → List Entity
  | .named c => [.namedClass c]
  | .intersection ops => operandEntities ops
  | .union ops => operandEntities ops
  | .complement c => entities c
  | .oneOf is => is.toList.map Individual.entity
  | .someValues p c => p.entity :: entities c
  | .allValues p c => p.entity :: entities c
  | .hasValue p i => [p.entity, i.entity]
  | .minCardinality _ p c => p.entity :: entities c
  | .exactCardinality _ p c => p.entity :: entities c
  | .maxCardinality _ p c => p.entity :: entities c
  | .hasSelf p => [p.entity]
  | .dataSomeValues p r => .dataProperty p :: r.entities
  | .dataAllValues p r => .dataProperty p :: r.entities
  | .dataHasValue p v => [.dataProperty p, v.entity]

def operandEntities : List ClassTerm → List Entity
  | [] => []
  | c :: rest => entities c ++ operandEntities rest

end

mutual

/-- The anonymous individuals of a term, from left to right. They stand in enumerations and values
alone, so no other part of a term is looked at. -/
def unnamed : ClassTerm → List AnonymousIndividual
  | .intersection ops => unnamedOperands ops
  | .union ops => unnamedOperands ops
  | .complement c => unnamed c
  | .oneOf is => is.toList.filterMap Individual.asAnonymous?
  | .someValues _ c => unnamed c
  | .allValues _ c => unnamed c
  | .hasValue _ i => i.asAnonymous?.toList
  | .minCardinality _ _ c => unnamed c
  | .exactCardinality _ _ c => unnamed c
  | .maxCardinality _ _ c => unnamed c
  | _ => []

def unnamedOperands : List ClassTerm → List AnonymousIndividual
  | [] => []
  | c :: rest => unnamed c ++ unnamedOperands rest

end

mutual

theorem unnamed_eq : (c : ClassTerm) → c.unnamed = c.entities.filterMap Entity.asAnonymous?
  | .intersection ops | .union ops => unnamedOperands_eq ops
  | .complement c => unnamed_eq c
  | .someValues _ c | .allValues _ c | .minCardinality _ _ c | .exactCardinality _ _ c
  | .maxCardinality _ _ c => unnamed_eq c
  | .oneOf is => by
    simp only [unnamed, entities, List.filterMap_map, Function.comp_def,
      Individual.asAnonymous?_entity]
  | .hasValue p i => by cases i <;> rfl
  | .dataSomeValues _ r | .dataAllValues _ r => by
    rw [entities, List.filterMap_cons_none rfl, r.no_anonymous]
    rfl
  | .named _ | .hasSelf _ | .dataHasValue .. => rfl

theorem unnamedOperands_eq : (l : List ClassTerm) →
    unnamedOperands l = (operandEntities l).filterMap Entity.asAnonymous?
  | [] => rfl
  | c :: l => by
    rw [unnamedOperands, operandEntities, List.filterMap_append, unnamed_eq c,
      unnamedOperands_eq l]

end

end ClassTerm

end OwlStructure
