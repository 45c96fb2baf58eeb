import OwlStructure.Axiom.Basic
import OwlStructure.Proofs.Collections.SortKey

/-!
The orders of single types. Values compare as the keys they are spelled by. Read back to the values
this is the lexicographic order: forms compare first, in the order they are declared in, then the
parts one after the other; sets compare as their ascending lists.
-/
namespace OwlStructure

open Keyed (key)

/-- Entities compare by kind, then by name. -/
theorem Entity.compare_eq (a b : Entity) :
    compare a b = (compare a.kind.ordinal b.kind.ordinal).then (compare a.name b.name) := by
  rw [Keyed.compare_def]
  simp only [key, List.compare_cons_cons, Std.ReflCmp.compare_self, Ordering.then_eq]
  rfl

/-! ### Class terms -/

namespace ClassTerm

theorem operandsKey_eq (l : List ClassTerm) : operandsKey l = Keyed.listKey l := by
  induction l with
  | nil => rfl
  | cons c l ih =>
    rw [operandsKey, Keyed.listKey_cons, ih]
    rfl

/-- The order of two terms of one form: part by part, a cardinality first. -/
def compareParts : ClassTerm → ClassTerm → Ordering
  | .named c, .named d => compare c d
  | .intersection l, .intersection m | .union l, .union m => compare l m
  | .complement c, .complement d => compare c d
  | .oneOf s, .oneOf t => compare s.toList t.toList
  | .someValues p c, .someValues q d | .allValues p c, .allValues q d =>
    (compare p q).then (compare c d)
  | .hasValue p i, .hasValue q j => (compare p q).then (compare i j)
  | .minCardinality m p c, .minCardinality n q d
  | .exactCardinality m p c, .exactCardinality n q d
  | .maxCardinality m p c, .maxCardinality n q d =>
    (compare m.toNat n.toNat).then ((compare p q).then (compare c d))
  | .hasSelf p, .hasSelf q => compare p q
  | .dataSomeValues p r, .dataSomeValues q s | .dataAllValues p r, .dataAllValues q s =>
    (compare p q).then (compare r s)
  | .dataHasValue p v, .dataHasValue q w => (compare p q).then (compare v w)
  | _, _ => .eq

theorem compare_of_ordinal_eq {c d : ClassTerm} (h : c.ordinal = d.ordinal) :
    compare c d = compareParts c d := by
  have hoperands (l m : List ClassTerm) :
      compare (operandsKey l) (operandsKey m) = compare l m := by
    rw [operandsKey_eq, operandsKey_eq, Keyed.compare_listKey]
  cases c <;> cases d <;> simp only [ordinal, reduceCtorEq, Nat.reduceEqDiff] at h
  all_goals refine (Keyed.compare_cons_self _ _ _).trans ?_
  case named.named | complement.complement | hasSelf.hasSelf => rfl
  case oneOf.oneOf => exact SortedSet.compare_eq _ _
  case intersection.intersection | union.union => exact hoperands _ _
  case minCardinality.minCardinality | exactCardinality.exactCardinality |
      maxCardinality.maxCardinality =>
    exact List.compare_cons_cons.trans (congrArg _ (Keyed.compare_key_append _ _ _ _))
  all_goals exact Keyed.compare_key_append _ _ _ _

/-- Terms compare by form, then part by part. -/
theorem compare_eq (c d : ClassTerm) :
    compare c d = (compare c.ordinal d.ordinal).then (compareParts c d) := by
  obtain ⟨r, hc⟩ := sortKey_starts c
  obtain ⟨s, hd⟩ := sortKey_starts d
  have hcompare : compare c d = (compare c.ordinal d.ordinal).then (compare r s) := by
    rw [Keyed.compare_def]
    simp only [key, hc, hd, List.compare_cons_cons]
    rfl
  by_cases ho : c.ordinal = d.ordinal
  · simp only [ho, Std.ReflCmp.compare_self, Ordering.eq_then, compare_of_ordinal_eq ho]
  · have hne : compare c.ordinal d.ordinal ≠ .eq := fun e => ho (Std.LawfulEqCmp.eq_of_compare e)
    rw [hcompare, then_of_ne hne, then_of_ne hne]

end ClassTerm

/-! ### Axioms -/

theorem AxiomType.compare_eq (s t : AxiomType) : compare s t = compare s.ordinal t.ordinal := by
  rw [Keyed.compare_def]
  simp only [key, List.compare_cons_cons, Std.ReflCmp.compare_self, Ordering.then_eq]
  rfl

/-- Kinds compare by type, then part by part. -/
theorem AxiomKind.compare_eq (k l : AxiomKind) :
    compare k l = (compare k.type l.type).then (compare k.partsKey l.partsKey) :=
  Keyed.compare_key_append _ _ _ _

namespace Axiom

theorem sortKey_of_type_ne {a : Axiom} (h : a.type ≠ .subClassOf) : a.sortKey = key a.kind := by
  obtain ⟨k, hk⟩ := a
  cases k with
  | subClassOf sub sup => exact absurd rfl h
  | _ => rfl

/-- Axioms compare by type first. -/
theorem exists_compare_eq (a b : Axiom) : ∃ o, compare a b = (compare a.type b.type).then o := by
  obtain ⟨r, hr⟩ := sortKey_eq a
  obtain ⟨s, hs⟩ := sortKey_eq b
  refine ⟨compare r s, ?_⟩
  have hcompare : compare a b = compare (key a.type ++ r) (key b.type ++ s) := by
    rw [← hr, ← hs]
    rfl
  rw [hcompare, Keyed.compare_key_append]

/-- Subclass axioms compare by superclass first. -/
theorem compare_subClassOf (sub sup sub' sup' : ClassExpression) :
    compare (subClassOf sub sup) (subClassOf sub' sup') =
      (compare sup sup').then (compare sub sub') :=
  (Keyed.compare_cons_self _ _ _).trans (Keyed.compare_key_append _ _ _ _)

/-- All other axioms compare as their kinds. -/
theorem compare_kind {a b : Axiom} (h : a.type ≠ .subClassOf ∨ b.type ≠ .subClassOf) :
    compare a b = compare a.kind b.kind := by
  by_cases ht : a.type = b.type
  · have ha : a.type ≠ .subClassOf := h.elim id fun hb e => hb (ht ▸ e)
    have hb : b.type ≠ .subClassOf := ht ▸ ha
    rw [Keyed.compare_def]
    simp only [key, sortKey_of_type_ne ha, sortKey_of_type_ne hb]
    rfl
  · obtain ⟨o, ho⟩ := exists_compare_eq a b
    have hne : compare a.type b.type ≠ .eq := fun e => ht (Std.LawfulEqCmp.eq_of_compare e)
    rw [ho, AxiomKind.compare_eq, then_of_ne hne]
    exact (then_of_ne hne _).symm

end Axiom

end OwlStructure
