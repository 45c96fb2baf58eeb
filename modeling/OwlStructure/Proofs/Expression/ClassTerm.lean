import OwlStructure.Expression.ClassExpression
import OwlStructure.Proofs.Collections.SortedSet

/-!
A term that is in normal form already is its own normal form, and a normal form has the entities of
its term.
-/
namespace OwlStructure

namespace ClassTerm

theorem normalOperands_of_sorted {l : List ClassTerm} (hsorted : l.Pairwise Before)
    (hnormal : l.map normal = l) : normalOperands l = l := by
  rw [normalOperands_eq, hnormal, SortedSet.toList_ofList_of_sorted hsorted]

mutual

theorem normal_eq : (c : ClassTerm) → c.IsNormal → c.normal = c
  | .intersection ops, h => by rw [normal, normalOperands_of_sorted h.1 (map_normal_eq ops h.2)]
  | .union ops, h => by rw [normal, normalOperands_of_sorted h.1 (map_normal_eq ops h.2)]
  | .complement c, h => by rw [normal, normal_eq c h]
  | .someValues _ c, h => by rw [normal, normal_eq c h]
  | .allValues _ c, h => by rw [normal, normal_eq c h]
  | .minCardinality _ _ c, h => by rw [normal, normal_eq c h]
  | .exactCardinality _ _ c, h => by rw [normal, normal_eq c h]
  | .maxCardinality _ _ c, h => by rw [normal, normal_eq c h]
  | .named _, _ => rfl
  | .oneOf _, _ => rfl
  | .hasValue .., _ => rfl
  | .hasSelf _, _ => rfl
  | .dataSomeValues .., _ => rfl
  | .dataAllValues .., _ => rfl
  | .dataHasValue .., _ => rfl

theorem map_normal_eq : (l : List ClassTerm) → AreNormal l → l.map normal = l
  | [], _ => rfl
  | c :: l, h => by rw [List.map_cons, normal_eq c h.1, map_normal_eq l h.2]

end

/-! ### Entities -/

theorem mem_operandEntities {l : List ClassTerm} {e : Entity} :
    e ∈ operandEntities l ↔ ∃ c ∈ l, e ∈ c.entities := by
  induction l with
  | nil => simp [operandEntities]
  | cons c l ih => simp [operandEntities, ih]

mutual

/-- Sorting operands moves entities to other places and loses none. -/
theorem mem_entities_normal {e : Entity} : (c : ClassTerm) →
    (e ∈ c.normal.entities ↔ e ∈ c.entities)
  | .intersection ops | .union ops => mem_operandEntities_normal ops
  | .complement c => mem_entities_normal c
  | .someValues _ c | .allValues _ c | .minCardinality _ _ c | .exactCardinality _ _ c
  | .maxCardinality _ _ c => by simp only [normal, entities, List.mem_cons, mem_entities_normal c]
  | .named _ | .oneOf _ | .hasValue .. | .hasSelf _ | .dataSomeValues .. | .dataAllValues ..
  | .dataHasValue .. => Iff.rfl

theorem mem_operandEntities_normal {e : Entity} : (l : List ClassTerm) →
    (e ∈ operandEntities (normalOperands l) ↔ e ∈ operandEntities l)
  | [] => Iff.rfl
  | c :: l => by
    have hplace : e ∈ operandEntities (normalOperands (c :: l)) ↔
        e ∈ c.normal.entities ∨ e ∈ operandEntities (normalOperands l) := by
      simp only [normalOperands, mem_operandEntities, SortedSet.mem_place, or_and_right,
        exists_or, exists_eq_left]
    rw [hplace, mem_entities_normal c, mem_operandEntities_normal l, operandEntities,
      List.mem_append]

end

theorem eq_named_of_asClass? {t : ClassTerm} {d : Class} (h : t.asClass? = some d) :
    t = .named d := by
  cases t with
  | named c => exact congrArg _ (Option.some.inj h)
  | _ => cases h

end ClassTerm

theorem ClassExpression.mem_entities_of_named {c : ClassExpression} {e : Entity}
    (h : c.namedEntity? = some e) : e ∈ c.entities := by
  obtain ⟨d, hd, rfl⟩ := Option.map_eq_some_iff.1 h
  rw [entities, ClassTerm.eq_named_of_asClass? hd]
  exact List.mem_cons_self

@[simp] theorem ClassExpression.ofTerm_term (c : ClassExpression) : ofTerm c.term = c :=
  ext (c.term.normal_eq c.isNormal)

end OwlStructure
