import OwlStructure.Axiom.Basic
import OwlStructure.Proofs.Expression.ClassTerm
import OwlStructure.Proofs.Expression.Property

/-!
Flattening: every property expression in an axiom is simplified, also inside class expressions, so
that at most one inverse stands around a property. Two axioms that differ only in nested inverses
have one flattened form. Flattening leaves the entities of an axiom as they are.
-/
namespace OwlStructure

@[simp] theorem ObjectPropertyExpression.entity_simplified (p : ObjectPropertyExpression) :
    p.simplified.entity = p.entity := by
  rw [entity, namedProperty_simplified, entity]

/-! ### Class expressions -/

namespace ClassTerm

mutual

def flattened : ClassTerm → ClassTerm
  | .intersection ops => .intersection (flattenedOperands ops)
  | .union ops => .union (flattenedOperands ops)
  | .complement c => .complement (flattened c)
  | .someValues p c => .someValues p.simplified (flattened c)
  | .allValues p c => .allValues p.simplified (flattened c)
  | .hasValue p i => .hasValue p.simplified i
  | .minCardinality n p c => .minCardinality n p.simplified (flattened c)
  | .exactCardinality n p c => .exactCardinality n p.simplified (flattened c)
  | .maxCardinality n p c => .maxCardinality n p.simplified (flattened c)
  | .hasSelf p => .hasSelf p.simplified
  | c => c

def flattenedOperands : List ClassTerm → List ClassTerm
  | [] => []
  | c :: rest => flattened c :: flattenedOperands rest

end

mutual

theorem entities_flattened : (c : ClassTerm) → c.flattened.entities = c.entities
  | .intersection ops | .union ops => operandEntities_flattened ops
  | .complement c => entities_flattened c
  | .someValues p c | .allValues p c | .minCardinality _ p c | .exactCardinality _ p c
  | .maxCardinality _ p c => by
    simp only [flattened, entities, p.entity_simplified, entities_flattened c]
  | .hasValue p _ | .hasSelf p => by simp only [flattened, entities, p.entity_simplified]
  | .named _ | .oneOf _ | .dataSomeValues .. | .dataAllValues .. | .dataHasValue .. => rfl

theorem operandEntities_flattened : (l : List ClassTerm) →
    operandEntities (flattenedOperands l) = operandEntities l
  | [] => rfl
  | c :: l => by
    simp only [flattenedOperands, operandEntities, entities_flattened c,
      operandEntities_flattened l]

end

end ClassTerm

namespace ClassExpression

/-- Flattened operands may come in another order, or fall together. -/
def flattened (c : ClassExpression) : ClassExpression := ofTerm c.term.flattened

theorem mem_entities_flattened {c : ClassExpression} {e : Entity} :
    e ∈ c.flattened.entities ↔ e ∈ c.entities := by
  unfold entities flattened ofTerm
  rw [ClassTerm.mem_entities_normal, ClassTerm.entities_flattened]

end ClassExpression

/-! ### Axioms -/

namespace AxiomKind

open ObjectPropertyExpression (simplified)

def flattened : AxiomKind → AxiomKind
  | .subClassOf sub sup => .subClassOf sub.flattened sup.flattened
  | .equivalentClasses ops => .equivalentClasses (ops.map ClassExpression.flattened)
  | .disjointClasses ops => .disjointClasses (ops.map ClassExpression.flattened)
  | .disjointUnion c ops => .disjointUnion c (ops.map ClassExpression.flattened)
  | .subObjectPropertyOf sub sup => .subObjectPropertyOf sub.simplified sup.simplified
  | .subPropertyChainOf chain sup => .subPropertyChainOf (chain.map simplified) sup.simplified
  | .equivalentObjectProperties ops => .equivalentObjectProperties (ops.map simplified)
  | .disjointObjectProperties ops => .disjointObjectProperties (ops.map simplified)
  | .inverseObjectProperties first second =>
    .inverseObjectProperties first.simplified second.simplified
  | .objectPropertyDomain p c => .objectPropertyDomain p.simplified c.flattened
  | .objectPropertyRange p c => .objectPropertyRange p.simplified c.flattened
  | .functionalObjectProperty p => .functionalObjectProperty p.simplified
  | .inverseFunctionalObjectProperty p => .inverseFunctionalObjectProperty p.simplified
  | .reflexiveObjectProperty p => .reflexiveObjectProperty p.simplified
  | .irreflexiveObjectProperty p => .irreflexiveObjectProperty p.simplified
  | .symmetricObjectProperty p => .symmetricObjectProperty p.simplified
  | .asymmetricObjectProperty p => .asymmetricObjectProperty p.simplified
  | .transitiveObjectProperty p => .transitiveObjectProperty p.simplified
  | .dataPropertyDomain p c => .dataPropertyDomain p c.flattened
  | .classAssertion c i => .classAssertion c.flattened i
  | .objectPropertyAssertion p s o => .objectPropertyAssertion p.simplified s o
  | .negativeObjectPropertyAssertion p s o => .negativeObjectPropertyAssertion p.simplified s o
  | .hasKey c ps ds => .hasKey c.flattened (ps.map simplified) ds
  | k => k

/-- Operands may fall together but never vanish, so the axiom keeps those that it needs. -/
theorem fault?_flattened (k : AxiomKind) : k.flattened.fault? = k.fault? := by
  cases k <;> simp [fault?, flattened, type, SortedSet.isEmpty_map]

theorem mem_entities_flattened {k : AxiomKind} {e : Entity} :
    e ∈ k.flattened.entities ↔ e ∈ k.entities := by
  have hc (c : ClassExpression) : e ∈ c.flattened.entities ↔ e ∈ c.entities :=
    c.mem_entities_flattened
  cases k <;>
    simp only [flattened, entities, List.mem_append, List.mem_cons, List.mem_flatMap, List.mem_map,
      SortedSet.mem_toList, SortedSet.mem_map, exists_exists_and_eq_and,
      ObjectPropertyExpression.entity_simplified, hc]

end AxiomKind

namespace Axiom

def flattened (a : Axiom) : Axiom :=
  ⟨a.kind.flattened, (a.kind.fault?_flattened).trans a.valid⟩

/-- Two lists hold the same axioms up to nested inverses, in any order and with repeats. -/
def SameFlattened (axioms axioms' : List Axiom) : Prop :=
  ∀ a, a ∈ axioms.map flattened ↔ a ∈ axioms'.map flattened

namespace SameFlattened

variable {axioms axioms' : List Axiom}

/-- What can be said of an axiom as of its flattened form is said in both lists or in neither. -/
theorem exists_iff (h : SameFlattened axioms axioms') {P : Axiom → Prop}
    (hP : ∀ a, P a.flattened ↔ P a) : (∃ a ∈ axioms, P a) ↔ ∃ a ∈ axioms', P a := by
  have hlist (l : List Axiom) : (∃ a ∈ l, P a) ↔ ∃ a ∈ l.map flattened, P a := by
    simp only [List.mem_map, exists_exists_and_eq_and, hP]
  rw [hlist axioms, hlist axioms']
  exact exists_congr fun a => and_congr_left fun _ => h a

end SameFlattened

end Axiom

end OwlStructure
