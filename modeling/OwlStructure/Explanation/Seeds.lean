import OwlStructure.Axiom.Basic

/-!
The two ends of an entailment: the entity that its explanation starts from, and the one that it
leads to.
-/
namespace OwlStructure

structure Seeds where
  source : Option Entity
  target : Option Entity
  deriving DecidableEq, Repr

namespace Seeds

def none : Seeds := ⟨.none, .none⟩

/-- The first two named classes of a set of operands. -/
def ofOperands (ops : SortedSet ClassExpression) : Seeds :=
  let named := ops.toList.filterMap ClassExpression.namedEntity?
  ⟨named[0]?, named[1]?⟩

/-- The seeds of an entailment. A subclass of nothing leads nowhere; an assertion of a complex class
has no seeds at all. -/
def ofKind : AxiomKind → Seeds
  | .subClassOf sub sup => ⟨sub.namedEntity?, if sup.isNothing then .none else sup.namedEntity?⟩
  | .equivalentClasses ops => ofOperands ops
  | .disjointClasses ops => ofOperands ops
  | .classAssertion c i =>
    match c.namedEntity? with
    | some e => ⟨i.namedEntity?, some e⟩
    | .none => none
  | .subObjectPropertyOf sub sup => ⟨sub.namedEntity?, sup.namedEntity?⟩
  | _ => none

end Seeds

end OwlStructure
