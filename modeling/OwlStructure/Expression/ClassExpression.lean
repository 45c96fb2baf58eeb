import OwlStructure.Expression.ClassTerm

/-!
Class expressions: class terms in normal form. The constructors take expressions and give
expressions; `ofTerm` reads any term.
-/
namespace OwlStructure

structure ClassExpression where
  term : ClassTerm
  isNormal : term.IsNormal

namespace ClassExpression

theorem ext {c d : ClassExpression} (h : c.term = d.term) : c = d := by
  cases c; cases d; cases h; rfl

instance : Keyed ClassExpression where
  key c := Keyed.key c.term
  starts c := Keyed.starts c.term
  split h := (Keyed.split h).imp_left ext

instance : DecidableEq ClassExpression := Keyed.decEq

/-- The expression that a term writes. -/
def ofTerm (t : ClassTerm) : ClassExpression := ⟨t.normal, t.normal_isNormal⟩

def named (c : Class) : ClassExpression := ⟨.named c, trivial⟩

instance : Inhabited ClassExpression := ⟨named .thing⟩

def intersection (operands : List ClassExpression) : ClassExpression :=
  ofTerm (.intersection (operands.map term))

def union (operands : List ClassExpression) : ClassExpression :=
  ofTerm (.union (operands.map term))

def complement (c : ClassExpression) : ClassExpression := ⟨.complement c.term, c.isNormal⟩

def someValues (p : ObjectPropertyExpression) (c : ClassExpression) : ClassExpression :=
  ⟨.someValues p c.term, c.isNormal⟩

def allValues (p : ObjectPropertyExpression) (c : ClassExpression) : ClassExpression :=
  ⟨.allValues p c.term, c.isNormal⟩

def asClass? (c : ClassExpression) : Option Class := c.term.asClass?

/-- The class as an entity, if the expression is a named class. -/
def namedEntity? (c : ClassExpression) : Option Entity := c.asClass?.map .namedClass

def isAnonymous (c : ClassExpression) : Bool := c.asClass?.isNone

def isThing (c : ClassExpression) : Bool := c.asClass?.any Class.isThing

def isNothing (c : ClassExpression) : Bool := c.asClass?.any Class.isNothing

def render (c : ClassExpression) : String := c.term.render

/-- The entities at each place of the expression. -/
def entities (c : ClassExpression) : List Entity := c.term.entities

/-- The anonymous individuals of the expression. -/
def unnamed (c : ClassExpression) : List AnonymousIndividual := c.term.unnamed

theorem unnamed_eq (c : ClassExpression) :
    c.unnamed = c.entities.filterMap Entity.asAnonymous? := c.term.unnamed_eq

end ClassExpression

end OwlStructure
