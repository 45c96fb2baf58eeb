import OwlStructure.Entity

/-!
Individuals: named ones come before anonymous ones.
-/
namespace OwlStructure

inductive Individual where
  | named (i : NamedIndividual)
  | anonymous (a : AnonymousIndividual)
  deriving DecidableEq, Repr

namespace Individual

def entity : Individual → Entity
  | .named i => .namedIndividual i
  | .anonymous a => .anonymousIndividual a

def isAnonymous (i : Individual) : Bool := i.entity.isAnonymous

def asNamed? : Individual → Option NamedIndividual
  | .named i => some i
  | .anonymous _ => none

def asAnonymous? : Individual → Option AnonymousIndividual
  | .named _ => none
  | .anonymous a => some a

theorem asAnonymous?_entity (i : Individual) : i.entity.asAnonymous? = i.asAnonymous? := by
  cases i <;> rfl

/-- The individual as an entity, unless it is anonymous. -/
def namedEntity? (i : Individual) : Option Entity := i.asNamed?.map .namedIndividual

/-- The individual that an entity is, if it is one. -/
def ofEntity? : Entity → Option Individual
  | .namedIndividual i => some (.named i)
  | .anonymousIndividual a => some (.anonymous a)
  | _ => none

@[simp] theorem ofEntity?_entity (i : Individual) : ofEntity? i.entity = some i := by
  cases i <;> rfl

def render (i : Individual) : String := i.entity.render

theorem entity_injective {i j : Individual} (h : i.entity = j.entity) : i = j := by
  simpa using congrArg ofEntity? h

instance : Keyed Individual where
  key i := Keyed.key i.entity
  starts i := Keyed.starts i.entity
  split h := (Keyed.split h).imp_left entity_injective

end Individual

end OwlStructure
