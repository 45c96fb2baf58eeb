import OwlStructure.Axiom.Basic

/-!
One order over entities, property expressions, class expressions, data ranges and axioms together.
Every object has a type index, which decides first. A named class, object property or datatype is
the same object whether it stands by itself or as an expression.
-/
namespace OwlStructure

namespace TypeIndex

def objectInverseOf : Nat := 1008

/-- The index of an axiom type is its ordinal above this number. -/
def axiomBase : Nat := 2000

/-- The index of a complex class expression is the position of its form above this number. -/
def classBase : Nat := 3000

def dataOneOf : Nat := 4001

end TypeIndex

def EntityKind.typeIndex (k : EntityKind) : Nat := 1001 + k.ordinal

def Entity.typeIndex (e : Entity) : Nat := e.kind.typeIndex

def ObjectPropertyExpression.typeIndex : ObjectPropertyExpression → Nat
  | .named _ => EntityKind.objectProperty.typeIndex
  | .inverse _ => TypeIndex.objectInverseOf

def ClassTerm.typeIndex : ClassTerm → Nat
  | .named _ => EntityKind.namedClass.typeIndex
  | t => TypeIndex.classBase + t.ordinal

def DataRange.typeIndex : DataRange → Nat
  | .datatype _ => EntityKind.datatype.typeIndex
  | .oneOf _ => TypeIndex.dataOneOf

def AxiomType.typeIndex (t : AxiomType) : Nat := TypeIndex.axiomBase + t.ordinal

/-- A model object of any sort. -/
inductive ModelObject where
  | entity (e : Entity)
  | property (p : ObjectPropertyExpression)
  | classExpression (c : ClassExpression)
  | range (r : DataRange)
  | statement (a : Axiom)

namespace ModelObject

def typeIndex : ModelObject → Nat
  | .entity e => e.typeIndex
  | .property p => p.typeIndex
  | .classExpression c => c.term.typeIndex
  | .range r => r.typeIndex
  | .statement a => a.type.typeIndex

/-- The entity that an object denotes, when it is a plain entity. -/
def asEntity? : ModelObject → Option Entity
  | .entity e => some e
  | .property p => p.namedEntity?
  | .classExpression c => c.namedEntity?
  | .range (.datatype d) => some (.datatype d)
  | .range (.oneOf _) => none
  | .statement _ => none

/-- The symbols of an object within its own sort. -/
def ownKey : ModelObject → List KeySymbol
  | .entity e => Keyed.key e
  | .property p => Keyed.key p
  | .classExpression c => Keyed.key c
  | .range r => Keyed.key r
  | .statement a => Keyed.key a

/-- Type index first; then plain entities compare as entities, and all else within its sort. -/
def sortKey (x : ModelObject) : List KeySymbol :=
  .tag x.typeIndex ::
    match x.asEntity? with
    | some e => Keyed.key e
    | none => x.ownKey

def order (x y : ModelObject) : Ordering := compare x.sortKey y.sortKey

/-- Objects in ascending order, each with its place in the given list; objects that compare as equal
stay in the order of their places. -/
def sort (objects : List ModelObject) : List (ModelObject × Nat) :=
  objects.zipIdx.mergeSort fun x y => (order x.1 y.1).isLE

end ModelObject

end OwlStructure
