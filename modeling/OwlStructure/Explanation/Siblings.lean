import OwlStructure.Explanation.Tree

/-!
The order of the children of a node: equivalences of classes last, axioms about properties first,
trees with children before leaves, and subclass axioms before the others and by superclass. Trees
that this does not tell apart stay in the order in which they were found.
-/
namespace OwlStructure.ExplanationTree

/-- A symbol that comes first when a condition holds. -/
def firstIf (b : Bool) : KeySymbol := .tag (if b then 0 else 1)

/-- The superclass of a subclass axiom, spelled. -/
def superclassKey : AxiomKind → List KeySymbol
  | .subClassOf _ sup => Keyed.key sup
  | _ => []

/-- The symbols that siblings are sorted by. -/
def siblingKey (t : ExplanationTree) : List KeySymbol :=
  let type := t.statement.type
  firstIf (type != .equivalentClasses) :: firstIf type.isPropertyAxiom :: firstIf (!t.isLeaf) ::
    firstIf (type == .subClassOf) :: superclassKey t.statement.kind

def siblingOrder (s t : ExplanationTree) : Ordering := compare s.siblingKey t.siblingKey

def sortSiblings (l : List ExplanationTree) : List ExplanationTree :=
  l.mergeSort fun s t => (siblingOrder s t).isLE

end OwlStructure.ExplanationTree
