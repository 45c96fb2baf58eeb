import OwlStructure.Axiom.Basic

/-!
Explanations: trees of axioms. In a built tree the root holds the entailment and every other node
one axiom of the justification; the type allows both anywhere.
-/
namespace OwlStructure

inductive ExplanationNode where
  | entailment (a : Axiom)
  | justification (a : Axiom)
  deriving DecidableEq

namespace ExplanationNode

def statement : ExplanationNode → Axiom
  | .entailment a => a
  | .justification a => a

def isEntailment : ExplanationNode → Bool
  | .entailment _ => true
  | .justification _ => false

/-- The axiom of a justification node. -/
def justified? : ExplanationNode → Option Axiom
  | .entailment _ => none
  | .justification a => some a

end ExplanationNode

inductive ExplanationTree where
  | node (label : ExplanationNode) (children : List ExplanationTree)

namespace ExplanationTree

instance : Inhabited ExplanationTree := ⟨.node (.entailment default) []⟩

def label : ExplanationTree → ExplanationNode
  | .node label _ => label

def children : ExplanationTree → List ExplanationTree
  | .node _ children => children

/-- The axiom at the root. -/
def statement (t : ExplanationTree) : Axiom := t.label.statement

def isLeaf (t : ExplanationTree) : Bool := t.children.isEmpty

/-- The tree with more children after its own. -/
def withChildren (t : ExplanationTree) (more : List ExplanationTree) : ExplanationTree :=
  .node t.label (t.children ++ more)

mutual

/-- The number of nodes. -/
def size : ExplanationTree → Nat
  | .node _ children => sizeAll children + 1

def sizeAll : List ExplanationTree → Nat
  | [] => 0
  | t :: rest => size t + sizeAll rest

end

mutual

/-- The number of steps from the root to the deepest leaf. -/
def depth : ExplanationTree → Nat
  | .node _ children => depthBelow children

def depthBelow : List ExplanationTree → Nat
  | [] => 0
  | t :: rest => max (depth t + 1) (depthBelow rest)

end

mutual

/-- Every subtree with its level, each before those below it. -/
def walk (level : Nat) : ExplanationTree → List (Nat × ExplanationTree)
  | .node label children => (level, .node label children) :: walkAll (level + 1) children

def walkAll (level : Nat) : List ExplanationTree → List (Nat × ExplanationTree)
  | [] => []
  | t :: rest => walk level t ++ walkAll level rest

end

/-- All nodes, each before those below it. -/
def nodes (t : ExplanationTree) : List ExplanationNode := (t.walk 0).map fun e => e.2.label

/-- The axioms of all justification nodes. -/
def axiomClosure (t : ExplanationTree) : SortedSet Axiom :=
  .ofList (t.nodes.filterMap ExplanationNode.justified?)

/-- A line for each node, four spaces deeper than its parent. -/
def render (t : ExplanationTree) : String :=
  String.join <| (t.walk 0).map fun e =>
    String.ofList (List.replicate (4 * e.1) ' ') ++ e.2.statement.render ++ "\n"

end ExplanationTree

end OwlStructure
