import OwlStructure.Encoding.Axiom
import OwlStructure.Explanation.Tree

/-!
Explanations in JSON. A text is refused when its root is not an entailment; the nodes below may be
of either sort.
-/
namespace OwlStructure

open Json

namespace ExplanationNode

def encode : ExplanationNode → Json
  | .entailment a => .variant "Entailment" a.encode
  | .justification a => .variant "Justification" a.encode

def decode? : Nat → Json → Option ExplanationNode
  | n + 1, .obj [(some "Entailment", payload)] =>
    (Axiom.decode? true n payload).map .entailment
  | n + 1, .obj [(some "Justification", payload)] =>
    (Axiom.decode? true n payload).map .justification
  | _, _ => none

end ExplanationNode

namespace ExplanationTree

mutual

def encode : ExplanationTree → Json
  | .node label children =>
    .record [("node", label.encode), ("children", .arr (encodeAll children))]

def encodeAll : List ExplanationTree → List Json
  | [] => []
  | t :: rest => encode t :: encodeAll rest

end

def decode? : Nat → Json → Option ExplanationTree
  | n + 1, j =>
    match n, j.record? ["node", "children"] with
    | m + 1, some [label, .arr children] => do
      some (.node (← ExplanationNode.decode? (m + 1) label) (← children.mapM fun j => decode? m j))
    | _, _ => none
  | _, _ => none

def toJson (t : ExplanationTree) : String := t.encode.indented

/-- The tree that a text writes, if its root is an entailment. -/
def ofJson? (text : String) : Except AnalysisError ExplanationTree :=
  match ofText? decode? text with
  | some t => if t.label.isEntailment then .ok t else .error .rootNotEntailment
  | none => .error .malformed

end ExplanationTree

end OwlStructure
