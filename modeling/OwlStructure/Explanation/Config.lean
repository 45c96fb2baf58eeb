import OwlStructure.AxiomType
import OwlStructure.Error
import OwlStructure.Text.Blank

/-!
Options for building explanations. Axioms of a type that passes through are never placed below
another axiom. The namespace begins the IRIs of the ontologies that justifications are staged in,
and must not be blank.
-/
namespace OwlStructure

structure ExplanationConfig where
  passThrough : List AxiomType
  stagingNamespace : String
  deriving DecidableEq, Repr

namespace ExplanationConfig

def defaultNamespace : String := "http://www.semanticweb.org/ontology"

/-- Only disjointness of classes passes through by default. -/
instance : Inhabited ExplanationConfig := ⟨⟨[.disjointClasses], defaultNamespace⟩⟩

def isPassThrough (c : ExplanationConfig) (t : AxiomType) : Bool := c.passThrough.contains t

/-- The options, if their namespace is not blank. -/
def check? (c : ExplanationConfig) : Except AnalysisError ExplanationConfig :=
  if isBlank c.stagingNamespace then .error .blankNamespace else .ok c

end ExplanationConfig

end OwlStructure
