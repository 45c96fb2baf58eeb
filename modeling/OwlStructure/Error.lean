import OwlStructure.AxiomType

/-!
What can be wrong with the parts of a model or with a registry of ontologies, and what is said then.
-/
namespace OwlStructure

inductive ModelError where
  | blankIri
  | noOperands (type : AxiomType)
  | emptyChain
  | duplicateOntology (id : String)
  | unknownOntology (id : String)
  deriving DecidableEq, Repr

namespace ModelError

def message : ModelError → String
  | .blankIri => "invalid argument: iri cannot be empty"
  | .noOperands t => "invalid argument: " ++ t.name ++ " requires at least one operand"
  | .emptyChain => "invalid argument: property chain cannot be empty"
  | .duplicateOntology id => "duplicate ontology: " ++ id
  | .unknownOntology id => "unknown ontology: " ++ id

end ModelError

/-- What can go wrong in an analysis or with its options. -/
inductive AnalysisError where
  | blankNamespace
  | rootNotEntailment
  | failed (cause : ModelError)
  | unreadable
  | malformed
  deriving DecidableEq, Repr

namespace AnalysisError

/-- The text of an error. Nothing is said about files that cannot be read and texts that are not
well formed. -/
def message? : AnalysisError → Option String
  | .blankNamespace => some "Invalid argument: staging_namespace cannot be empty"
  | .rootNotEntailment => some "Invalid argument: explanation root must be an entailment"
  | .failed cause => some ("Runtime failure: " ++ cause.message)
  | .unreadable => none
  | .malformed => none

end AnalysisError

end OwlStructure
