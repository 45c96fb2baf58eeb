import OwlStructure.Encoding.Axiom
import OwlStructure.Explanation.Config
import OwlStructure.PropertyHierarchy.Analyzer

/-!
Options in JSON. Every field has a default and may be missing, and an array may leave out fields at
its end. Options are read from a text or from the bytes of a file.
-/
namespace OwlStructure

open Json

/-- The text of a file. Without a file, or if its bytes are not UTF-8, there is none. -/
def fileText? (contents : Option ByteArray) : Except AnalysisError String :=
  match contents.bind String.fromUTF8? with
  | some text => .ok text
  | none => .error .unreadable

/-- A field of the options, or its default if it is missing. -/
def optionField? (read : Json → Option α) (default : α) : Option Json → Option α
  | none => some default
  | some j => read j

namespace ImportScope

def name : ImportScope → String
  | .included => "included"
  | .excluded => "excluded"

def ofName? : String → Option ImportScope
  | "included" => some .included
  | "excluded" => some .excluded
  | _ => none

end ImportScope

namespace AnalyzerConfig

def encode (c : AnalyzerConfig) : Json := .record [("imports", .text c.imports.name)]

def decode? : Nat → Json → Option AnalyzerConfig
  | n + 1, j =>
    match j.fields? ["imports"] true with
    | some [imports] => do
      some ⟨← optionField? (fun j => (unitVariant? n j).bind ImportScope.ofName?)
        (default : AnalyzerConfig).imports imports⟩
    | _ => none
  | _, _ => none

def ofJson? (text : String) : Except AnalysisError AnalyzerConfig :=
  match ofText? decode? text with
  | some c => .ok c
  | none => .error .malformed

def ofFile? (contents : Option ByteArray) : Except AnalysisError AnalyzerConfig :=
  (fileText? contents).bind ofJson?

def toJson (c : AnalyzerConfig) : String := c.encode.indented

end AnalyzerConfig

namespace ExplanationConfig

def encode (c : ExplanationConfig) : Json :=
  .record [("pass_through", .arr (c.passThrough.map AxiomType.encode)),
    ("staging_namespace", .text c.stagingNamespace)]

def decode? : Nat → Json → Option ExplanationConfig
  | n + 1, j =>
    match j.fields? ["pass_through", "staging_namespace"] true with
    | some [types, stagingNamespace] => do
      let defaults : ExplanationConfig := default
      some ⟨← optionField? (listOf? AxiomType.decode? n) defaults.passThrough types,
        ← optionField? text? defaults.stagingNamespace stagingNamespace⟩
    | _ => none
  | _, _ => none

/-- The options that a text writes; a blank namespace is refused. -/
def ofJson? (text : String) : Except AnalysisError ExplanationConfig :=
  match ofText? decode? text with
  | some c => c.check?
  | none => .error .malformed

def ofFile? (contents : Option ByteArray) : Except AnalysisError ExplanationConfig :=
  (fileText? contents).bind ofJson?

def toJson (c : ExplanationConfig) : String := c.encode.indented

end ExplanationConfig

end OwlStructure
