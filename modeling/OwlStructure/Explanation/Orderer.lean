import OwlStructure.Explanation.Placement
import OwlStructure.Explanation.Seeds
import OwlStructure.Library

/-!
Builders of explanations. A justification is staged in an ontology of its own, whose IRI is the
namespace of the options followed by a number; the ontology leaves the library again when the tree
is built. A builder keeps what it found out about a justification until it is given another, and
the report of its last success.
-/
namespace OwlStructure

/-- Where a justification was staged, and how many of its axioms were placed below the root by the
entities they explain and how many were left over. -/
structure BuildReport where
  stagingId : Iri
  placed : Nat
  leftovers : Nat
  deriving DecidableEq, Repr

/-- A builder, with the map of the justification that it was last given and the axioms that it
placed of it. -/
structure ExplanationOrderer where
  config : ExplanationConfig
  map : AxiomMap
  consumed : SortedSet Axiom
  lastReport : Option BuildReport

namespace ExplanationOrderer

def new (config : ExplanationConfig) : ExplanationOrderer := ⟨config, .empty, ∅, none⟩

/-- A builder with the given options, if they are good. -/
def ofConfig? (config : ExplanationConfig) : Except AnalysisError ExplanationOrderer :=
  config.check?.map new

/-- The IRI of the staging ontology with a number. -/
def stagingId (o : ExplanationOrderer) (number : Nat) : Iri :=
  ⟨o.config.stagingNamespace ++ number.repr⟩

/-- Forgets the justification that the builder was last given. -/
def reset (o : ExplanationOrderer) : ExplanationOrderer := { o with map := .empty, consumed := ∅ }

/-- The tree of a staged justification when some axioms count as placed already, the axioms that are
placed then, and the number of those left over. -/
def build (s : Staging) (consumed : SortedSet Axiom) (entailment : Axiom) :
    ExplanationTree × SortedSet Axiom × Nat :=
  let seeds := Seeds.ofKind entailment.kind
  let p := s.placement consumed entailment seeds.source
  let rest := s.leftovers p.consumed seeds.target
  (.node (.entailment entailment) (p.children ++ rest.map fun a => .node (.justification a) []),
    p.consumed, rest.length)

/-- Explains an entailment by a justification that is staged under a number. It fails when the IRI
of the staging ontology is taken; then nothing is staged and the last report stays. -/
def order (o : ExplanationOrderer) (l : Library) (number : Nat) (entailment : Axiom)
    (justification : List Axiom) :
    Except AnalysisError ExplanationTree × ExplanationOrderer × Library :=
  let axioms := SortedSet.ofList justification
  let id := o.stagingId number
  let o := o.reset
  match l.create? id with
  | .error e => (.error (.failed e), o, l)
  | .ok (r, l) =>
    let (_, l) := l.addAll r axioms.toList
    let map := AxiomMap.build axioms.toList
    let (tree, consumed, leftovers) :=
      build ⟨o.config, axioms, (l.get r).index, map⟩ o.consumed entailment
    let o := { o with map, consumed }
    match l.unregister? id with
    | .error e => (.error (.failed e), o, l)
    | .ok (_, l) => (.ok tree, { o with lastReport := some ⟨id, consumed.size, leftovers⟩ }, l)

end ExplanationOrderer

end OwlStructure
