import OwlStructure.Explanation.Orderer
import OwlStructure.PropertyHierarchy.Analyzer

/-!
A workspace: a library, ontologies outside the library, and named analyzers and explanation builders
over them. Ontologies are named by IRI, and one outside the library hides a registered one of the
same IRI. The numbers of staging ontologies are counted here, for all builders together; the counter
wraps around.
-/
namespace OwlStructure

structure Workspace where
  library : Library
  loose : List OntologyRef
  analyzers : List (String × Analyzer)
  orderers : List (String × ExplanationOrderer)
  nextStaging : UInt64

namespace Workspace

def empty (capacity : Nat) : Workspace := ⟨.empty capacity, [], [], [], 0⟩

/-- The ontology that an IRI names. -/
def find? (w : Workspace) (id : Iri) : Option OntologyRef :=
  (w.loose.find? fun r => r.id == id).or (w.library.find? id)

def get (w : Workspace) (r : OntologyRef) : Ontology := w.library.get r

/-- Replaces the library, together with an answer. -/
def change (w : Workspace) (p : α × Library) : α × Workspace := (p.1, { w with library := p.2 })

/-- Makes an ontology outside the library, instead of an earlier one of the same IRI. -/
def addLoose (w : Workspace) (id : Iri) : Workspace :=
  let (r, library) := w.library.standalone id
  { w with library, loose := r :: w.loose.filter fun r => r.id != id }

def create? (w : Workspace) (id : Iri) : Except ModelError (OntologyRef × Workspace) :=
  (w.library.create? id).map w.change

def unregister? (w : Workspace) (id : Iri) : Except ModelError (OntologyRef × Workspace) :=
  (w.library.unregister? id).map w.change

/-- Drops what the shared cache keeps for objects that nothing in the workspace holds any more. -/
def purge (w : Workspace) : Nat × Workspace :=
  let analyzed := w.analyzers.map fun e => e.2.ontology
  w.change (w.library.purge (w.library.registered ++ w.loose ++ analyzed))

/-- Puts a value under a name, instead of what the name stood for. -/
def bind (name : String) (value : α) (l : List (String × α)) : List (String × α) :=
  (name, value) :: l.filter fun e => e.1 != name

def addAnalyzer (w : Workspace) (name : String) (an : Analyzer) : Workspace :=
  { w with analyzers := bind name an w.analyzers }

/-- Asks an analyzer, which keeps its results for the next query. -/
def ask (w : Workspace) (name : String) (an : Analyzer) (q : Analyzer.Query) :
    Analyzer.Answer × Workspace :=
  let (answer, an) := an.answer w.library q
  (answer, w.addAnalyzer name an)

/-- The equivalence classes of several ontologies together. -/
def equivalentsIn (w : Workspace) (refs : List OntologyRef) :
    List (SortedSet ObjectPropertyExpression) :=
  PropertyHierarchy.equivalenceClasses (refs.flatMap fun r => (w.get r).axioms)

def addOrderer (w : Workspace) (name : String) (o : ExplanationOrderer) : Workspace :=
  { w with orderers := bind name o w.orderers }

/-- Explains an entailment. Every attempt takes the next staging number, also one that fails. -/
def order (w : Workspace) (name : String) (o : ExplanationOrderer) (entailment : Axiom)
    (justification : List Axiom) : Except AnalysisError ExplanationTree × Workspace :=
  let (tree, o, library) := o.order w.library w.nextStaging.toNat entailment justification
  (tree, { w with library, nextStaging := w.nextStaging + 1 }.addOrderer name o)

end Workspace

end OwlStructure
