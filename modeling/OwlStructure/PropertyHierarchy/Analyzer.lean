import OwlStructure.Library
import OwlStructure.PropertyHierarchy.Composite
import OwlStructure.PropertyHierarchy.Equivalence

/-!
Analyzers of the property hierarchy of one ontology. Each result is worked out when it is first
asked for and kept until the analyzer is invalidated; an analyzer does not notice changes of the
ontology by itself. Equivalence classes are not kept.
-/
namespace OwlStructure

/-- Whether the imports closure of an ontology is analyzed, or the ontology alone. -/
inductive ImportScope where
  | included
  | excluded
  deriving DecidableEq, Repr

structure AnalyzerConfig where
  imports : ImportScope
  deriving DecidableEq, Repr

instance : Inhabited AnalyzerConfig := ⟨⟨.included⟩⟩

def AnalyzerConfig.outline (c : AnalyzerConfig) : Outline :=
  .record "AnalyzerConfig" [
    ("imports", match c.imports with
      | .included => .word "Included"
      | .excluded => .word "Excluded")]

/-- An analyzer, with the results that it keeps and the counts of results worked out and of
invalidations. -/
structure Analyzer where
  ontology : OntologyRef
  config : AnalyzerConfig
  composite : Option (SortedSet ObjectPropertyExpression)
  direct : Option PropertyMap
  closure : Option PropertyMap
  nonSimple : Option (SortedSet ObjectPropertyExpression)
  ordering : Option PropertyMap
  rebuilds : Nat
  invalidations : Nat

namespace Analyzer

def new (ontology : OntologyRef) (config : AnalyzerConfig) : Analyzer :=
  ⟨ontology, config, none, none, none, none, none, 0, 0⟩

/-- The ontologies that are analyzed. -/
def scope (an : Analyzer) (l : Library) : List Ontology :=
  match an.config.imports with
  | .included => l.importsClosure an.ontology
  | .excluded => [l.get an.ontology]

/-- The axioms that are analyzed. -/
def axioms (an : Analyzer) (l : Library) : List Axiom := (an.scope l).flatMap Ontology.axioms

def compositeProperties (an : Analyzer) (l : Library) :
    SortedSet ObjectPropertyExpression × Analyzer :=
  match an.composite with
  | some kept => (kept, an)
  | none =>
    let result := PropertyHierarchy.composite (an.axioms l)
    (result, { an with composite := some result, rebuilds := an.rebuilds + 1 })

def directHierarchy (an : Analyzer) (l : Library) : PropertyMap × Analyzer :=
  match an.direct with
  | some kept => (kept, an)
  | none =>
    let result := PropertyHierarchy.direct (an.axioms l)
    (result, { an with direct := some result, rebuilds := an.rebuilds + 1 })

def hierarchyClosure (an : Analyzer) (l : Library) : PropertyMap × Analyzer :=
  let (direct, an) := an.directHierarchy l
  match an.closure with
  | some kept => (kept, an)
  | none =>
    let result := PropertyHierarchy.closure (an.axioms l) direct
    (result, { an with closure := some result, rebuilds := an.rebuilds + 1 })

def nonSimpleProperties (an : Analyzer) (l : Library) :
    SortedSet ObjectPropertyExpression × Analyzer :=
  let (composite, an) := an.compositeProperties l
  let (closed, an) := an.hierarchyClosure l
  match an.nonSimple with
  | some kept => (kept, an)
  | none =>
    let result := PropertyHierarchy.nonSimple composite closed
    (result, { an with nonSimple := some result, rebuilds := an.rebuilds + 1 })

def partialOrdering (an : Analyzer) (l : Library) : PropertyMap × Analyzer :=
  let (direct, an) := an.directHierarchy l
  match an.ordering with
  | some kept => (kept, an)
  | none =>
    let result := PropertyHierarchy.ordering (an.axioms l) direct
    (result, { an with ordering := some result, rebuilds := an.rebuilds + 1 })

def isComposite (an : Analyzer) (l : Library) (p : ObjectPropertyExpression) : Bool × Analyzer :=
  let (composite, an) := an.compositeProperties l
  (decide (p.simplified ∈ composite), an)

def isNonSimple (an : Analyzer) (l : Library) (p : ObjectPropertyExpression) : Bool × Analyzer :=
  let (nonSimple, an) := an.nonSimpleProperties l
  (decide (p.simplified ∈ nonSimple), an)

def isSubPropertyOf (an : Analyzer) (l : Library) (p q : ObjectPropertyExpression) :
    Bool × Analyzer :=
  let (closed, an) := an.hierarchyClosure l
  (PropertyHierarchy.isAtOrBelow closed p q, an)

/-- The first property stands at or below the second in the partial ordering. -/
def isLessThan (an : Analyzer) (l : Library) (p q : ObjectPropertyExpression) : Bool × Analyzer :=
  let (closed, an) := an.partialOrdering l
  (PropertyHierarchy.isAtOrBelow closed p q, an)

def equivalents (an : Analyzer) (l : Library) : List (SortedSet ObjectPropertyExpression) :=
  PropertyHierarchy.equivalenceClasses (an.axioms l)

/-- Gives up every result that is kept. -/
def invalidate (an : Analyzer) : Analyzer :=
  { new an.ontology an.config with
    rebuilds := an.rebuilds, invalidations := an.invalidations + 1 }

/-- The outline names the results that have to be worked out at the next query. -/
def outline (an : Analyzer) : Outline :=
  .record "PropertyHierarchyAnalyzer" [
    ("ontology", an.ontology.id.outline),
    ("config", an.config.outline),
    ("dirty", .record "DirtyFlags" [
      ("composite", .bool an.composite.isNone),
      ("hierarchy", .bool an.direct.isNone),
      ("closure", .bool an.closure.isNone),
      ("non_simple", .bool an.nonSimple.isNone),
      ("partial_ordering", .bool an.ordering.isNone)])]

/-! ### Queries -/

/-- What an analyzer can be asked, or told to do. -/
inductive Query where
  | composite
  | hierarchy
  | closure
  | nonSimple
  | ordering
  | equivalents
  | isComposite (p : ObjectPropertyExpression)
  | isNonSimple (p : ObjectPropertyExpression)
  | isSub (p q : ObjectPropertyExpression)
  | isLess (p q : ObjectPropertyExpression)
  | invalidate
  | stats
  | config
  | ontology
  | outline

inductive Answer where
  | properties (set : SortedSet ObjectPropertyExpression)
  | relation (map : PropertyMap)
  | classes (sets : List (SortedSet ObjectPropertyExpression))
  | truth (value : Bool)
  | done
  | stats (rebuilds invalidations : Nat)
  | config (options : AnalyzerConfig)
  | ontology (id : Iri)
  | outline (shape : Outline)

/-- The answer to a query over a library, and the analyzer afterwards. -/
def answer (an : Analyzer) (l : Library) : Query → Answer × Analyzer
  | .composite => (an.compositeProperties l).map .properties id
  | .hierarchy => (an.directHierarchy l).map .relation id
  | .closure => (an.hierarchyClosure l).map .relation id
  | .nonSimple => (an.nonSimpleProperties l).map .properties id
  | .ordering => (an.partialOrdering l).map .relation id
  | .equivalents => (.classes (an.equivalents l), an)
  | .isComposite p => (an.isComposite l p).map .truth id
  | .isNonSimple p => (an.isNonSimple l p).map .truth id
  | .isSub p q => (an.isSubPropertyOf l p q).map .truth id
  | .isLess p q => (an.isLessThan l p q).map .truth id
  | .invalidate => (.done, an.invalidate)
  | .stats => (.stats an.rebuilds an.invalidations, an)
  | .config => (.config an.config, an)
  | .ontology => (.ontology an.ontology.id, an)
  | .outline => (.outline an.outline, an)

end Analyzer

end OwlStructure
