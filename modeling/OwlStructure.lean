import OwlStructure.Axiom.Basic
import OwlStructure.Axiom.Fingerprint
import OwlStructure.Axiom.Kind
import OwlStructure.Axiom.Outline
import OwlStructure.AxiomIndex
import OwlStructure.AxiomType
import OwlStructure.Collections.Components
import OwlStructure.Collections.Count
import OwlStructure.Collections.MaximalSets
import OwlStructure.Collections.Reachability
import OwlStructure.Collections.SortKey
import OwlStructure.Collections.SortedMap
import OwlStructure.Collections.SortedSet
import OwlStructure.Encoding.Axiom
import OwlStructure.Encoding.ClassExpression
import OwlStructure.Encoding.Entity
import OwlStructure.Encoding.Explanation
import OwlStructure.Encoding.Options
import OwlStructure.Encoding.Stats
import OwlStructure.Entity
import OwlStructure.Error
import OwlStructure.Explanation.Config
import OwlStructure.Explanation.Orderer
import OwlStructure.Explanation.Placement
import OwlStructure.Explanation.Seeds
import OwlStructure.Explanation.Siblings
import OwlStructure.Explanation.Sides
import OwlStructure.Explanation.Tree
import OwlStructure.Expression.ClassExpression
import OwlStructure.Expression.ClassTerm
import OwlStructure.Expression.Individual
import OwlStructure.Expression.Literal
import OwlStructure.Expression.Property
import OwlStructure.Iri
import OwlStructure.Json.Basic
import OwlStructure.Json.Printer
import OwlStructure.Json.Reader
import OwlStructure.Json.Shape
import OwlStructure.Json.Token
import OwlStructure.Library
import OwlStructure.Memo.Handles
import OwlStructure.Memo.Recent
import OwlStructure.Memo.SignatureCache
import OwlStructure.ModelObject
import OwlStructure.Ontology
import OwlStructure.Outline
import OwlStructure.Proofs.Collections.SortedMap
import OwlStructure.Proofs.Collections.SortedSet
import OwlStructure.Proofs.Explanation.Tree
import OwlStructure.Proofs.Store.Edits
import OwlStructure.Proofs.Store.Index
import OwlStructure.PropertyHierarchy.Analyzer
import OwlStructure.PropertyHierarchy.Closure
import OwlStructure.PropertyHierarchy.Composite
import OwlStructure.PropertyHierarchy.Direct
import OwlStructure.PropertyHierarchy.Equivalence
import OwlStructure.Signature
import OwlStructure.Text.Blank
import OwlStructure.Text.CodeTable
import OwlStructure.Text.DefaultIgnorable
import OwlStructure.Text.GraphemeExtend
import OwlStructure.Text.Printable
import OwlStructure.Vocabulary
import OwlStructure.Workspace
import OwlStructure.Proofs.Explanation.Placement
import OwlStructure.Proofs.Explanation.Building
import OwlStructure.Proofs.Collections.Reachability
import OwlStructure.Proofs.Store.Imports
import OwlStructure.Proofs.Collections.FirstOccurrence
import OwlStructure.Proofs.Store.ImportsClosure
import OwlStructure.Proofs.PropertyHierarchy.Scope
import OwlStructure.Proofs.PropertyHierarchy.Closure
import OwlStructure.Proofs.Components.Path
import OwlStructure.Proofs.Components.Frames
import OwlStructure.Proofs.Components.Strong
import OwlStructure.Proofs.Collections.MaximalSets
import OwlStructure.Proofs.PropertyHierarchy.Equivalence
import OwlStructure.Proofs.Expression.Property
import OwlStructure.Proofs.PropertyHierarchy.Composite
import OwlStructure.Proofs.PropertyHierarchy.Inversion
import OwlStructure.Proofs.PropertyHierarchy.Simplicity
import OwlStructure.Proofs.Explanation.Candidates
import OwlStructure.Proofs.Explanation.Reached
import OwlStructure.Proofs.Explanation.Determinism
import OwlStructure.Proofs.PropertyHierarchy.CompositeNames
import OwlStructure.Proofs.PropertyHierarchy.KeptResults
import OwlStructure.Proofs.Json.Layout
import OwlStructure.Proofs.Encoding.Entity
import OwlStructure.Proofs.Encoding.ClassExpression
import OwlStructure.Proofs.Encoding.Axiom
import OwlStructure.Proofs.Encoding.Explanation
import OwlStructure.Proofs.Json.Names
import OwlStructure.Proofs.Encoding.Root
import OwlStructure.Proofs.PropertyHierarchy.ChainOrder
import OwlStructure.Proofs.PropertyHierarchy.Mirroring
import OwlStructure.Proofs.Signature.Renaming
import OwlStructure.Proofs.Signature.Support
import OwlStructure.Proofs.Order.Lexicographic
import OwlStructure.Proofs.Order.ModelObject
import OwlStructure.Proofs.Store.Revision
import OwlStructure.Proofs.Explanation.Staging
import OwlStructure.Proofs.Memo.Recent
import OwlStructure.Proofs.Memo.SignatureCache
import OwlStructure.Proofs.Expression.Flattening
import OwlStructure.Proofs.PropertyHierarchy.NestedInverses
import OwlStructure.Proofs.PropertyHierarchy.FlattenedGraphs
import OwlStructure.Proofs.PropertyHierarchy.Monotonicity
import OwlStructure.Proofs.PropertyHierarchy.CompositeSimplicity
import OwlStructure.Proofs.Json.Compact
import OwlStructure.Proofs.Explanation.Nesting
import OwlStructure.Proofs.Explanation.Chains
import OwlStructure.Proofs.Json.Nesting
import OwlStructure.Proofs.Encoding.Nesting
import OwlStructure.Proofs.Encoding.Stats
import OwlStructure.Proofs.Encoding.Rereading
import OwlStructure.Proofs.Collections.StableSort
import OwlStructure.Proofs.Explanation.Siblings
import OwlStructure.Proofs.Explanation.Discovery
import OwlStructure.Proofs.Explanation.Edges
import OwlStructure.Proofs.Text.Numbers
import OwlStructure.IndividualHistory
import OwlStructure.Proofs.Signature.Freshness
import OwlStructure.Proofs.Collections.MoveToFront
import OwlStructure.Proofs.Memo.Recency
import OwlStructure.Proofs.Store.Subjects
import OwlStructure.Proofs.PropertyHierarchy.Indexes
import OwlStructure.Proofs.Encoding.Options
import OwlStructure.Proofs.Explanation.Sources
import OwlStructure.Proofs.Expression.Towers
import OwlStructure.Proofs.Axiom.Fingerprint
import OwlStructure.Proofs.Text.ByteOffsets
import OwlStructure.Proofs.Iri.Parts
import OwlStructure.Proofs.Components.Turns
import OwlStructure.Proofs.Explanation.Calls
