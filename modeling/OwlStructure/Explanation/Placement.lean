import OwlStructure.Explanation.AxiomMap
import OwlStructure.Explanation.Config
import OwlStructure.Explanation.Siblings

/-!
The placement of staged axioms in a tree. Starting from an entity, every axiom that explains the
entity becomes a child, and the entities on the right side of that axiom are explained below it.
An axiom is placed once, and never below itself or below an equal entailment.
-/
namespace OwlStructure

/-- A justification that has been staged: its axioms, the index of the ontology they are in, and
their map. -/
structure Staging where
  config : ExplanationConfig
  axioms : SortedSet Axiom
  index : AxiomIndex
  map : AxiomMap

/-- The axioms placed so far, and the children that the node at hand has so far. -/
structure Placement where
  consumed : SortedSet Axiom
  children : List ExplanationTree

namespace Staging

/-- Classes, object and data properties, and named individuals select axioms. -/
def selects : Entity → Bool
  | .namedClass _ | .objectProperty _ | .dataProperty _ | .namedIndividual _ => true
  | _ => false

/-- The staged axioms that explain an entity. -/
def candidates (s : Staging) (e : Entity) : SortedSet Axiom :=
  let filed := SortedSet.ofList (s.map.filedUnder e)
  if selects e then filed.insertAll (s.index.about e) else filed

/-- The entities that an axiom leads to, properties first. -/
def leadsTo (s : Staging) (a : Axiom) : List Entity :=
  let right := (s.map.rightOf a).toList
  right.filter Entity.isProperty ++ right.filter fun e => !e.isProperty

/-- An axiom is passed over when its type passes through, when it has been placed, and when it
stands on the path from the root. -/
def isPassedOver (s : Staging) (path : List Axiom) (consumed : SortedSet Axiom)
    (a : Axiom) : Bool :=
  s.config.isPassThrough a.type || decide (a ∈ consumed) || decide (a ∈ path)

/-- Places the axioms that explain an entity as children of the node at hand, whose path from the
root is given, and what they lead to below them. Each level uses an axiom up, so a depth of one more
than the number of staged axioms is never used up. -/
def explain (s : Staging) : (depth : Nat) → (path : List Axiom) → Entity → Placement → Placement
  | 0, _, _, p => p
  | depth + 1, path, e, p =>
    let placed := (s.candidates e).toList.foldl
      (fun (p : Placement) a =>
        if s.isPassedOver path p.consumed a then p
        else
          let below := (s.leadsTo a).foldl (fun q e' => explain s depth (a :: path) e' q)
            ⟨p.consumed.insert a, []⟩
          ⟨below.consumed, p.children ++ [.node (.justification a) below.children]⟩)
      p
    ⟨placed.consumed, ExplanationTree.sortSiblings placed.children⟩

/-- The placement below an entailment, when some axioms count as placed already. Nothing is placed
without a source. -/
def placement (s : Staging) (consumed : SortedSet Axiom) (entailment : Axiom)
    (source : Option Entity) : Placement :=
  match source with
  | some e => s.explain (s.axioms.size + 1) [entailment] e ⟨consumed, []⟩
  | none => ⟨consumed, []⟩

/-- The axioms that were not placed, those about the target last. -/
def leftovers (s : Staging) (consumed : SortedSet Axiom) (target : Option Entity) : List Axiom :=
  let about := match target with
    | some e => s.index.about e
    | none => []
  let rest := s.axioms.toList.filter fun a => decide (a ∉ consumed)
  rest.filter (fun a => decide (a ∉ about)) ++ rest.filter fun a => decide (a ∈ about)

end Staging

end OwlStructure
