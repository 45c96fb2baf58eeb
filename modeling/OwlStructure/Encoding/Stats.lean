import OwlStructure.Encoding.Axiom
import OwlStructure.Ontology

/-!
The books of caches and ontologies in JSON. Every number has 64 bits. The counts by type are an
object with the names of the types; of two members with one name the later counts.
-/
namespace OwlStructure

open Json

/-- A count has 64 bits. -/
def countOfJson? (j : Json) : Option Nat := j.natBelow? 18446744073709551616

namespace CacheStats

def encode (s : CacheStats) : Json :=
  .record [("hits", .int s.hits), ("misses", .int s.misses), ("evictions", .int s.evictions)]

def decode? : Nat → Json → Option CacheStats
  | _ + 1, j =>
    match j.record? ["hits", "misses", "evictions"] with
    | some [h, m, e] => do some ⟨← countOfJson? h, ← countOfJson? m, ← countOfJson? e⟩
    | _ => none
  | _, _ => none

end CacheStats

namespace OntologyStats

def encodeCounts (m : SortedMap AxiomType Nat) : Json :=
  .record (m.entries.map fun e => (e.1.name, .int e.2))

/-- A type and its count. -/
def decodeCount? (m : String × Json) : Option (AxiomType × Nat) := do
  some (← AxiomType.ofName? m.1, ← countOfJson? m.2)

def decodeCounts? : Nat → Json → Option (SortedMap AxiomType Nat)
  | _ + 1, .obj members => (members? members).bind fun ms => (ms.mapM decodeCount?).map .ofList
  | _, _ => none

def encode (s : OntologyStats) : Json :=
  .record [("axiom_count", .int s.axiomCount), ("entity_count", .int s.entityCount),
    ("axioms_by_type", encodeCounts s.axiomsByType), ("import_count", .int s.importCount),
    ("revision", .int s.revision)]

def decode? : Nat → Json → Option OntologyStats
  | n + 1, j =>
    match j.record?
      ["axiom_count", "entity_count", "axioms_by_type", "import_count", "revision"] with
    | some [a, e, t, i, r] => do
      some ⟨← countOfJson? a, ← countOfJson? e, ← decodeCounts? n t, ← countOfJson? i,
        ← countOfJson? r⟩
    | _ => none
  | _, _ => none

end OntologyStats

end OwlStructure
