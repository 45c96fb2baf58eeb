import OwlStructure.Encoding.Stats
import OwlStructure.Proofs.Collections.SortedMap
import OwlStructure.Proofs.Json.Nesting

/-!
The books of caches and ontologies are restored from their JSON, as long as every count has 64 bits.
Every count that is read has.
-/
namespace OwlStructure

open Json

/-- A count has 64 bits. -/
def IsCount (n : Nat) : Prop := n < 18446744073709551616

theorem countOfJson?_int {n : Nat} (h : IsCount n) : countOfJson? (.int n) = some n := if_pos h

theorem isCount_of_countOfJson? {j : Json} {n : Nat} (h : countOfJson? j = some n) : IsCount n := by
  unfold countOfJson? natBelow? at h
  split at h
  · split at h
    · next hn =>
      cases h
      exact hn
    · cases h
  · cases h

/-! ### Caches -/

namespace CacheStats

structure HasCounts (s : CacheStats) : Prop where
  hits : IsCount s.hits
  misses : IsCount s.misses
  evictions : IsCount s.evictions

variable {s : CacheStats} {limit : Nat} {j : Json}

theorem restores (h : s.HasCounts) : Restores decode? s.encode s := by
  have hfields : s.encode.record? ["hits", "misses", "evictions"] =
      some [.int s.hits, .int s.misses, .int s.evictions] :=
    record?_record [("hits", .int s.hits), ("misses", .int s.misses),
      ("evictions", .int s.evictions)] (by simp)
  refine .nested (n := 0) rfl rfl fun limit => ?_
  simp only [decode?, hfields, countOfJson?_int h.hits, countOfJson?_int h.misses,
    countOfJson?_int h.evictions, if_pos (Nat.zero_le limit)]
  rfl

/-- What books are read from: the counts are the fields of a record. -/
theorem exists_of_decode? (h : decode? limit j = some s) :
    ∃ n a b c, limit = n + 1 ∧ j.record? ["hits", "misses", "evictions"] = some [a, b, c] ∧
      countOfJson? a = some s.hits ∧ countOfJson? b = some s.misses ∧
      countOfJson? c = some s.evictions := by
  cases limit with
  | zero => cases h
  | succ n =>
    simp only [decode?] at h
    split at h
    · next a b c hfields =>
      obtain ⟨hits, misses, evictions, ha, hb, hc, rfl⟩ := exists_of_triple h
      exact ⟨n, a, b, c, rfl, hfields, ha, hb, hc⟩
    · cases h

theorem hasCounts_of_decode? (h : decode? limit j = some s) : s.HasCounts := by
  obtain ⟨-, a, b, c, -, -, ha, hb, hc⟩ := exists_of_decode? h
  exact ⟨isCount_of_countOfJson? ha, isCount_of_countOfJson? hb, isCount_of_countOfJson? hc⟩

theorem fits : Fits decode? encode := by
  intro limit j s h
  obtain ⟨n, a, b, c, rfl, hfields, -⟩ := exists_of_decode? h
  refine nestsWithin_record hfields ?_
  exact .cons (nestsWithin_flat rfl) (.cons (nestsWithin_flat rfl)
    (.cons (nestsWithin_flat rfl) .nil))

end CacheStats

/-! ### Ontologies -/

namespace OntologyStats

structure HasCounts (s : OntologyStats) : Prop where
  axioms : IsCount s.axiomCount
  entities : IsCount s.entityCount
  types : ∀ e ∈ s.axiomsByType.entries, IsCount e.2
  imports : IsCount s.importCount
  revision : IsCount s.revision

theorem depth_encodeCounts (m : SortedMap AxiomType Nat) : (encodeCounts m).depth = 1 := by
  have hitems : depthItems (m.entries.map fun e => Json.int e.2) ≤ 0 := by
    rw [depthItems_le_iff]
    intro j hj
    obtain ⟨e, -, rfl⟩ := List.mem_map.1 hj
    exact Nat.le_refl 0
  rw [encodeCounts, depth_record, List.map_map]
  exact congrArg (· + 1) (Nat.le_zero.1 hitems)

theorem restores_counts {m : SortedMap AxiomType Nat} (h : ∀ e ∈ m.entries, IsCount e.2) :
    Restores decodeCounts? (encodeCounts m) m := by
  refine .nested (n := 0) (depth_encodeCounts m) rfl fun limit => ?_
  have hread : (m.entries.map fun e => (e.1.name, Json.int e.2)).mapM decodeCount? =
      some m.entries := by
    refine mapM_map_eq_some fun e he => ?_
    simp only [decodeCount?, AxiomType.ofName?_name, countOfJson?_int (h e he)]
    rfl
  rw [if_pos (Nat.zero_le limit), encodeCounts, record, decodeCounts?, members?_map,
    Option.bind_some, hread, Option.map_some, SortedMap.ofList_entries]

variable {s : OntologyStats} {limit : Nat} {j : Json}

theorem exists_of_decodeCounts? {m : SortedMap AxiomType Nat}
    (h : decodeCounts? limit j = some m) :
    ∃ n members l, limit = n + 1 ∧ j = .obj members ∧ (∀ e ∈ l, IsCount e.2) ∧ m = .ofList l := by
  unfold decodeCounts? at h
  split at h
  · next n members =>
    obtain ⟨fields, -, h⟩ := Option.bind_eq_some_iff.1 h
    obtain ⟨l, hl, rfl⟩ := Option.map_eq_some_iff.1 h
    refine ⟨n, members, l, rfl, rfl, forall_of_mapM (fun field e he => ?_) hl, rfl⟩
    obtain ⟨t, n, -, hn, rfl⟩ := exists_of_pair he
    exact isCount_of_countOfJson? hn
  · cases h

theorem isCount_of_decodeCounts? {m : SortedMap AxiomType Nat}
    (h : decodeCounts? limit j = some m) : ∀ e ∈ m.entries, IsCount e.2 := by
  obtain ⟨-, -, l, -, -, hl, rfl⟩ := exists_of_decodeCounts? h
  exact fun e he => hl e (SortedMap.mem_of_mem_ofList he)

theorem fits_counts : Fits decodeCounts? encodeCounts := by
  intro limit j m h
  obtain ⟨n, members, -, rfl, rfl, -⟩ := exists_of_decodeCounts? h
  unfold NestsWithin
  rw [depth_encodeCounts]
  exact ⟨Nat.succ_pos n, Nat.succ_pos _⟩

theorem restores (h : s.HasCounts) : Restores decode? s.encode s := by
  have hfields : s.encode.record?
      ["axiom_count", "entity_count", "axioms_by_type", "import_count", "revision"] =
      some [.int s.axiomCount, .int s.entityCount, encodeCounts s.axiomsByType,
        .int s.importCount, .int s.revision] :=
    record?_record [("axiom_count", .int s.axiomCount), ("entity_count", .int s.entityCount),
      ("axioms_by_type", encodeCounts s.axiomsByType), ("import_count", .int s.importCount),
      ("revision", .int s.revision)] (by simp)
  have hdepth : s.encode.depth = 1 + 1 := by
    simp [encode, depthItems, depth, depth_encodeCounts]
  refine .nested hdepth rfl fun limit => ?_
  simp only [decode?, hfields, countOfJson?_int h.axioms, countOfJson?_int h.entities,
    restores_counts h.types limit, countOfJson?_int h.imports, countOfJson?_int h.revision,
    depth_encodeCounts]
  split <;> rfl

/-- What books are read from: the counts are fields of a record, and those by type an object. -/
theorem exists_of_decode? (h : decode? limit j = some s) :
    ∃ n a e t i r, limit = n + 1 ∧
      j.record? ["axiom_count", "entity_count", "axioms_by_type", "import_count", "revision"] =
        some [a, e, t, i, r] ∧
      countOfJson? a = some s.axiomCount ∧ countOfJson? e = some s.entityCount ∧
      decodeCounts? n t = some s.axiomsByType ∧ countOfJson? i = some s.importCount ∧
      countOfJson? r = some s.revision := by
  cases limit with
  | zero => cases h
  | succ n =>
    simp only [decode?] at h
    split at h
    · next a e t i r hfields =>
      obtain ⟨axiomCount, ha, h⟩ := Option.bind_eq_some_iff.1 h
      obtain ⟨entityCount, he, h⟩ := Option.bind_eq_some_iff.1 h
      obtain ⟨types, imports, revision, ht, hi, hr, rfl⟩ := exists_of_triple h
      exact ⟨n, a, e, t, i, r, rfl, hfields, ha, he, ht, hi, hr⟩
    · cases h

theorem hasCounts_of_decode? (h : decode? limit j = some s) : s.HasCounts := by
  obtain ⟨n, a, e, t, i, r, -, -, ha, he, ht, hi, hr⟩ := exists_of_decode? h
  exact ⟨isCount_of_countOfJson? ha, isCount_of_countOfJson? he, isCount_of_decodeCounts? ht,
    isCount_of_countOfJson? hi, isCount_of_countOfJson? hr⟩

theorem fits : Fits decode? encode := by
  intro limit j s h
  obtain ⟨n, a, e, t, i, r, rfl, hfields, -, -, ht, -⟩ := exists_of_decode? h
  refine nestsWithin_record hfields ?_
  exact .cons (nestsWithin_flat rfl) (.cons (nestsWithin_flat rfl) (.cons (fits_counts n t _ ht)
    (.cons (nestsWithin_flat rfl) (.cons (nestsWithin_flat rfl) .nil))))

end OntologyStats

end OwlStructure
