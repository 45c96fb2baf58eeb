import OwlStructure.AxiomIndex
import OwlStructure.Collections.Distinct
import OwlStructure.Signature
import OwlStructure.Proofs.Collections.SortedMap

/-!
The index of an ontology refines one list of axioms. Each of its three maps files the members of the
list under their keys, in the order of the list; a key that no member has is missing from the map.
-/
namespace OwlStructure.AxiomIndex

variable {κ : Type u} [Keyed κ]

/-- A bucket of axioms as a map holds it: an empty one is missing. -/
def bucket : List Axiom → Option (List Axiom)
  | [] => none
  | a :: l => some (a :: l)

@[simp] theorem bucket_getD (l : List Axiom) : (bucket l).getD [] = l := by cases l <;> rfl

theorem bucket_eq_some {l l' : List Axiom} : bucket l = some l' ↔ l = l' ∧ l ≠ [] := by
  cases l <;> simp [bucket]

theorem addToBucket_bucket {a : Axiom} {l : List Axiom} (h : a ∉ l) :
    addToBucket a (bucket l) = bucket (l ++ [a]) := by
  cases l with
  | nil => rfl
  | cons b l => simp only [bucket, addToBucket, if_neg h, List.cons_append]

theorem dropFromBucket_bucket (a : Axiom) (l : List Axiom) :
    dropFromBucket a (bucket l) = bucket (l.erase a) := by
  cases l with
  | nil => rfl
  | cons b l =>
    simp only [bucket, dropFromBucket]
    cases (b :: l).erase a <;> rfl

theorem addToBucket_idem (a : Axiom) (b : Option (List Axiom)) :
    addToBucket a (addToBucket a b) = addToBucket a b := by
  cases b with
  | none => simp [addToBucket]
  | some l => by_cases h : a ∈ l <;> simp [addToBucket, h]

/-- A map files a list of axioms: under each key, in order, the members that have the key. -/
def Files (m : SortedMap κ (List Axiom)) (has : κ → Axiom → Bool) (l : List Axiom) : Prop :=
  ∀ k, m.find? k = bucket (l.filter (has k))

namespace Files

variable {m : SortedMap κ (List Axiom)} {has : κ → Axiom → Bool} {l : List Axiom} {a : Axiom}
  {keys : List κ}

theorem empty (has : κ → Axiom → Bool) : Files ∅ has [] := fun _ => rfl

theorem getD_find? (h : Files m has l) (k : κ) : (m.find? k).getD [] = l.filter (has k) := by
  rw [h k, bucket_getD]

theorem mem_keys (h : Files m has l) (k : κ) : k ∈ m.keys ↔ ∃ a ∈ l, has k a = true := by
  rw [SortedMap.mem_keys_iff, h k]
  simp only [bucket_eq_some, exists_eq_left', ne_eq, List.filter_eq_nil_iff]
  simp

/-- A key may be given more than once; the axiom is filed under it once. -/
theorem addUnder (h : Files m has l) (ha : a ∉ l) (hk : ∀ k, k ∈ keys ↔ has k a = true) :
    Files (addUnder m keys a) has (l ++ [a]) := by
  intro k
  have hs := SortedMap.find?_foldl_alter keys (addToBucket_idem a (m.find? k))
  have hf : a ∉ l.filter (has k) := fun hm => ha (List.mem_filter.1 hm).1
  by_cases hm : k ∈ keys
  · have hp := (hk k).1 hm
    rw [AxiomIndex.addUnder, hs.1 hm, h k, addToBucket_bucket hf, List.filter_append]
    simp [hp]
  · have hp : has k a = false := by simpa [hk k] using hm
    rw [AxiomIndex.addUnder, hs.2 hm, h k, List.filter_append]
    simp [hp]

/-- The keys of a removed axiom may be found in any way, and be given more than once. -/
theorem dropUnder (h : Files m has l) (hl : l.Nodup)
    (hk : ∀ k, k ∈ keys ↔ has k a = true) : Files (dropUnder m keys a) has (l.erase a) := by
  intro k
  have hb : (l.filter (has k)).Nodup := hl.filter _
  have he : (l.erase a).filter (has k) = (l.filter (has k)).erase a := by
    rw [hl.erase_eq_filter, hb.erase_eq_filter, List.filter_filter, List.filter_filter]
    simp only [Bool.and_comm]
  have hn : a ∉ (l.filter (has k)).erase a := hb.not_mem_erase
  have hd : dropFromBucket a (m.find? k) = bucket ((l.filter (has k)).erase a) := by
    rw [h k, dropFromBucket_bucket]
  have hs := SortedMap.find?_foldl_alter keys (m := m) (k := k) (f := dropFromBucket a)
    (by rw [hd, dropFromBucket_bucket, List.erase_of_not_mem hn])
  by_cases hm : k ∈ keys
  · rw [AxiomIndex.dropUnder, hs.1 hm, hd, he]
  · have hf : a ∉ l.filter (has k) := fun hmem => hm ((hk k).2 (List.mem_filter.1 hmem).2)
    rw [AxiomIndex.dropUnder, hs.2 hm, h k, he, List.erase_of_not_mem hf]

/-- The buckets that hold a filed axiom are those of its keys. -/
theorem mem_keysOf (h : Files m has l) (ha : a ∈ l) (k : κ) :
    k ∈ keysOf m a ↔ has k a = true := by
  simp only [keysOf, List.mem_map, List.mem_filter, decide_eq_true_eq, Prod.exists,
    exists_and_right, exists_eq_right, SortedMap.mem_entries_iff, h k, bucket_eq_some]
  constructor
  · rintro ⟨_, ⟨rfl, _⟩, hm⟩
    exact (List.mem_filter.1 hm).2
  · intro hp
    have hm : a ∈ l.filter (has k) := List.mem_filter.2 ⟨ha, hp⟩
    exact ⟨_, ⟨rfl, List.ne_nil_of_mem hm⟩, hm⟩

end Files

/-! ### The list that an index stands for -/

def hasType (t : AxiomType) (a : Axiom) : Bool := decide (a.type = t)

def isAbout (e : Entity) (a : Axiom) : Bool := decide (e ∈ a.defining)

def mentions (e : Entity) (a : Axiom) : Bool := decide (e ∈ references a)

/-- An index represents a list without repetition when it holds the list and files it three ways. -/
structure Represents (x : AxiomIndex) (l : List Axiom) : Prop where
  axioms_eq : x.axioms = l
  nodup : l.Nodup
  byType : Files x.byType hasType l
  bySubject : Files x.bySubject isAbout l
  byReference : Files x.byReference mentions l

namespace Represents

variable {x : AxiomIndex} {l : List Axiom}

theorem empty : AxiomIndex.empty.Represents [] :=
  ⟨rfl, List.nodup_nil, .empty _, .empty _, .empty _⟩

theorem insert (h : x.Represents l) (a : Axiom) :
    (x.insert a (references a)).2.Represents (appendNew l a) := by
  unfold AxiomIndex.insert AxiomIndex.contains appendNew
  rw [h.axioms_eq]
  by_cases ha : a ∈ l
  · simpa only [ha, decide_true, ↓reduceIte] using h
  · simp only [ha, decide_false, Bool.false_eq_true, ↓reduceIte]
    exact
      { axioms_eq := rfl
        nodup := List.nodup_append.2
          ⟨h.nodup, by simp, fun b hb c hc e => ha (List.mem_singleton.1 hc ▸ e ▸ hb)⟩
        byType := h.byType.addUnder ha fun k => by simp [hasType, eq_comm]
        bySubject := h.bySubject.addUnder ha fun k => by simp [isAbout]
        byReference := h.byReference.addUnder ha fun k => by simp [mentions] }

theorem remove (h : x.Represents l) (a : Axiom) : (x.remove a).2.Represents (l.erase a) := by
  unfold AxiomIndex.remove AxiomIndex.contains
  rw [h.axioms_eq]
  by_cases ha : a ∈ l
  · simp only [ha, decide_true, ↓reduceIte]
    exact
      { axioms_eq := rfl
        nodup := h.nodup.erase a
        byType := h.byType.dropUnder h.nodup fun k => by simp [hasType, eq_comm]
        bySubject := h.bySubject.dropUnder h.nodup fun k => by simp [isAbout]
        byReference := h.byReference.dropUnder h.nodup (h.byReference.mem_keysOf ha) }
  · simpa only [ha, decide_false, Bool.false_eq_true, ↓reduceIte, List.erase_of_not_mem ha] using h

theorem ofType_eq (h : x.Represents l) (t : AxiomType) : x.ofType t = l.filter (hasType t) :=
  h.byType.getD_find? t

theorem about_eq (h : x.Represents l) (e : Entity) : x.about e = l.filter (isAbout e) :=
  h.bySubject.getD_find? e

theorem mentioning_eq (h : x.Represents l) (e : Entity) :
    x.mentioning e = l.filter (mentions e) := h.byReference.getD_find? e

theorem mem_mentioned (h : x.Represents l) (e : Entity) :
    e ∈ x.mentioned ↔ ∃ a ∈ l, e ∈ references a := by
  rw [mentioned, h.byReference.mem_keys]
  simp only [mentions, decide_eq_true_eq]

theorem size_eq (h : x.Represents l) : x.size = l.length := by rw [size, h.axioms_eq]

theorem find?_typeCounts (h : x.Represents l) (t : AxiomType) :
    x.typeCounts.find? t =
      if ∃ a ∈ l, a.type = t then some (l.countP (hasType t)) else none := by
  rw [typeCounts, SortedMap.find?_mapValues, h.byType t]
  split
  · next ht =>
    obtain ⟨a, ha, hat⟩ := ht
    have hm : a ∈ l.filter (hasType t) := List.mem_filter.2 ⟨ha, decide_eq_true hat⟩
    rw [bucket_eq_some.2 ⟨rfl, List.ne_nil_of_mem hm⟩, Option.map_some,
      List.countP_eq_length_filter]
  · next ht =>
    have hn : l.filter (hasType t) = [] := by
      rw [List.filter_eq_nil_iff]
      intro a ha hat
      exact ht ⟨a, ha, of_decide_eq_true hat⟩
    rw [hn]
    rfl

end Represents

end OwlStructure.AxiomIndex
