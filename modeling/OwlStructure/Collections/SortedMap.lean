import OwlStructure.Collections.SortedSet

/-!
Sorted maps: association lists whose keys are in strictly ascending order. One operation, `alter`,
changes the value of a key, adds it or drops it; `find?_alter` says what every key holds afterwards.
-/
namespace OwlStructure

universe u v w

variable {κ : Type u} {ν : Type v}

/-- Pairs of keys and values in ascending order of the keys. -/
structure SortedMap (κ : Type u) (ν : Type v) [Keyed κ] where
  entries : List (κ × ν)
  sorted : (entries.map Prod.fst).Pairwise Before

namespace SortedMap

variable [Keyed κ]

def empty : SortedMap κ ν := ⟨[], SortedSet.nil_sorted⟩

instance : EmptyCollection (SortedMap κ ν) := ⟨empty⟩

instance : Inhabited (SortedMap κ ν) := ⟨empty⟩

def size (m : SortedMap κ ν) : Nat := m.entries.length

/-- The keys, in order. -/
def keys (m : SortedMap κ ν) : SortedSet κ := ⟨m.entries.map Prod.fst, m.sorted⟩

def findIn (k : κ) : List (κ × ν) → Option ν
  | [] => none
  | (k', v) :: rest => if compare k k' = .eq then some v else findIn k rest

/-- The value of a key. -/
def find? (m : SortedMap κ ν) (k : κ) : Option ν := findIn k m.entries

def alterIn (k : κ) (f : Option ν → Option ν) : List (κ × ν) → List (κ × ν)
  | [] => (f none).toList.map (k, ·)
  | (k', v) :: rest =>
    match compare k k' with
    | .lt => (f none).toList.map (k, ·) ++ (k', v) :: rest
    | .eq => (f (some v)).toList.map (k', ·) ++ rest
    | .gt => (k', v) :: alterIn k f rest

theorem fst_mem_alterIn {k x : κ} {f : Option ν → Option ν} {l : List (κ × ν)}
    (h : x ∈ (alterIn k f l).map Prod.fst) : x = k ∨ x ∈ l.map Prod.fst := by
  induction l with
  | nil =>
    simp only [alterIn] at h
    cases hf : f none <;> simp_all
  | cons e l ih =>
    obtain ⟨k', v⟩ := e
    rw [alterIn] at h
    split at h
    · cases hf : f none <;> simp_all
    · cases hf : f (some v) <;> simp_all
    · simp only [List.map_cons, List.mem_cons] at h ⊢
      rcases h with h | h
      · exact .inr (.inl h)
      · exact (ih h).imp_right .inr

theorem alterIn_sorted {k : κ} {f : Option ν → Option ν} {l : List (κ × ν)}
    (h : (l.map Prod.fst).Pairwise Before) : ((alterIn k f l).map Prod.fst).Pairwise Before := by
  induction l with
  | nil => simp only [alterIn]; cases f none <;> simp
  | cons e l ih =>
    obtain ⟨k', v⟩ := e
    have hs := List.pairwise_cons.1 h
    rw [alterIn]
    split
    · next hk =>
      cases f none with
      | none => simpa using h
      | some w =>
        refine List.pairwise_cons.2 ⟨fun x hx => ?_, h⟩
        rcases List.mem_cons.1 hx with rfl | hx
        · exact hk
        · exact Before.trans hk (hs.1 x hx)
    · cases f (some v) with
      | none => simpa using hs.2
      | some w => simpa using h
    · next hk =>
      refine List.pairwise_cons.2 ⟨fun x hx => ?_, ih hs.2⟩
      rcases fst_mem_alterIn hx with rfl | hx
      · exact Before.of_gt hk
      · exact hs.1 x hx

/-- Replaces the value of a key, where `none` stands for a missing entry. -/
def alter (m : SortedMap κ ν) (k : κ) (f : Option ν → Option ν) : SortedMap κ ν :=
  ⟨alterIn k f m.entries, alterIn_sorted m.sorted⟩

def insert (m : SortedMap κ ν) (k : κ) (v : ν) : SortedMap κ ν := m.alter k fun _ => some v

/-- The map that gives every key of a set its value under a function. -/
def tabulate (s : SortedSet κ) (f : κ → ν) : SortedMap κ ν :=
  ⟨s.toList.map fun k => (k, f k), by simpa [Function.comp_def] using s.sorted⟩

/-- The map with a function applied to every value. -/
def mapValues {μ : Type w} (m : SortedMap κ ν) (f : ν → μ) : SortedMap κ μ :=
  ⟨m.entries.map fun e => (e.1, f e.2), by simpa [Function.comp_def] using m.sorted⟩

/-- The map of a list of pairs; of two pairs with one key the later counts. -/
def ofList (l : List (κ × ν)) : SortedMap κ ν := l.foldl (fun m e => m.insert e.1 e.2) ∅

theorem findIn_eq_none {k : κ} {l : List (κ × ν)} (h : ∀ x ∈ l.map Prod.fst, Before k x) :
    findIn k l = none := by
  induction l with
  | nil => rfl
  | cons e l ih =>
    have hk : compare k e.1 = .lt := h e.1 (by simp)
    rw [findIn, if_neg (by simp [hk])]
    exact ih fun x hx => h x (List.mem_cons_of_mem _ hx)

theorem findIn_alterIn {k x : κ} {f : Option ν → Option ν} {l : List (κ × ν)}
    (h : (l.map Prod.fst).Pairwise Before) :
    findIn x (alterIn k f l) = if compare x k = .eq then f (findIn k l) else findIn x l := by
  induction l with
  | nil =>
    simp only [alterIn, findIn]
    cases hf : f none <;> simp [findIn]
  | cons e l ih =>
    obtain ⟨k', v⟩ := e
    have hs := List.pairwise_cons.1 h
    rw [alterIn]
    split
    · next hk =>
      have hn : findIn k ((k', v) :: l) = none := findIn_eq_none fun y hy => by
        rcases List.mem_cons.1 hy with rfl | hy
        · exact hk
        · exact Before.trans hk (hs.1 y hy)
      rw [hn]
      cases hf : f none with
      | none =>
        simp only [Option.toList_none, List.map_nil, List.nil_append]
        split
        · next hx => cases Std.LawfulEqCmp.eq_of_compare hx; exact hn
        · rfl
      | some w => simp [findIn]
    · next hk =>
      cases Std.LawfulEqCmp.eq_of_compare hk
      have hn : findIn k l = none := findIn_eq_none fun y hy => hs.1 y hy
      simp only [findIn, hk, if_true]
      cases hf : f (some v) with
      | none =>
        simp only [Option.toList_none, List.map_nil, List.nil_append]
        split
        · next hx => cases Std.LawfulEqCmp.eq_of_compare hx; exact hn
        · rfl
      | some w =>
        simp only [Option.toList_some, List.map_cons, List.map_nil, List.cons_append,
          List.nil_append, findIn]
        split <;> rfl
    · next hk =>
      simp only [findIn]
      rw [ih hs.2]
      have hne : compare k k' ≠ .eq := by simp [hk]
      rw [if_neg hne]
      by_cases hx : compare x k = .eq
      · cases Std.LawfulEqCmp.eq_of_compare hx
        simp [hne]
      · simp [hx]

/-- After `alter`, the key holds the new value and every other key what it held. -/
theorem find?_alter {m : SortedMap κ ν} {k x : κ} {f : Option ν → Option ν} :
    (m.alter k f).find? x = if compare x k = .eq then f (m.find? k) else m.find? x :=
  findIn_alterIn m.sorted

@[simp] theorem find?_empty (k : κ) : (∅ : SortedMap κ ν).find? k = none := rfl

end SortedMap

end OwlStructure
