import OwlStructure.Collections.SortedMap

/-! A sorted map and its look-up determine each other: what is listed is what is found. -/
namespace OwlStructure.SortedMap

variable {κ : Type u} {ν : Type v} {μ : Type w} [Keyed κ]

theorem findIn_eq_some_iff {l : List (κ × ν)} (h : (l.map Prod.fst).Pairwise Before) {k : κ}
    {v : ν} : findIn k l = some v ↔ (k, v) ∈ l := by
  induction l with
  | nil => simp [findIn]
  | cons e l ih =>
    obtain ⟨k', v'⟩ := e
    have hs := List.pairwise_cons.1 h
    rw [findIn, List.mem_cons]
    by_cases hk : compare k k' = .eq
    · have he := Std.LawfulEqCmp.eq_of_compare hk
      subst he
      have hn : (k, v) ∉ l := fun hm =>
        Before.irrefl k (hs.1 k (List.mem_map.2 ⟨(k, v), hm, rfl⟩))
      simp [hn, eq_comm]
    · have hne : k ≠ k' := fun e => hk (e ▸ Std.ReflCmp.compare_self)
      rw [if_neg hk, ih hs.2]
      simp [hne]

theorem mem_entries_iff {m : SortedMap κ ν} {k : κ} {v : ν} :
    (k, v) ∈ m.entries ↔ m.find? k = some v := (findIn_eq_some_iff m.sorted).symm

/-- Maps with the same look-ups are equal. -/
theorem ext_find? {m m' : SortedMap κ ν} (h : ∀ k, m.find? k = m'.find? k) : m = m' := by
  have hnodup (m : SortedMap κ ν) : m.entries.Nodup :=
    (List.pairwise_map.1 m.sorted).imp fun h he => h.ne (congrArg Prod.fst he)
  have hmem (e : κ × ν) : e ∈ m.entries ↔ e ∈ m'.entries := by
    rw [mem_entries_iff, mem_entries_iff, h]
  have hentries : m.entries = m'.entries :=
    ((List.perm_ext_iff_of_nodup (hnodup m) (hnodup m')).2 hmem).eq_of_pairwise
      (fun _ _ _ _ h h' => absurd h' h.asymm) (List.pairwise_map.1 m.sorted)
      (List.pairwise_map.1 m'.sorted)
  cases m
  cases m'
  cases hentries
  rfl

theorem mem_keys_iff {m : SortedMap κ ν} {k : κ} : k ∈ m.keys ↔ ∃ v, m.find? k = some v := by
  rw [← SortedSet.mem_toList]
  constructor
  · intro h
    obtain ⟨⟨_, v⟩, he, rfl⟩ := List.mem_map.1 h
    exact ⟨v, mem_entries_iff.1 he⟩
  · rintro ⟨v, hv⟩
    exact List.mem_map.2 ⟨(k, v), mem_entries_iff.2 hv, rfl⟩

theorem find?_eq_none_iff {m : SortedMap κ ν} {k : κ} : m.find? k = none ↔ k ∉ m.keys := by
  rw [mem_keys_iff]
  cases m.find? k <;> simp

theorem find?_tabulate {s : SortedSet κ} {f : κ → ν} {k : κ} :
    (tabulate s f).find? k = if k ∈ s then some (f k) else none := by
  split
  · next hk => exact mem_entries_iff.1 (List.mem_map.2 ⟨k, hk, rfl⟩)
  · next hk =>
    rw [find?_eq_none_iff]
    intro h
    obtain ⟨e, he, rfl⟩ := List.mem_map.1 h
    obtain ⟨x, hx, rfl⟩ := List.mem_map.1 he
    exact hk hx

@[simp] theorem keys_tabulate (s : SortedSet κ) (f : κ → ν) : (tabulate s f).keys = s :=
  SortedSet.ext_toList (by simp [keys, tabulate, Function.comp_def])

theorem find?_mapValues {m : SortedMap κ ν} {f : ν → μ} {k : κ} :
    (m.mapValues f).find? k = (m.find? k).map f := by
  cases hk : m.find? k with
  | none =>
    rw [find?_eq_none_iff] at hk
    rw [Option.map_none, find?_eq_none_iff]
    simpa [keys, mapValues, Function.comp_def] using hk
  | some v =>
    have he := mem_entries_iff.2 hk
    exact mem_entries_iff.1 (List.mem_map.2 ⟨(k, v), he, rfl⟩)

/-- Changes of one kind under several keys. -/
theorem find?_foldl_alter (keys : List κ) {m : SortedMap κ ν} {f : Option ν → Option ν} {k : κ}
    (hf : f (f (m.find? k)) = f (m.find? k)) :
    (k ∈ keys → (keys.foldl (fun m k => m.alter k f) m).find? k = f (m.find? k)) ∧
      (k ∉ keys → (keys.foldl (fun m k => m.alter k f) m).find? k = m.find? k) := by
  induction keys generalizing m with
  | nil => simp
  | cons k' keys ih =>
    by_cases he : k = k'
    · subst he
      have hk : (m.alter k f).find? k = f (m.find? k) := by simp [find?_alter]
      have hi := ih (m := m.alter k f) (by rw [hk, hf, hf])
      rw [hk, hf] at hi
      simp only [List.foldl_cons, List.mem_cons, true_or, not_true, forall_const, false_implies,
        and_true]
      by_cases hm : k ∈ keys
      · exact hi.1 hm
      · exact hi.2 hm
    · have hk : (m.alter k' f).find? k = m.find? k := by simp [find?_alter, he]
      have hi := ih (m := m.alter k' f) (by rw [hk, hf])
      rw [hk] at hi
      simpa [he] using hi

/-! ### Maps of lists -/

theorem find?_insert {m : SortedMap κ ν} {k x : κ} {v : ν} :
    (m.insert k v).find? x = if compare x k = .eq then some v else m.find? x := find?_alter

/-- What is found after adding entries is one of them, or was found before. -/
theorem mem_of_find?_foldl_insert {l : List (κ × ν)} {m : SortedMap κ ν} {k : κ} {v : ν}
    (h : (l.foldl (fun m e => m.insert e.1 e.2) m).find? k = some v) :
    (k, v) ∈ l ∨ m.find? k = some v := by
  induction l generalizing m with
  | nil => exact .inr h
  | cons e l ih =>
    rcases ih h with hl | hm
    · exact .inl (List.mem_cons_of_mem e hl)
    · rw [find?_insert] at hm
      split at hm
      · next hk =>
        obtain rfl := Std.LawfulEqCmp.eq_of_compare hk
        obtain rfl := Option.some.inj hm
        exact .inl List.mem_cons_self
      · exact .inr hm

/-- What the map of a list holds stands in the list. -/
theorem mem_of_mem_ofList {l : List (κ × ν)} {k : κ} {v : ν} (h : (k, v) ∈ (ofList l).entries) :
    (k, v) ∈ l := by
  rcases mem_of_find?_foldl_insert (mem_entries_iff.1 h) with h | h
  · exact h
  · cases h

/-- Added entries with different keys are found before what was there. -/
theorem find?_foldl_insert {l : List (κ × ν)} (hl : (l.map Prod.fst).Pairwise Before)
    (m : SortedMap κ ν) (k : κ) :
    (l.foldl (fun m e => m.insert e.1 e.2) m).find? k = (findIn k l).or (m.find? k) := by
  induction l generalizing m with
  | nil => rfl
  | cons e l ih =>
    obtain ⟨hfirst, hrest⟩ := List.pairwise_cons.1 hl
    rw [List.foldl_cons, ih hrest, find?_insert, findIn]
    split
    · next hk =>
      have hnone : findIn k l = none :=
        findIn_eq_none fun x hx => Std.LawfulEqCmp.eq_of_compare hk ▸ hfirst x hx
      rw [hnone, Option.none_or, Option.some_or]
    · rfl

/-- A map is the map of its entries. -/
@[simp] theorem ofList_entries (m : SortedMap κ ν) : ofList m.entries = m := by
  refine ext_find? fun k => ?_
  rw [ofList, find?_foldl_insert m.sorted, find?_empty, Option.or_none]
  rfl

end OwlStructure.SortedMap
