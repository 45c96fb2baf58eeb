import OwlStructure.Memo.Recent

/-!
The books of memoised results. Objects come and go while their results are kept; an address is not
given to a new object as long as a result is kept under it. Then there is one entry at most for an
object, a lookup by address finds the entry of the object itself, and every lookup that found no
result accounts for one entry that is kept, has been evicted or has been removed.
-/
namespace OwlStructure

universe u v

variable {α : Type u} {β : Type v} {f : α → β}

/-- The first element with a property goes to the front; the others keep their order. -/
theorem cons_filter_perm {γ : Type u} {p : γ → Bool} {l : List γ} {x : γ}
    (hone : l.Pairwise fun y z => p y = true → p z = false) (hx : l.find? p = some x) :
    (x :: l.filter fun y => !p y).Perm l := by
  induction l with
  | nil => cases hx
  | cons y l ih =>
    obtain ⟨hy, hl⟩ := List.pairwise_cons.1 hone
    cases hp : p y with
    | true =>
      rw [List.find?_cons_of_pos hp, Option.some.injEq] at hx
      have hrest : (l.filter fun z => !p z) = l := by
        refine List.filter_eq_self.2 fun z hz => ?_
        rw [hy z hz hp, Bool.not_false]
      rw [List.filter_cons_of_neg (by simp [hp]), hrest, hx]
    | false =>
      rw [List.find?_cons_of_neg (by simp [hp])] at hx
      rw [List.filter_cons_of_pos (by simp [hp])]
      exact (List.Perm.swap y x _).trans ((ih hl hx).cons y)

namespace Recent

/-- What an onlooker counts: lookups, and entries that were dropped other than to make room. -/
structure Tally where
  lookups : Nat
  removed : Nat
  deriving DecidableEq

/-- Kept results stay in bounds, hold one entry at most at an address, none of them at the address
of another object that is alive, and agree with what an onlooker counts. -/
structure Balanced (m : Recent f) (capacity : Nat) (alive : List (Shared α)) (t : Tally) :
    Prop where
  size_le : m.size ≤ capacity
  nodup_ids : (m.entries.map fun e => e.object.id).Nodup
  object_eq : ∀ e ∈ m.entries, ∀ o ∈ alive, e.object.id = o.id → e.object = o
  hits_add_misses : m.hits + m.misses = t.lookups
  size_add_gone : m.size + m.evictions + t.removed = m.misses

/-- How many entries are those of objects that are not alive. -/
def dropped [DecidableEq α] (m : Recent f) (alive : List (Shared α)) : Nat :=
  m.entries.countP fun e => decide (e.object ∉ alive)

/-! ### Lookup by address -/

/-- Puts an entry in front, instead of the one at the same address, or else, when there is no room,
of the last one. Only in the last case is an entry evicted. -/
def push (capacity : Nat) (m : Recent f) (e : MemoEntry f) : Recent f :=
  if m.entries.any fun x => decide (x.object.id = e.object.id) then
    { m with entries := e :: m.entries.filter fun x => decide (x.object.id ≠ e.object.id) }
  else if m.entries.length < capacity then { m with entries := e :: m.entries }
  else { m with entries := e :: m.entries.dropLast, evictions := m.evictions + 1 }

/-- The result for an object, found by the address alone; an entry whose own object is not alive
counts as none. -/
def lookupAt [DecidableEq α] (capacity : Nat) (alive : List (Shared α)) (m : Recent f)
    (o : Shared α) : β × Recent f :=
  match m.entries.find? fun e => decide (e.object.id = o.id) with
  | some e =>
    if e.object ∈ alive then
      let others := m.entries.filter fun x => decide (x.object.id ≠ o.id)
      (e.result, { m with entries := e :: others, hits := m.hits + 1 })
    else (f o.value, { m.push capacity (.compute f o) with misses := m.misses + 1 })
  | none => (f o.value, { m.push capacity (.compute f o) with misses := m.misses + 1 })

theorem push_of_free {capacity : Nat} {m : Recent f} {e : MemoEntry f} (hcapacity : 0 < capacity)
    (hsize : m.size ≤ capacity) (hfree : ∀ x ∈ m.entries, x.object.id ≠ e.object.id) :
    let kept := (e :: m.entries).take capacity
    m.push capacity e =
      { m with
        entries := kept, evictions := m.evictions + (m.entries.length + 1 - kept.length) } := by
  intro kept
  have hany : (m.entries.any fun x => decide (x.object.id = e.object.id)) = false := by
    rw [List.any_eq_false]
    intro x hx
    simpa using hfree x hx
  rw [push, if_neg (by simp [hany])]
  obtain ⟨room, rfl⟩ : ∃ room, capacity = room + 1 := ⟨capacity - 1, by omega⟩
  have hkept : kept = e :: m.entries.take room := List.take_succ_cons
  split
  · next hroom =>
    rw [hkept, List.take_of_length_le (by omega), List.length_cons, Nat.sub_self, Nat.add_zero]
  · next hfull =>
    have hlength : m.entries.length = room + 1 := Nat.le_antisymm hsize (Nat.not_lt.1 hfull)
    have hlast : m.entries.dropLast = m.entries.take room := by
      rw [List.dropLast_eq_take, hlength, Nat.add_sub_cancel]
    have hgone : m.entries.length + 1 - kept.length = 1 := by
      rw [hkept, List.length_cons, List.length_take]
      omega
    rw [hgone, hkept, hlast]

/-! ### What a lookup does -/

section Lookup

variable [DecidableEq α] {capacity : Nat} {alive : List (Shared α)} {m : Recent f} {t : Tally}
  {o : Shared α} {e : MemoEntry f}

theorem object_of_find? (h : m.find? o = some e) : e.object = o := by
  simpa using List.find?_some h

theorem object_ne_of_find? (h : m.find? o = none) : ∀ e ∈ m.entries, e.object ≠ o := by
  simpa [find?] using h

theorem lookup_of_hit (h : m.find? o = some e) :
    m.lookup capacity o =
      (e.result, { m with entries := e :: m.others o, hits := m.hits + 1 }) := by
  simp only [lookup, h]

theorem lookup_of_miss (h : m.find? o = none) :
    let kept := (MemoEntry.compute f o :: m.entries).take capacity
    m.lookup capacity o = (f o.value,
      { m with
        entries := kept
        misses := m.misses + 1
        evictions := m.evictions + (m.entries.length + 1 - kept.length) }) := by
  simp only [lookup, h]
  rfl

namespace Balanced

omit [DecidableEq α] in
/-- Among the entries, the address of an object that is alive is as good as the object. -/
theorem id_eq_iff (h : m.Balanced capacity alive t) (ho : o ∈ alive) (he : e ∈ m.entries) :
    e.object.id = o.id ↔ e.object = o :=
  ⟨h.object_eq e he o ho, congrArg Shared.id⟩

/-- A hit only moves an entry to the front. -/
theorem perm_of_hit (h : m.Balanced capacity alive t) (he : m.find? o = some e) :
    (e :: m.others o).Perm m.entries := by
  have hone : m.entries.Pairwise fun x y =>
      decide (x.object = o) = true → decide (y.object = o) = false := by
    refine (List.pairwise_map.1 h.nodup_ids).imp fun hne hx => ?_
    refine decide_eq_false fun hy => hne ?_
    rw [of_decide_eq_true hx, hy]
  have hperm := cons_filter_perm hone he
  simp only [← decide_not] at hperm
  exact hperm

/-- Looking an object up by its address alone does what looking up the object does: an entry at the
address is that of the object, and a new entry never replaces another. -/
theorem lookupAt_eq (h : m.Balanced capacity alive t) (hcapacity : 0 < capacity)
    (ho : o ∈ alive) : m.lookupAt capacity alive o = m.lookup capacity o := by
  have hfind : (m.entries.find? fun e => decide (e.object.id = o.id)) = m.find? o := by
    rw [find?, ← List.head?_filter, ← List.head?_filter]
    refine congrArg List.head? (List.filter_congr fun e he => ?_)
    exact decide_eq_decide.2 (h.id_eq_iff ho he)
  unfold lookupAt
  rw [hfind]
  cases hf : m.find? o with
  | some e =>
    have hothers : (m.entries.filter fun x => decide (x.object.id ≠ o.id)) = m.others o := by
      refine List.filter_congr fun x hx => ?_
      exact decide_eq_decide.2 (not_congr (h.id_eq_iff ho hx))
    have halive : e.object ∈ alive := object_of_find? hf ▸ ho
    simp only [halive, ↓reduceIte, hothers, lookup_of_hit hf]
  | none =>
    have hfree : ∀ x ∈ m.entries, x.object.id ≠ (MemoEntry.compute f o).object.id :=
      fun x hx hid => object_ne_of_find? hf x hx ((h.id_eq_iff ho hx).1 hid)
    simp only [push_of_free hcapacity h.size_le hfree, lookup_of_miss hf]

/-! ### Steps -/

omit [DecidableEq α] in
theorem empty (capacity : Nat) : (Recent.empty : Recent f).Balanced capacity [] ⟨0, 0⟩ where
  size_le := Nat.zero_le capacity
  nodup_ids := List.nodup_nil
  object_eq e he := by cases he
  hits_add_misses := rfl
  size_add_gone := rfl

theorem lookup (h : m.Balanced capacity alive t)
    (halive : ∀ x ∈ alive, ∀ y ∈ alive, x.id = y.id → x = y) (ho : o ∈ alive) :
    (m.lookup capacity o).2.Balanced capacity alive { t with lookups := t.lookups + 1 } := by
  cases hf : m.find? o with
  | some e =>
    have hperm := h.perm_of_hit hf
    rw [lookup_of_hit hf]
    exact
      { size_le := Nat.le_trans (Nat.le_of_eq hperm.length_eq) h.size_le
        nodup_ids := (hperm.map fun e => e.object.id).nodup_iff.2 h.nodup_ids
        object_eq := fun x hx => h.object_eq x (hperm.mem_iff.1 hx)
        hits_add_misses := by
          rw [← h.hits_add_misses]
          exact Nat.add_right_comm m.hits 1 m.misses
        size_add_gone := by
          rw [← h.size_add_gone]
          exact congrArg (· + m.evictions + t.removed) hperm.length_eq }
  | none =>
    have hbound := List.length_take_le capacity (MemoEntry.compute f o :: m.entries)
    have hkept := List.length_take_le' capacity (MemoEntry.compute f o :: m.entries)
    have hsub := (MemoEntry.compute f o :: m.entries).take_sublist capacity
    rw [lookup_of_miss hf]
    refine ⟨hbound, (hsub.map _).nodup (List.nodup_cons.2 ⟨?_, h.nodup_ids⟩), ?_, ?_, ?_⟩
    · intro hid
      obtain ⟨x, hx, hxo⟩ := List.mem_map.1 hid
      exact object_ne_of_find? hf x hx (h.object_eq x hx o ho hxo)
    · intro x hx y hy hid
      rcases List.mem_cons.1 (hsub.subset hx) with rfl | hx
      · exact halive o ho y hy hid
      · exact h.object_eq x hx y hy hid
    · rw [← h.hits_add_misses]
      rfl
    · -- what the new entry adds is kept or evicted
      have hgone := h.size_add_gone
      simp only [size, List.length_cons] at hgone hkept ⊢
      omega

theorem retain (h : m.Balanced capacity alive t) {isAlive : Nat → Bool}
    (hiff : ∀ e ∈ m.entries, isAlive e.object.id = true ↔ e.object ∈ alive) :
    (m.retain isAlive).Balanced capacity alive
      { t with removed := t.removed + m.dropped alive } := by
  have hsub : (m.retain isAlive).entries.Sublist m.entries := List.filter_sublist
  have hcount : (m.retain isAlive).size + m.dropped alive = m.size := by
    have hdropped : m.dropped alive = m.entries.countP fun e => !isAlive e.object.id := by
      refine List.countP_congr fun e he => ?_
      simp [← hiff e he]
    have hsplit := m.entries.length_eq_countP_add_countP fun e => isAlive e.object.id
    simp only [Bool.not_eq_true, Bool.decide_eq_false] at hsplit
    rw [hdropped, size, Recent.retain, ← List.countP_eq_length_filter]
    exact hsplit.symm
  exact
    { size_le := Nat.le_trans hsub.length_le h.size_le
      nodup_ids := (hsub.map _).nodup h.nodup_ids
      object_eq := fun e he => h.object_eq e (hsub.subset he)
      hits_add_misses := h.hits_add_misses
      size_add_gone := by
        have hgone := h.size_add_gone
        show (m.retain isAlive).size + m.evictions + (t.removed + m.dropped alive) = m.misses
        omega }

omit [DecidableEq α] in
theorem clear (h : m.Balanced capacity alive t) :
    m.clear.Balanced capacity alive { t with removed := t.removed + m.size } where
  size_le := Nat.zero_le capacity
  nodup_ids := List.nodup_nil
  object_eq e he := by cases he
  hits_add_misses := h.hits_add_misses
  size_add_gone := by
    have hgone := h.size_add_gone
    show 0 + m.evictions + (t.removed + m.size) = m.misses
    omega

omit [DecidableEq α] in
/-- A new object gets an address at which nothing is kept. -/
theorem create (h : m.Balanced capacity alive t) (ho : ∀ e ∈ m.entries, e.object.id ≠ o.id) :
    m.Balanced capacity (o :: alive) t := by
  refine { h with object_eq := fun e he x hx hid => ?_ }
  rcases List.mem_cons.1 hx with rfl | hx
  · exact absurd hid (ho e he)
  · exact h.object_eq e he x hx hid

omit [DecidableEq α] in
theorem drop (h : m.Balanced capacity alive t) {alive' : List (Shared α)}
    (hsub : alive' ⊆ alive) : m.Balanced capacity alive' t :=
  { h with object_eq := fun e he o ho => h.object_eq e he o (hsub ho) }

end Balanced

end Lookup

end Recent

end OwlStructure
