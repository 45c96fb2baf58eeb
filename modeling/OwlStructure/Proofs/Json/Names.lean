import Mathlib.Algebra.Order.BigOperators.Group.List
import Mathlib.Algebra.Order.Ring.Nat
import Mathlib.Data.List.Perm.Subperm
import OwlStructure.Proofs.Json.Shape

/-!
How often a name stands in a value. What a reader finds under the fields of a record stands under
members of their own, so the parts together hold a name no more often than the record does.
-/
namespace OwlStructure.Json

mutual

/-- The number of members with a name, at any depth. -/
def occurrences (name : String) : Json → Nat
  | .arr items => occurrencesItems name items
  | .obj members => occurrencesMembers name members
  | _ => 0

def occurrencesItems (name : String) : List Json → Nat
  | [] => 0
  | j :: rest => occurrences name j + occurrencesItems name rest

def occurrencesMembers (name : String) : List (JsonText × Json) → Nat
  | [] => 0
  | (n, j) :: rest =>
    (if n = some name then 1 else 0) + occurrences name j + occurrencesMembers name rest

end

variable {name : String}

theorem occurrences_arr (items : List Json) :
    (arr items).occurrences name = (items.map (occurrences name)).sum := by
  rw [occurrences]
  induction items with
  | nil => rfl
  | cons j items ih => rw [occurrencesItems, ih, List.map_cons, List.sum_cons]

/-- The name of an alternative counts besides what its payload holds. -/
theorem occurrences_variant (name : String) (payload : Json) :
    (variant name payload).occurrences name = payload.occurrences name + 1 := by
  simp [variant, record, occurrences, occurrencesMembers, Nat.add_comm]

theorem sum_members_le (members : List (JsonText × Json)) :
    (members.map fun m => m.2.occurrences name).sum ≤ (obj members).occurrences name := by
  rw [occurrences]
  induction members with
  | nil => exact Nat.zero_le _
  | cons m members ih =>
    obtain ⟨n, j⟩ := m
    simp only [List.map_cons, List.sum_cons, occurrencesMembers]
    omega

/-! ### Parts of a record -/

theorem map_snd_of_members? {members : List (JsonText × Json)} {fields : List (String × Json)}
    (h : members? members = some fields) : fields.map Prod.snd = members.map Prod.snd := by
  induction members generalizing fields with
  | nil => cases h; rfl
  | cons m members ih =>
    obtain ⟨n, j⟩ := m
    cases n with
    | none => cases h
    | some n =>
      obtain ⟨rest, hrest, rfl⟩ := Option.map_eq_some_iff.1 h
      rw [List.map_cons, List.map_cons, ih hrest]

theorem mem_of_field? {fields : List (String × Json)} {n : String} {j : Json}
    (h : field? fields n = some (some j)) : (n, j) ∈ fields := by
  rw [field?] at h
  split at h
  · cases h
  · next m hfilter =>
    cases h
    have hm : m ∈ fields.filter fun m => m.1 == n := hfilter ▸ List.mem_singleton_self m
    obtain ⟨hmem, hname⟩ := List.mem_filter.1 hm
    rwa [← eq_of_beq hname]
  · cases h

theorem mapM_cons_eq_some {α β : Type} {read : α → Option β} {a : α} {l : List α} {bs : List β}
    (h : (a :: l).mapM read = some bs) :
    ∃ b rest, read a = some b ∧ l.mapM read = some rest ∧ bs = b :: rest := by
  rw [List.mapM_cons] at h
  obtain ⟨b, hb, h⟩ := Option.bind_eq_some_iff.1 h
  obtain ⟨rest, hrest, h⟩ := Option.bind_eq_some_iff.1 h
  exact ⟨b, rest, hb, hrest, (Option.some.inj h).symm⟩

/-- The fields that were found, with their names. -/
theorem exists_found {fields : List (String × Json)} {names : List String}
    {found : List (Option Json)} {parts : List Json}
    (hfound : names.mapM (field? fields) = some found) (hparts : found.mapM id = some parts) :
    ∃ l : List (String × Json), l.map Prod.fst = names ∧ l.map Prod.snd = parts ∧ l ⊆ fields := by
  induction names generalizing found parts with
  | nil =>
    cases hfound
    cases hparts
    exact ⟨[], rfl, rfl, List.nil_subset _⟩
  | cons n names ih =>
    obtain ⟨first, rest, hfirst, hrest, rfl⟩ := mapM_cons_eq_some hfound
    obtain ⟨j, tail, rfl, htail, rfl⟩ := mapM_cons_eq_some hparts
    obtain ⟨l, rfl, rfl, hl⟩ := ih hrest htail
    exact ⟨(n, j) :: l, rfl, rfl, List.cons_subset.2 ⟨mem_of_field? hfirst, hl⟩⟩

/-- The parts of a record with distinct names are values of different members. -/
theorem exists_sublist_of_record? {members : List (JsonText × Json)} {names : List String}
    {parts : List Json} (hnames : names.Nodup) (h : (obj members).record? names = some parts) :
    ∃ l : List Json, l.Perm parts ∧ l.Sublist (members.map Prod.snd) := by
  obtain ⟨found, hfound, hparts⟩ := Option.bind_eq_some_iff.1 h
  obtain ⟨fields, hfields, hfound⟩ := Option.bind_eq_some_iff.1 hfound
  obtain ⟨l, rfl, rfl, hl⟩ := exists_found hfound hparts
  -- Values may be equal, so it is the names that tell the members apart.
  obtain ⟨m, hm, hsub⟩ := (List.Nodup.of_map Prod.fst hnames).subperm hl
  rw [← map_snd_of_members? hfields]
  exact ⟨m.map Prod.snd, hm.map Prod.snd, hsub.map Prod.snd⟩

theorem parts_eq_of_record? {items : List Json} {names : List String} {parts : List Json}
    (h : (arr items).record? names = some parts) : parts = items := by
  obtain ⟨found, hfound, hparts⟩ := Option.bind_eq_some_iff.1 h
  rw [fields?] at hfound
  split at hfound
  · next hlength =>
    obtain hlength | ⟨⟨⟩, -⟩ := hlength
    rw [hlength, Nat.sub_self, List.replicate_zero, List.append_nil] at hfound
    rw [← Option.some.inj hfound, mapM_id_map_some] at hparts
    exact (Option.some.inj hparts).symm
  · cases hfound

theorem sum_parts_le (name : String) {names : List String} {parts : List Json} {j : Json}
    (hnames : names.Nodup) (h : j.record? names = some parts) :
    (parts.map (occurrences name)).sum ≤ j.occurrences name := by
  cases j with
  | obj members =>
    obtain ⟨l, hl, hsub⟩ := exists_sublist_of_record? hnames h
    have hle : (l.map (occurrences name)).sum ≤
        ((members.map Prod.snd).map (occurrences name)).sum :=
      (hsub.map _).sum_le_sum fun _ _ => Nat.zero_le _
    rw [(hl.map (occurrences name)).sum_eq, List.map_map] at hle
    exact hle.trans (sum_members_le members)
  | arr items =>
    rw [parts_eq_of_record? h, occurrences_arr]
  | null | bool | int | real | str => cases h

/-- Where every item accounts for what is read from it, the items together do so for the list. -/
theorem sum_mapM_le {α : Type} {read : Json → Option α} {f : α → Nat} {g : Json → Nat}
    (h : ∀ j x, read j = some x → f x ≤ g j) {items : List Json} {l : List α}
    (hl : items.mapM read = some l) : (l.map f).sum ≤ (items.map g).sum := by
  induction items generalizing l with
  | nil => cases hl; exact Nat.le_refl _
  | cons j items ih =>
    obtain ⟨x, rest, hx, hrest, rfl⟩ := mapM_cons_eq_some hl
    simp only [List.map_cons, List.sum_cons]
    exact Nat.add_le_add (h j x hx) (ih hrest)

end OwlStructure.Json
