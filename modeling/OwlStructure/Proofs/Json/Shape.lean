import Mathlib.Data.List.Nodup
import OwlStructure.Json.Shape

/-!
What the readers give for values in the shapes that the writers use. A reader restores a value from
its JSON if it reads it wherever the containers of the JSON fit under the limit and nowhere else;
each shape hands this on from its parts to the whole.
-/
namespace OwlStructure.Json

variable {α β γ δ : Type}

/-! ### Nesting -/

@[simp] theorem depthItems_nil : depthItems [] = 0 := rfl

@[simp] theorem depthItems_cons_le {j : Json} {items : List Json} {n : Nat} :
    depthItems (j :: items) ≤ n ↔ j.depth ≤ n ∧ depthItems items ≤ n := Nat.max_le

theorem depthMembers_eq (members : List (JsonText × Json)) :
    depthMembers members = depthItems (members.map Prod.snd) := by
  induction members with
  | nil => rfl
  | cons m members ih => rw [List.map_cons, depthMembers, depthItems, ih]

@[simp] theorem depth_text (s : String) : (text s).depth = 0 := rfl

@[simp] theorem depth_arr (items : List Json) : (arr items).depth = depthItems items + 1 := rfl

@[simp] theorem depth_record (fields : List (String × Json)) :
    (record fields).depth = depthItems (fields.map Prod.snd) + 1 := by
  rw [record, depth, depthMembers_eq, List.map_map]
  rfl

@[simp] theorem depth_variant (name : String) (payload : Json) :
    (variant name payload).depth = payload.depth + 1 := by
  simp [variant, depthItems]

/-! ### Records -/

theorem members?_map (fields : List (String × Json)) :
    members? (fields.map fun f => (some f.1, f.2)) = some fields := by
  induction fields with
  | nil => rfl
  | cons f fields ih => rw [List.map_cons, members?, ih, Option.map_some]

theorem field?_of_mem {fields : List (String × Json)} (h : (fields.map Prod.fst).Nodup)
    {f : String × Json} (hf : f ∈ fields) : field? fields f.1 = some (some f.2) := by
  have honly : fields.filter (fun m => m.1 == f.1) = [f] := by
    induction fields with
    | nil => cases hf
    | cons g fields ih =>
      rw [List.map_cons, List.nodup_cons] at h
      rcases List.mem_cons.1 hf with rfl | hf
      · have hrest : fields.filter (fun m => m.1 == f.1) = [] := by
          simp only [List.filter_eq_nil_iff, beq_iff_eq]
          intro m hm hname
          exact h.1 (hname ▸ List.mem_map_of_mem hm)
        rw [List.filter_cons_of_pos (by simp), hrest]
      · have hname : g.1 ≠ f.1 := fun e => h.1 (e ▸ List.mem_map_of_mem hf)
        rw [List.filter_cons_of_neg (by simpa using hname), ih h.2 hf]
  rw [field?, honly]

/-- A record is read back field by field, whether or not fields may be missing. -/
theorem fields?_record (fields : List (String × Json)) (h : (fields.map Prod.fst).Nodup)
    (partly : Bool) :
    (record fields).fields? (fields.map Prod.fst) partly =
      some (fields.map fun f => some f.2) := by
  have hread : ∀ rest : List (String × Json), (∀ f ∈ rest, f ∈ fields) →
      (rest.map Prod.fst).mapM (field? fields) = some (rest.map fun f => some f.2) := by
    intro rest
    induction rest with
    | nil => intro _; rfl
    | cons f rest ih =>
      intro hrest
      obtain ⟨hf, hrest⟩ := List.forall_mem_cons.1 hrest
      simp [field?_of_mem h hf, ih hrest]
  rw [record, fields?, members?_map, Option.bind_some, hread fields fun _ hf => hf]

theorem mapM_id_map_some (items : List Json) : (items.map some).mapM id = some items := by
  induction items with
  | nil => rfl
  | cons j items ih => simp [ih]

theorem record?_record (fields : List (String × Json)) (h : (fields.map Prod.fst).Nodup) :
    (record fields).record? (fields.map Prod.fst) = some (fields.map Prod.snd) := by
  have hsome : fields.map (fun f => some f.2) = (fields.map Prod.snd).map some :=
    List.map_map.symm
  rw [record?, fields?_record fields h, Option.bind_some, hsome, mapM_id_map_some]

theorem payload?_record (fields : List (String × Json)) (h : (fields.map Prod.fst).Nodup)
    (positional : Bool) :
    (record fields).payload? positional (fields.map Prod.fst) = some (fields.map Prod.snd) := by
  rw [← record?_record fields h]
  cases positional <;> rfl

/-! ### Reading back -/

/-- Within every limit that the containers of `j` keep, `j` is read as `x`; within a smaller one it
is refused. -/
def Restores (read : Nat → Json → Option α) (j : Json) (x : α) : Prop :=
  ∀ limit, read limit j = if j.depth ≤ limit then some x else none

namespace Restores

variable {read : Nat → Json → Option α} {j : Json} {x : α}

theorem flat (hdepth : j.depth = 0) (h : ∀ limit, read limit j = some x) : Restores read j x := by
  intro limit
  rw [h, hdepth, if_pos (Nat.zero_le limit)]

theorem of_eq {other : Nat → Json → Option α} (h : Restores read j x)
    (he : ∀ limit, other limit j = read limit j) : Restores other j x := fun limit =>
  (he limit).trans (h limit)

theorem map (h : Restores read j x) (f : α → β) :
    Restores (fun limit j => (read limit j).map f) j (f x) := by
  intro limit
  simp only [h limit]
  split <;> rfl

/-- A container that is read through what stands one level further down. -/
theorem nested {n : Nat} (hdepth : j.depth = n + 1) (hzero : read 0 j = none)
    (hsucc : ∀ limit, read (limit + 1) j = if n ≤ limit then some x else none) :
    Restores read j x := by
  intro limit
  rw [hdepth]
  cases limit with
  | zero => exact hzero
  | succ limit => simp [hsucc]

theorem variant {outer : Nat → Json → Option α} {name : String} (h : Restores read j x)
    (hzero : outer 0 (Json.variant name j) = none)
    (hsucc : ∀ limit, outer (limit + 1) (Json.variant name j) = read limit j) :
    Restores outer (Json.variant name j) x :=
  nested (depth_variant name j) hzero fun limit => (hsucc limit).trans (h limit)

theorem items {f : α → Json} {l : List α} (h : ∀ x ∈ l, Restores read (f x) x) (limit : Nat) :
    (l.map f).mapM (read limit) = if depthItems (l.map f) ≤ limit then some l else none := by
  induction l with
  | nil => simp
  | cons x l ih =>
    obtain ⟨hx, hl⟩ := List.forall_mem_cons.1 h
    rw [List.map_cons, List.mapM_cons, hx limit, ih hl]
    by_cases hhead : (f x).depth ≤ limit <;> by_cases htail : depthItems (l.map f) ≤ limit <;>
      simp [hhead, htail]

theorem listOf {f : α → Json} {l : List α} (h : ∀ x ∈ l, Restores read (f x) x) :
    Restores (listOf? read) (.arr (l.map f)) l :=
  nested (depth_arr _) rfl (items h)

variable {readSecond : Nat → Json → Option β} {readThird : Nat → Json → Option γ} {k l : Json}
  {y : β} {z : γ}

/-- A record of two fields. -/
theorem pair {whole : Nat → Json → Option δ} {p q : String} (hx : Restores read j x)
    (hy : Restores readSecond k y) (make : α → β → δ)
    (hzero : whole 0 (record [(p, j), (q, k)]) = none)
    (hsucc : ∀ limit, whole (limit + 1) (record [(p, j), (q, k)]) =
      do some (make (← read limit j) (← readSecond limit k))) :
    Restores whole (record [(p, j), (q, k)]) (make x y) := by
  refine nested (depth_record _) hzero fun limit => ?_
  rw [hsucc, hx limit, hy limit]
  by_cases hj : j.depth ≤ limit <;> by_cases hk : k.depth ≤ limit <;> simp [hj, hk]

/-- A record of three fields. -/
theorem triple {whole : Nat → Json → Option δ} {p q r : String} (hx : Restores read j x)
    (hy : Restores readSecond k y) (hz : Restores readThird l z) (make : α → β → γ → δ)
    (hzero : whole 0 (record [(p, j), (q, k), (r, l)]) = none)
    (hsucc : ∀ limit, whole (limit + 1) (record [(p, j), (q, k), (r, l)]) =
      do some (make (← read limit j) (← readSecond limit k) (← readThird limit l))) :
    Restores whole (record [(p, j), (q, k), (r, l)]) (make x y z) := by
  refine nested (depth_record _) hzero fun limit => ?_
  rw [hsucc, hx limit, hy limit, hz limit]
  by_cases hj : j.depth ≤ limit <;> by_cases hk : k.depth ≤ limit <;>
    by_cases hl : l.depth ≤ limit <;> simp [hj, hk, hl]

end Restores

end OwlStructure.Json
