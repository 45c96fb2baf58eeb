import OwlStructure.Proofs.Json.Names

/-!
How deep what is written is nested, against what was read. A reader takes the parts of a record, the
items of an array and the payload of an alternative from one level further down, so a writer that
puts its parts back on that level exceeds neither the limit of the reader nor the nesting of the
value that was read.
-/
namespace OwlStructure.Json

variable {α β γ δ : Type} {j k : Json} {limit : Nat}

/-! ### Parts -/

theorem depthItems_le_iff {items : List Json} {n : Nat} :
    depthItems items ≤ n ↔ ∀ j ∈ items, j.depth ≤ n := by
  induction items with
  | nil => simp
  | cons j items ih => rw [depthItems_cons_le, ih, List.forall_mem_cons]

theorem depth_lt_of_mem_items {items : List Json} (h : j ∈ items) : j.depth < (arr items).depth :=
  Nat.lt_succ_of_le (depthItems_le_iff.1 (Nat.le_refl _) j h)

theorem depth_lt_of_mem_members {members : List (JsonText × Json)}
    (h : j ∈ members.map Prod.snd) : j.depth < (obj members).depth := by
  rw [depth, depthMembers_eq]
  exact Nat.lt_succ_of_le (depthItems_le_iff.1 (Nat.le_refl _) j h)

/-- The parts of a record stand inside of it. -/
theorem depth_lt_of_record? {names : List String} {parts : List Json}
    (h : j.record? names = some parts) : ∀ part ∈ parts, part.depth < j.depth := by
  intro part hpart
  cases j with
  | obj members =>
    obtain ⟨found, hfound, hparts⟩ := Option.bind_eq_some_iff.1 h
    obtain ⟨fields, hfields, hfound⟩ := Option.bind_eq_some_iff.1 hfound
    obtain ⟨l, -, rfl, hl⟩ := exists_found hfound hparts
    apply depth_lt_of_mem_members
    rw [← map_snd_of_members? hfields]
    exact List.map_subset _ hl hpart
  | arr items =>
    rw [parts_eq_of_record? h] at hpart
    exact depth_lt_of_mem_items hpart
  | null | bool | int | real | str => cases h

/-- By position or by name, the fields of an alternative are the parts of a record. -/
theorem record?_of_payload? {positional : Bool} {names : List String} {parts : List Json}
    (h : j.payload? positional names = some parts) : j.record? names = some parts := by
  unfold payload? at h
  split at h
  · cases h
  · exact h

/-! ### Lists read item by item -/

theorem forall₂_of_mapM {read : α → Option β} {l : List α} {bs : List β}
    (h : l.mapM read = some bs) : List.Forall₂ (fun b a => read a = some b) bs l := by
  induction l generalizing bs with
  | nil =>
    cases h
    exact .nil
  | cons a l ih =>
    obtain ⟨b, rest, hb, hrest, rfl⟩ := mapM_cons_eq_some h
    exact .cons hb (ih hrest)

theorem forall_of_mapM {read : α → Option β} {P : β → Prop} (h : ∀ a b, read a = some b → P b)
    {l : List α} {bs : List β} (hl : l.mapM read = some bs) : ∀ b ∈ bs, P b :=
  ((List.forall₂_and_left bs l).1 ((forall₂_of_mapM hl).imp fun b a hab => ⟨h a b hab, hab⟩)).1

theorem mapM_map_eq_some {read : β → Option α} {f : α → β} {l : List α}
    (h : ∀ a ∈ l, read (f a) = some a) : (l.map f).mapM read = some l := by
  induction l with
  | nil => rfl
  | cons a l ih =>
    obtain ⟨ha, hl⟩ := List.forall_mem_cons.1 h
    simp [ha, ih hl]

/-! ### What is written again -/

/-- A value is nested neither deeper than a limit allows nor deeper than another value. -/
def NestsWithin (k : Json) (limit : Nat) (j : Json) : Prop := k.depth ≤ limit ∧ k.depth ≤ j.depth

theorem nestsWithin_flat (h : k.depth = 0) : k.NestsWithin limit j := by
  unfold NestsWithin
  omega

theorem NestsWithin.variant {tag : JsonText} (h : k.NestsWithin limit j) (name : String) :
    (variant name k).NestsWithin (limit + 1) (obj [(tag, j)]) := by
  have hdepth : (obj [(tag, j)]).depth = j.depth + 1 := by simp [depth, depthMembers]
  unfold NestsWithin at h ⊢
  rw [depth_variant, hdepth]
  omega

theorem nestsWithin_arr {ks items : List Json}
    (h : List.Forall₂ (fun k j => k.NestsWithin limit j) ks items) :
    (arr ks).NestsWithin (limit + 1) (arr items) := by
  unfold NestsWithin
  rw [depth_arr, depth_arr, Nat.add_le_add_iff_right, Nat.add_le_add_iff_right]
  induction h with
  | nil => exact ⟨Nat.zero_le _, Nat.zero_le _⟩
  | cons hhead _ ih =>
    unfold NestsWithin at hhead
    simp only [depthItems]
    omega

theorem nestsWithin_items {read : Json → Option α} {encode : α → Json} {items : List Json}
    {l : List α} (h : ∀ j x, read j = some x → (encode x).NestsWithin limit j)
    (hread : items.mapM read = some l) :
    (arr (l.map encode)).NestsWithin (limit + 1) (arr items) :=
  nestsWithin_arr (List.forall₂_map_left_iff.2 ((forall₂_of_mapM hread).imp fun x j hx => h j x hx))

/-- A record may be written with other names than those that it was read by. -/
theorem nestsWithin_record {names : List String} {parts : List Json}
    (hread : j.record? names = some parts) {fields : List (String × Json)}
    (h : List.Forall₂ (fun k part => k.NestsWithin limit part) (fields.map Prod.snd) parts) :
    (record fields).NestsWithin (limit + 1) j := by
  have hwithin : (record fields).NestsWithin (limit + 1) (arr parts) := by
    have harr := nestsWithin_arr h
    unfold NestsWithin at harr ⊢
    rwa [depth_arr, ← depth_record] at harr
  have hpos : 0 < j.depth := by
    cases j with
    | obj | arr => exact Nat.succ_pos _
    | null | bool | int | real | str => cases hread
  have hparts : depthItems parts ≤ j.depth - 1 := by
    rw [depthItems_le_iff]
    exact fun part hpart => Nat.le_sub_one_of_lt (depth_lt_of_record? hread part hpart)
  unfold NestsWithin at hwithin ⊢
  rw [depth_arr] at hwithin
  omega

section Fields

variable {positional : Bool} {names : List String} {a b c k l m : Json} (p q r : String)

theorem nestsWithin_pair (hread : j.payload? positional names = some [a, b])
    (hk : k.NestsWithin limit a) (hl : l.NestsWithin limit b) :
    (record [(p, k), (q, l)]).NestsWithin (limit + 1) j :=
  nestsWithin_record (record?_of_payload? hread) (.cons hk (.cons hl .nil))

theorem nestsWithin_triple (hread : j.payload? positional names = some [a, b, c])
    (hk : k.NestsWithin limit a) (hl : l.NestsWithin limit b) (hm : m.NestsWithin limit c) :
    (record [(p, k), (q, l), (r, m)]).NestsWithin (limit + 1) j :=
  nestsWithin_record (record?_of_payload? hread) (.cons hk (.cons hl (.cons hm .nil)))

end Fields

theorem exists_of_pair {x? : Option α} {y? : Option β} {make : α → β → γ} {z : γ}
    (h : (do some (make (← x?) (← y?))) = some z) :
    ∃ x y, x? = some x ∧ y? = some y ∧ z = make x y := by
  obtain ⟨x, hx, h⟩ := Option.bind_eq_some_iff.1 h
  obtain ⟨y, hy, h⟩ := Option.bind_eq_some_iff.1 h
  exact ⟨x, y, hx, hy, (Option.some.inj h).symm⟩

theorem exists_of_triple {w? : Option α} {x? : Option β} {y? : Option γ} {make : α → β → γ → δ}
    {z : δ} (h : (do some (make (← w?) (← x?) (← y?))) = some z) :
    ∃ w x y, w? = some w ∧ x? = some x ∧ y? = some y ∧ z = make w x y := by
  obtain ⟨w, hw, h⟩ := Option.bind_eq_some_iff.1 h
  obtain ⟨x, y, hx, hy, hz⟩ := exists_of_pair h
  exact ⟨w, x, y, hw, hx, hy, hz⟩

/-! ### Readers and writers -/

/-- What a reader reads is written within the limit of the reader and within the nesting of the
value that was read. -/
def Fits (read : Nat → Json → Option α) (encode : α → Json) : Prop :=
  ∀ limit j x, read limit j = some x → (encode x).NestsWithin limit j

namespace Fits

variable {read : Nat → Json → Option α} {encode : α → Json}

theorem flat (h : ∀ x, (encode x).depth = 0) : Fits read encode :=
  fun _ _ x _ => nestsWithin_flat (h x)

/-- A value made of what is read may be written with fewer levels. -/
theorem map (h : Fits read encode) {make : α → β} {encode' : β → Json}
    (hmake : ∀ x, (encode' (make x)).depth ≤ (encode x).depth) :
    Fits (fun limit j => (read limit j).map make) encode' := by
  intro limit j y hread
  obtain ⟨x, hx, rfl⟩ := Option.map_eq_some_iff.1 hread
  obtain ⟨hlimit, hdepth⟩ := h limit j x hx
  exact ⟨(hmake x).trans hlimit, (hmake x).trans hdepth⟩

theorem listOf (h : Fits read encode) : Fits (listOf? read) fun l => .arr (l.map encode) := by
  intro limit j l hread
  unfold listOf? at hread
  split at hread
  · next limit items =>
    exact nestsWithin_items (h limit) hread
  · cases hread

end Fits

end OwlStructure.Json
