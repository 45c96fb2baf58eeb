import OwlStructure.Collections.SortKey

/-!
Sorted sets: lists in strictly ascending order. Two sorted sets with the same members are the same
list, so a set has one way to be written.
-/
namespace OwlStructure

universe u v

variable {α : Type u} {β : Type v}

/-- The relation "comes strictly before" of a keyed type. -/
def Before [Keyed α] (a b : α) : Prop := compare a b = .lt

instance [Keyed α] (a b : α) : Decidable (Before a b) := inferInstanceAs (Decidable (_ = _))

namespace Before

variable [Keyed α] {a b c : α}

theorem trans (h : Before a b) (h' : Before b c) : Before a c :=
  Std.TransCmp.lt_trans h h'

theorem irrefl (a : α) : ¬ Before a a := by simp [Before]

theorem ne (h : Before a b) : a ≠ b := fun e => irrefl b (e ▸ h)

theorem asymm (h : Before a b) : ¬ Before b a := fun h' => irrefl a (h.trans h')

theorem of_gt (h : compare a b = .gt) : Before b a := Std.OrientedCmp.lt_of_gt h

theorem trichotomy (a b : α) : Before a b ∨ a = b ∨ Before b a := by
  cases h : compare a b with
  | lt => exact .inl h
  | eq => exact .inr (.inl (Std.LawfulEqCmp.eq_of_compare h))
  | gt => exact .inr (.inr (of_gt h))

end Before

/-- A list in strictly ascending order. -/
structure SortedSet (α : Type u) [Keyed α] where
  toList : List α
  sorted : toList.Pairwise Before

namespace SortedSet

variable [Keyed α] [Keyed β]

theorem ext_toList {s t : SortedSet α} (h : s.toList = t.toList) : s = t := by
  cases s; cases t; cases h; rfl

instance : Membership α (SortedSet α) := ⟨fun s a => a ∈ s.toList⟩

theorem mem_toList {s : SortedSet α} {a : α} : a ∈ s.toList ↔ a ∈ s := Iff.rfl

instance (a : α) (s : SortedSet α) : Decidable (a ∈ s) :=
  have := Keyed.decEq (α := α)
  inferInstanceAs (Decidable (a ∈ s.toList))

instance : DecidableEq (SortedSet α) := fun s t =>
  have := Keyed.decEq (α := α)
  decidable_of_iff (s.toList = t.toList) ⟨ext_toList, congrArg _⟩

theorem nil_sorted : ([] : List α).Pairwise Before := .nil

/-- The set without members. -/
def empty : SortedSet α := ⟨[], nil_sorted⟩

instance : EmptyCollection (SortedSet α) := ⟨empty⟩

instance : Inhabited (SortedSet α) := ⟨empty⟩

def isEmpty (s : SortedSet α) : Bool := s.toList.isEmpty

def size (s : SortedSet α) : Nat := s.toList.length

/-- Puts a value into a sorted list, once. -/
def place (a : α) : List α → List α
  | [] => [a]
  | b :: l =>
    match compare a b with
    | .lt => a :: b :: l
    | .eq => b :: l
    | .gt => b :: place a l

theorem mem_place {a x : α} {l : List α} : x ∈ place a l ↔ x = a ∨ x ∈ l := by
  induction l with
  | nil => simp [place]
  | cons b l ih =>
    rw [place]
    split
    · simp
    · next h =>
      have := Std.LawfulEqCmp.eq_of_compare h
      subst this
      simp
    · simp only [List.mem_cons, ih]
      constructor <;> rintro (h | h | h) <;> simp [h]

theorem place_sorted {a : α} {l : List α} (h : l.Pairwise Before) :
    (place a l).Pairwise Before := by
  induction l with
  | nil => simp [place]
  | cons b l ih =>
    rw [List.pairwise_cons] at h
    rw [place]
    split
    · next hab =>
      refine List.pairwise_cons.2 ⟨fun x hx => ?_, List.pairwise_cons.2 h⟩
      rcases List.mem_cons.1 hx with rfl | hx
      · exact hab
      · exact Before.trans hab (h.1 x hx)
    · exact List.pairwise_cons.2 h
    · next hab =>
      refine List.pairwise_cons.2 ⟨fun x hx => ?_, ih h.2⟩
      rcases mem_place.1 hx with rfl | hx
      · exact Before.of_gt hab
      · exact h.1 x hx

def insert (s : SortedSet α) (a : α) : SortedSet α := ⟨place a s.toList, place_sorted s.sorted⟩

/-- The set of the values of a list. -/
def ofList : List α → SortedSet α
  | [] => ∅
  | a :: l => (ofList l).insert a

/-- Adds the values of a list. -/
def insertAll (s : SortedSet α) (l : List α) : SortedSet α := l.foldl insert s

/-- The union of the images of the members. -/
def flatMap (s : SortedSet α) (f : α → List β) : SortedSet β := ofList (s.toList.flatMap f)

def map (s : SortedSet α) (f : α → β) : SortedSet β := ofList (s.toList.map f)

def filter (s : SortedSet α) (p : α → Bool) : SortedSet α :=
  ⟨s.toList.filter p, s.sorted.filter p⟩

/-- Every member of the first set is in the second. -/
def isSubset (s t : SortedSet α) : Bool := s.toList.all fun a => decide (a ∈ t)

@[simp] theorem not_mem_empty (a : α) : a ∉ (∅ : SortedSet α) := List.not_mem_nil

@[simp] theorem mem_insert {s : SortedSet α} {a x : α} : x ∈ s.insert a ↔ x = a ∨ x ∈ s := mem_place

@[simp] theorem mem_ofList {l : List α} {x : α} : x ∈ ofList l ↔ x ∈ l := by
  induction l with
  | nil => simp [ofList]
  | cons a l ih => simp [ofList, ih]

@[simp] theorem mem_insertAll {s : SortedSet α} {l : List α} {x : α} :
    x ∈ s.insertAll l ↔ x ∈ s ∨ x ∈ l := by
  induction l generalizing s with
  | nil => simp [insertAll]
  | cons a l ih =>
    rw [show s.insertAll (a :: l) = (s.insert a).insertAll l from rfl, ih, mem_insert,
      List.mem_cons]
    constructor
    · rintro ((h | h) | h) <;> simp [h]
    · rintro (h | h | h) <;> simp [h]

@[simp] theorem mem_flatMap {s : SortedSet α} {f : α → List β} {y : β} :
    y ∈ s.flatMap f ↔ ∃ x ∈ s, y ∈ f x := by
  simp [flatMap, List.mem_flatMap, mem_toList]

@[simp] theorem mem_map {s : SortedSet α} {f : α → β} {y : β} :
    y ∈ s.map f ↔ ∃ x ∈ s, f x = y := by
  simp [map, List.mem_map, mem_toList]

@[simp] theorem mem_filter {s : SortedSet α} {p : α → Bool} {x : α} :
    x ∈ s.filter p ↔ x ∈ s ∧ p x = true := List.mem_filter

theorem isSubset_iff {s t : SortedSet α} : s.isSubset t = true ↔ ∀ a ∈ s, a ∈ t := by
  simp [isSubset, List.all_eq_true, mem_toList]

/-- Sorted lists with the same members are equal. -/
theorem sorted_unique {l m : List α} (hl : l.Pairwise Before) (hm : m.Pairwise Before)
    (h : ∀ x, x ∈ l ↔ x ∈ m) : l = m := by
  induction l generalizing m with
  | nil =>
    cases m with
    | nil => rfl
    | cons b m => exact absurd ((h b).2 List.mem_cons_self) List.not_mem_nil
  | cons a l ih =>
    cases m with
    | nil => exact absurd ((h a).1 List.mem_cons_self) List.not_mem_nil
    | cons b m =>
      rw [List.pairwise_cons] at hl hm
      have hab : a = b := by
        rcases List.mem_cons.1 ((h a).1 List.mem_cons_self) with e | ha
        · exact e
        rcases List.mem_cons.1 ((h b).2 List.mem_cons_self) with e | hb
        · exact e.symm
        exact absurd (hl.1 b hb) (hm.1 a ha).asymm
      subst hab
      congr 1
      refine ih hl.2 hm.2 fun x => ⟨fun hx => ?_, fun hx => ?_⟩
      · exact (List.mem_cons.1 ((h x).1 (List.mem_cons_of_mem _ hx))).resolve_left
          (hl.1 x hx).ne.symm
      · exact (List.mem_cons.1 ((h x).2 (List.mem_cons_of_mem _ hx))).resolve_left
          (hm.1 x hx).ne.symm

theorem ext {s t : SortedSet α} (h : ∀ x, x ∈ s ↔ x ∈ t) : s = t :=
  ext_toList (sorted_unique s.sorted t.sorted h)

/-- The list of a set gives the set back. -/
@[simp] theorem ofList_toList (s : SortedSet α) : ofList s.toList = s :=
  ext fun _ => by simp [mem_toList]

/-- Sets compare as their sorted lists of members. -/
instance : Keyed (SortedSet α) where
  key s := .tag 0 :: Keyed.listKey s.toList
  starts s := ⟨_, _, rfl, by simp⟩
  split h := by
    obtain ⟨h₁, h₂⟩ := Keyed.listKey_split (List.cons.inj h).2
    exact ⟨ext_toList h₁, h₂⟩

end SortedSet

end OwlStructure
