/-!
Sort keys. Every value that this library sorts is spelled as a list of symbols, and values compare
as their spellings do. A spelling shows where it ends, so the keys of the fields of a value can be
written one after the other and still be told apart; this makes every order here total,
and equality of values the same as equality of keys.
-/
namespace OwlStructure

/-- One symbol of a sort key. -/
inductive KeySymbol where
  | stop
  | tag (value : Nat)
  | text (value : String)
  deriving DecidableEq, Hashable, Repr

namespace KeySymbol

/-- A stop comes before every tag and a tag before every text; otherwise the values decide. -/
def order : KeySymbol → KeySymbol → Ordering
  | .stop, .stop => .eq
  | .stop, _ => .lt
  | _, .stop => .gt
  | .tag m, .tag n => compare m n
  | .tag _, .text _ => .lt
  | .text _, .tag _ => .gt
  | .text s, .text t => compare s t

instance : Ord KeySymbol := ⟨order⟩

theorem compare_def (a b : KeySymbol) : compare a b = order a b := rfl

instance : Std.TransOrd KeySymbol where
  eq_swap {a b} := by
    cases a <;> cases b
    case tag.tag m n => exact @Std.OrientedCmp.eq_swap Nat compare _ m n
    case text.text s t => exact @Std.OrientedCmp.eq_swap String compare _ s t
    all_goals rfl
  isLE_trans {a b c} h₁ h₂ := by
    cases a <;> cases b <;> cases c <;>
      simp only [compare_def, order, Ordering.isLE, Bool.false_eq_true] at h₁ h₂ ⊢
    · exact @Std.TransCmp.isLE_trans Nat compare _ _ _ _ h₁ h₂
    · exact @Std.TransCmp.isLE_trans String compare _ _ _ _ h₁ h₂

instance : Std.LawfulEqOrd KeySymbol where
  compare_self {a} := Std.ReflCmp.compare_self
  eq_of_compare {a b} h := by
    cases a <;> cases b <;> simp only [compare_def, order, reduceCtorEq] at h
    · rfl
    · exact congrArg _ (Std.LawfulEqCmp.eq_of_compare h)
    · exact congrArg _ (Std.LawfulEqCmp.eq_of_compare h)

end KeySymbol

/-- Values spelled by keys that begin with a tag or a text and show where they end. -/
class Keyed (α : Type u) where
  key : α → List KeySymbol
  starts : ∀ a, ∃ x xs, key a = x :: xs ∧ x ≠ .stop
  split : ∀ {a b : α} {r s : List KeySymbol}, key a ++ r = key b ++ s → a = b ∧ r = s

namespace Keyed

variable {α : Type u} {β : Type v} [Keyed α] [Keyed β]

theorem key_injective {a b : α} (h : key a = key b) : a = b :=
  (split (r := []) (s := []) (by simpa using h)).1

instance : Ord α := ⟨fun a b => compare (key a) (key b)⟩

theorem compare_def (a b : α) : compare a b = compare (key a) (key b) := rfl

instance : Std.TransOrd α where
  eq_swap {a b} := @Std.OrientedCmp.eq_swap (List KeySymbol) compare _ (key a) (key b)
  isLE_trans {a b c} :=
    @Std.TransCmp.isLE_trans (List KeySymbol) compare _ (key a) (key b) (key c)

instance : Std.LawfulEqOrd α where
  compare_self {a} := @Std.ReflCmp.compare_self (List KeySymbol) compare _ (key a)
  eq_of_compare h := key_injective (@Std.LawfulEqCmp.eq_of_compare (List KeySymbol) compare _ _ _ h)

/-- Equality read off the comparison. -/
def decEq : DecidableEq α := fun a b =>
  decidable_of_iff (compare a b = .eq) Std.LawfulEqCmp.compare_eq_iff_eq

/-- A list is spelled by its members and a stop, so a list comes after the lists it extends. -/
def listKey (l : List α) : List KeySymbol := l.flatMap key ++ [.stop]

theorem listKey_nil : listKey ([] : List α) = [.stop] := rfl

theorem listKey_cons (a : α) (l : List α) : listKey (a :: l) = key a ++ listKey l := by
  simp [listKey]

theorem listKey_split {l m : List α} {r s : List KeySymbol} (h : listKey l ++ r = listKey m ++ s) :
    l = m ∧ r = s := by
  induction l generalizing m with
  | nil =>
    cases m with
    | nil => exact ⟨rfl, by simpa [listKey_nil] using h⟩
    | cons b m =>
      obtain ⟨x, xs, hx, hne⟩ := starts b
      simp only [listKey_nil, listKey_cons, hx, List.cons_append, List.cons.injEq] at h
      exact absurd h.1.symm hne
  | cons a l ih =>
    cases m with
    | nil =>
      obtain ⟨x, xs, hx, hne⟩ := starts a
      simp only [listKey_nil, listKey_cons, hx, List.cons_append, List.cons.injEq] at h
      exact absurd h.1 hne
    | cons b m =>
      simp only [listKey_cons, List.append_assoc] at h
      obtain ⟨rfl, h'⟩ := split h
      obtain ⟨rfl, h''⟩ := ih h'
      exact ⟨rfl, h''⟩

/-- Pairs compare by their first parts, then by their second. -/
instance : Keyed (α × β) where
  key p := key p.1 ++ key p.2
  starts p := by
    obtain ⟨x, xs, hx, hne⟩ := starts p.1
    exact ⟨x, xs ++ key p.2, by simp [hx], hne⟩
  split {p q r s} h := by
    simp only [List.append_assoc] at h
    obtain ⟨h₁, h⟩ := split h
    obtain ⟨h₂, h⟩ := split h
    exact ⟨Prod.ext h₁ h₂, h⟩

end Keyed

end OwlStructure
