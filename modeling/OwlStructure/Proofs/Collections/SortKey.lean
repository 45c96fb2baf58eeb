import OwlStructure.Collections.SortedSet

/-!
Sort keys read back to the values. A key matters up to its end, so values that are spelled one after
the other compare one after the other: lists compare member by member, and sets as their ascending
lists.
-/
namespace OwlStructure

theorem then_of_ne {o : Ordering} (h : o ≠ .eq) (o' : Ordering) : o.then o' = o := by
  cases o with
  | eq => exact absurd rfl h
  | lt | gt => rfl

theorem KeySymbol.stop_first {x : KeySymbol} (hx : x ≠ .stop) :
    compare .stop x = .lt ∧ compare x .stop = .gt := by
  cases x with
  | stop => exact absurd rfl hx
  | tag | text => exact ⟨rfl, rfl⟩

namespace Keyed

variable {α : Type u} [Keyed α]

/-- Spellings that are told apart whatever follows them compare as they do alone. -/
theorem compare_append {x y r s : List KeySymbol} (h : ∀ r s, x ++ r ≠ y ++ s) :
    compare (x ++ r) (y ++ s) = compare x y := by
  induction x generalizing y with
  | nil => exact absurd (List.append_nil y).symm (h y [])
  | cons a x ih =>
    cases y with
    | nil => exact absurd (List.append_nil (a :: x)) (h [] (a :: x))
    | cons b y =>
      simp only [List.cons_append, List.compare_eq_compareLex, List.compareLex_cons_cons]
      cases hab : compare a b with
      | lt => rfl
      | gt => rfl
      | eq =>
        obtain rfl := Std.LawfulEqCmp.eq_of_compare hab
        have hxy : ∀ r s, x ++ r ≠ y ++ s := fun r s e => h r s (congrArg (a :: ·) e)
        simpa only [List.compare_eq_compareLex, Ordering.then] using ih hxy

theorem compare_cons_self (x : KeySymbol) (r s : List KeySymbol) :
    compare (x :: r) (x :: s) = compare r s := by
  simp only [List.compare_cons_cons, Std.ReflCmp.compare_self, Ordering.eq_then]

/-- Symbols after two keys matter only if the keys are those of equal values. -/
theorem compare_key_append (a b : α) (r s : List KeySymbol) :
    compare (key a ++ r) (key b ++ s) = (compare a b).then (compare r s) := by
  by_cases hab : compare a b = .eq
  · obtain rfl := Std.LawfulEqCmp.eq_of_compare hab
    rw [hab, Ordering.eq_then]
    induction key a with
    | nil => rfl
    | cons x k ih => rw [List.cons_append, List.cons_append, compare_cons_self, ih]
  · have hne : a ≠ b := fun h => hab (Std.LawfulEqCmp.compare_eq_iff_eq.2 h)
    rw [compare_append fun _ _ e => hne (split e).1, ← compare_def, then_of_ne hab]

/-- Lists compare member by member, and a list comes after those that it extends. -/
theorem compare_listKey (l m : List α) : compare (listKey l) (listKey m) = compare l m := by
  induction l generalizing m with
  | nil =>
    cases m with
    | nil => rfl
    | cons b m =>
      obtain ⟨x, xs, hx, hne⟩ := starts b
      rw [listKey_nil, listKey_cons, hx, List.cons_append, List.compare_cons_cons,
        (KeySymbol.stop_first hne).1]
      rfl
  | cons a l ih =>
    cases m with
    | nil =>
      obtain ⟨x, xs, hx, hne⟩ := starts a
      rw [listKey_nil, listKey_cons, hx, List.cons_append, List.compare_cons_cons,
        (KeySymbol.stop_first hne).2]
      rfl
    | cons b m =>
      rw [listKey_cons, listKey_cons, compare_key_append, ih, List.compare_cons_cons]

end Keyed

theorem SortedSet.compare_eq [Keyed α] (s t : SortedSet α) :
    compare s t = compare s.toList t.toList :=
  (Keyed.compare_cons_self _ _ _).trans (Keyed.compare_listKey _ _)

end OwlStructure
