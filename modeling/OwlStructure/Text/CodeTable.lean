/-!
Tables of code points, written as ascending ranges.
-/
namespace OwlStructure

/-- Every range starts at or after the given bound, ends no earlier than it starts, and is the
bound of those behind it. -/
def ascending : Nat → List (Nat × Nat) → Bool
  | _, [] => true
  | bound, (first, last) :: rest =>
    decide (bound ≤ first) && decide (first ≤ last) && ascending (last + 1) rest

/-- A set of code points by its ranges, each given by its first and last member. -/
structure CodeTable where
  ranges : List (Nat × Nat)
  ordered : ascending 0 ranges = true

namespace CodeTable

/-- The ranges ascend, so the search stops in front of the first that starts beyond the code. -/
def search (code : Nat) : List (Nat × Nat) → Bool
  | [] => false
  | (first, last) :: rest =>
    if code < first then false else if code ≤ last then true else search code rest

def contains (t : CodeTable) (c : Char) : Bool := search c.toNat t.ranges

theorem bound_le_of_ascending {bound : Nat} {rs : List (Nat × Nat)}
    (h : ascending bound rs = true) {r : Nat × Nat} (hr : r ∈ rs) : bound ≤ r.1 := by
  induction rs generalizing bound with
  | nil => cases hr
  | cons head rest ih =>
    obtain ⟨first, last⟩ := head
    simp only [ascending, Bool.and_eq_true, decide_eq_true_eq] at h
    rcases List.mem_cons.mp hr with rfl | hr
    · exact h.1.1
    · have := ih h.2 hr
      omega

theorem search_iff {code bound : Nat} {rs : List (Nat × Nat)} (h : ascending bound rs = true) :
    search code rs = true ↔ ∃ r ∈ rs, r.1 ≤ code ∧ code ≤ r.2 := by
  induction rs generalizing bound with
  | nil => simp [search]
  | cons head rest ih =>
    obtain ⟨first, last⟩ := head
    simp only [ascending, Bool.and_eq_true, decide_eq_true_eq] at h
    simp only [search, List.mem_cons, exists_eq_or_imp]
    split
    case isTrue hlt =>
      constructor
      · intro hf
        cases hf
      · rintro (hin | ⟨r, hr, hin⟩)
        · omega
        · have := bound_le_of_ascending h.2 hr
          omega
    case isFalse hlt =>
      split
      case isTrue hle => simp only [true_iff]; exact Or.inl ⟨by omega, hle⟩
      case isFalse hle =>
        rw [ih h.2]
        exact ⟨Or.inr, fun hin => hin.resolve_left fun hin => hle hin.2⟩

theorem contains_iff (t : CodeTable) (c : Char) :
    t.contains c = true ↔ ∃ r ∈ t.ranges, r.1 ≤ c.toNat ∧ c.toNat ≤ r.2 :=
  search_iff t.ordered

end CodeTable

end OwlStructure
