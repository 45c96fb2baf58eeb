/-!
Decimal numbers in texts: numbers with the same digits are equal, also behind one text, and the
digits of a number end with its last one.
-/
namespace OwlStructure

variable {m n : Nat}

theorem toDigits_inj : Nat.toDigits 10 m = Nat.toDigits 10 n ↔ m = n := by
  refine ⟨fun h => ?_, congrArg _⟩
  rw [← Nat.ofDigitChars_ten_toDigits (n := m), h, Nat.ofDigitChars_ten_toDigits]

theorem append_repr_inj {text : String} : text ++ m.repr = text ++ n.repr ↔ m = n := by
  refine ⟨fun h => ?_, fun h => h ▸ rfl⟩
  have hlist := congrArg String.toList h
  rw [String.toList_append, String.toList_append, List.append_cancel_left_eq, Nat.toList_repr,
    Nat.toList_repr] at hlist
  exact toDigits_inj.1 hlist

/-- The decimal digits of a number end with its last digit. -/
theorem getLast?_toDigits (n : Nat) :
    (Nat.toDigits 10 n).getLast? = some (n % 10).digitChar := by
  rw [Nat.toDigits_eq_if (by decide)]
  split
  · next h => rw [Nat.mod_eq_of_lt h, List.getLast?_singleton]
  · exact List.getLast?_concat

theorem digitChar_injOn (hm : m < 10) (hn : n < 10) (h : m.digitChar = n.digitChar) : m = n := by
  have hdigits : Nat.toDigits 10 m = Nat.toDigits 10 n := by
    rw [Nat.toDigits_of_lt_base hm, Nat.toDigits_of_lt_base hn, h]
  exact toDigits_inj.1 hdigits

end OwlStructure
