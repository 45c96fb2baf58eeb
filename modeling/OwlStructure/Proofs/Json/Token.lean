import OwlStructure.Json.Token

/-!
Written tokens are read back. A token is cut off the front of a text whatever follows it, except
that a number has to be followed by something that is no part of a number.
-/
namespace OwlStructure.Json.Token

/-! ### Strings -/

theorem hexValue?_hexDigit {n : Nat} (h : n < 16) : hexValue? (hexDigit n) = some n := by
  revert n
  decide

/-- The code of a control character reads as the character's number. -/
theorem hexCode?_hexDigit {n : Nat} (h : n < 32) :
    hexCode? '0' '0' (hexDigit (n / 16)) (hexDigit (n % 16)) = some n := by
  have hzero : hexValue? '0' = some 0 := by decide
  have hhigh := hexValue?_hexDigit (n := n / 16) (by omega)
  have hlow := hexValue?_hexDigit (n := n % 16) (Nat.mod_lt _ (by decide))
  simp only [hexCode?, hzero, hhigh, hlow, Option.some.injEq]
  omega

/-- A character is written with a letter of its own after a backslash, by its code, or as it is. -/
theorem escape_cases (c : Char) :
    (∃ e, escape c = ['\\', e] ∧ unescape? e = some c) ∨
      (c.toNat < 32 ∧
        escape c = ['\\', 'u', '0', '0', hexDigit (c.toNat / 16), hexDigit (c.toNat % 16)]) ∨
        ¬ c.toNat < 32 ∧ c ≠ '"' ∧ c ≠ '\\' ∧ escape c = [c] := by
  unfold escape
  iterate 7
    split
    · next h =>
      subst h
      exact .inl ⟨_, rfl, by decide⟩
  split
  · next h => exact .inr (.inl ⟨h, rfl⟩)
  · next h => exact .inr (.inr ⟨h, by assumption, by assumption, rfl⟩)

theorem joinUnits?_plain (read : List Char) (c : Char) (us : List StringUnit) :
    joinUnits? read (.plain c :: us) = joinUnits? (c :: read) us := by
  rw [joinUnits?]

theorem joinUnits?_code (read : List Char) {n : Nat} (us : List StringUnit) (h : n < 0xd800) :
    joinUnits? read (.code n :: us) = joinUnits? (Char.ofNat n :: read) us := by
  rw [joinUnits?.eq_def]
  simp only [h, true_or, ↓reduceIte]

theorem units?_letter {c e : Char} (done : List StringUnit) (rest : List Char)
    (h : unescape? e = some c) :
    units? done ('\\' :: e :: rest) = units? (.plain c :: done) rest := by
  have hne : e ≠ 'u' := by
    rintro rfl
    simp [unescape?] at h
  rw [units?]
  · simp only [h]
  · intro _ _ _ _ _ he
    exact absurd he hne

theorem units?_plain {c : Char} (done : List StringUnit) (rest : List Char)
    (h : ¬ c.toNat < 32) (hquote : c ≠ '"') (hbackslash : c ≠ '\\') :
    units? done (c :: rest) = units? (.plain c :: done) rest := by
  rw [units?]
  · simp only [h, hbackslash, or_self, ↓reduceIte]
  · exact hquote
  · intro _ _ _ _ _ he
    exact absurd he hbackslash
  · intro _ _ he
    exact absurd he hbackslash

/-- A written character reads as one unit, which stands for the character. -/
theorem units?_escape (c : Char) (done : List StringUnit) (rest : List Char) :
    ∃ u, units? done (escape c ++ rest) = units? (u :: done) rest ∧
      ∀ read us, joinUnits? read (u :: us) = joinUnits? (c :: read) us := by
  rcases escape_cases c with ⟨e, he, hc⟩ | ⟨hc, he⟩ | ⟨hc, hquote, hbackslash, he⟩
  · rw [he]
    exact ⟨.plain c, units?_letter done rest hc, fun read us => joinUnits?_plain read c us⟩
  · refine ⟨.code c.toNat, ?_, fun read us => ?_⟩
    · rw [he]
      simp only [List.cons_append, List.nil_append, units?, hexCode?_hexDigit hc]
    · rw [joinUnits?_code read us (by omega), Char.ofNat_toNat]
  · rw [he]
    exact ⟨.plain c, units?_plain done rest hc hquote hbackslash,
      fun read us => joinUnits?_plain read c us⟩

theorem units?_quoted (cs : List Char) (done : List StringUnit) (rest : List Char) :
    ∃ us, units? done (cs.flatMap escape ++ '"' :: rest) = some (done.reverse ++ us, rest) ∧
      ∀ read, joinUnits? read us = some (String.ofList (read.reverse ++ cs)) := by
  induction cs generalizing done with
  | nil => exact ⟨[], by simp [units?], fun read => by simp [joinUnits?]⟩
  | cons c cs ih =>
    obtain ⟨u, hunit, hjoin⟩ := units?_escape c done (cs.flatMap escape ++ '"' :: rest)
    obtain ⟨us, hrest, hjoinRest⟩ := ih (u :: done)
    refine ⟨u :: us, ?_, fun read => ?_⟩
    · rw [List.flatMap_cons, List.append_assoc, hunit, hrest]
      simp
    · rw [hjoin, hjoinRest]
      simp

theorem next?_quote (s : JsonText) (rest : List Char) :
    next? (quote s ++ rest) = some (.str s, rest) := by
  cases s with
  | none =>
    have hcode : hexCode? 'd' '8' '0' '0' = some 0xd800 := by decide
    simp [quote, next?, units?, hcode, joinUnits?]
  | some s =>
    obtain ⟨us, hunits, hjoin⟩ := units?_quoted s.toList [] rest
    simp only [quote, List.cons_append, List.append_assoc, List.nil_append, next?, hunits,
      hjoin, List.reverse_nil, String.ofList_toList]

/-! ### Numbers -/

/-- A text does not go on with a part of a number. -/
def EndsNumber (s : List Char) : Prop :=
  ∀ c ∈ s.head?, c.isDigit = false ∧ c ≠ '.' ∧ c ≠ 'e' ∧ c ≠ 'E'

theorem exists_toDigits_eq_cons (n : Nat) :
    ∃ c cs, Nat.toDigits 10 n = c :: cs ∧ c.isDigit = true := by
  obtain ⟨c, cs, h⟩ := List.exists_cons_of_ne_nil (Nat.toDigits_ne_nil (n := n) (b := 10))
  have hc : c ∈ Nat.toDigits 10 n := h ▸ List.mem_cons_self
  exact ⟨c, cs, h, Nat.isDigit_of_mem_toDigits (by decide) (by decide) hc⟩

theorem digitChar_ne_zero : ∀ n < 10, 0 < n → Nat.digitChar n ≠ '0' := by decide

/-- A positive number is written without leading zeros. -/
theorem head?_toDigits_ne_zero {n : Nat} (h : 0 < n) : (Nat.toDigits 10 n).head? ≠ some '0' := by
  induction n using Nat.strongRecOn with
  | ind n ih =>
    rw [Nat.toDigits_eq_if (by decide)]
    split
    · next hlt => simpa using digitChar_ne_zero n hlt h
    · next hle =>
      have hdiv := ih (n / 10) (by omega) (by omega)
      obtain ⟨c, cs, hc, -⟩ := exists_toDigits_eq_cons (n / 10)
      rw [hc] at hdiv ⊢
      exact hdiv

section

variable {rest : List Char} (h : EndsNumber rest)

include h

theorem takeWhile_isDigit_append {digits : List Char} (hd : ∀ c ∈ digits, c.isDigit = true) :
    (digits ++ rest).takeWhile Char.isDigit = digits := by
  rw [List.takeWhile_append_of_pos hd]
  cases rest with
  | nil => simp
  | cons c rest => simp [(h c rfl).1]

theorem skipDigits_append {digits : List Char} (hd : ∀ c ∈ digits, c.isDigit = true) :
    skipDigits (digits ++ rest) = rest := by
  unfold skipDigits
  rw [List.dropWhile_append_of_pos hd]
  cases rest with
  | nil => rfl
  | cons c rest => simp [(h c rfl).1]

theorem skipFraction?_of_endsNumber : skipFraction? rest = some rest := by
  rw [skipFraction?.eq_def]
  split
  · next c _ => exact absurd rfl (h '.' rfl).2.1
  · exact absurd rfl (h '.' rfl).2.1
  · rfl

theorem skipExponent?_of_endsNumber : skipExponent? rest = some rest := by
  cases rest with
  | nil => rfl
  | cons c rest =>
    obtain ⟨-, -, he, hE⟩ := h c rfl
    rw [skipExponent?, if_neg (by simp [he, hE])]

theorem unsigned?_toDigits (n : Nat) :
    unsigned? (Nat.toDigits 10 n ++ rest) = some (some n, rest) := by
  have hdigits (c : Char) (hc : c ∈ Nat.toDigits 10 n) : c.isDigit = true :=
    Nat.isDigit_of_mem_toDigits (by decide) (by decide) hc
  have hleading : ¬ (Nat.toDigits 10 n = [] ∨
      (Nat.toDigits 10 n).head? = some '0' ∧ 1 < (Nat.toDigits 10 n).length) := by
    rintro (hnil | ⟨hzero, hlong⟩)
    · exact Nat.toDigits_ne_nil hnil
    · rcases Nat.eq_zero_or_pos n with rfl | hn
      · simp [Nat.toDigits_zero] at hlong
      · exact head?_toDigits_ne_zero hn hzero
  simp only [unsigned?, takeWhile_isDigit_append h hdigits, skipDigits_append h hdigits,
    if_neg hleading, skipFraction?_of_endsNumber h, Option.bind_some,
    skipExponent?_of_endsNumber h, ↓reduceIte, Nat.ofDigitChars_ten_toDigits]

theorem number?_decimal (i : Int) : number? (decimal i ++ rest) = some (.int i, rest) := by
  cases i with
  | negSucc n =>
    simp only [decimal, List.cons_append, number?, unsigned?_toDigits h]
  | ofNat n =>
    obtain ⟨c, cs, hc, hdigit⟩ := exists_toDigits_eq_cons n
    have hminus (s : List Char) : Nat.toDigits 10 n ++ rest ≠ '-' :: s := by
      rw [hc]
      rintro hs
      obtain ⟨rfl, -⟩ := List.cons.inj hs
      cases hdigit
    rw [decimal, number?.eq_def]
    split
    · next s hs => exact absurd hs (hminus s)
    · simp only [unsigned?_toDigits h]

end

/-! ### Tokens -/

/-- A number has to be followed by what is no part of it, and any other token by nothing special. -/
def EndsBefore : Token → List Char → Prop
  | .int _, rest => EndsNumber rest
  | .real, rest => EndsNumber rest
  | _, _ => True

/-- What begins with a digit or a sign can only be a number. -/
theorem next?_eq_number? {c : Char} (s : List Char) (h : c.isDigit = true ∨ c = '-') :
    next? (c :: s) = number? (c :: s) := by
  rw [next?.eq_def]
  split
  case h_11 => rfl
  all_goals
    next hs =>
      obtain ⟨rfl, -⟩ := List.cons.inj hs
      exact absurd h (by decide)

theorem exists_decimal_eq_cons (i : Int) :
    ∃ c cs, decimal i = c :: cs ∧ (c.isDigit = true ∨ c = '-') := by
  cases i with
  | ofNat n =>
    obtain ⟨c, cs, hc, hdigit⟩ := exists_toDigits_eq_cons n
    exact ⟨c, cs, hc, .inl hdigit⟩
  | negSucc n => exact ⟨'-', _, rfl, .inr rfl⟩

/-- A written token, in front of any text that it ends before, is the next token. -/
theorem next?_chars {t : Token} {rest : List Char} (h : t.EndsBefore rest) :
    next? (t.chars ++ rest) = some (t, rest) := by
  cases t with
  | openArr | closeArr | openObj | closeObj | comma | colon | null => rfl
  | bool b => cases b <;> rfl
  | str s => exact next?_quote s rest
  | int i =>
    obtain ⟨c, cs, hc, hfirst⟩ := exists_decimal_eq_cons i
    have hnumber := number?_decimal h i
    rw [hc, List.cons_append, ← next?_eq_number? _ hfirst] at hnumber
    rwa [chars, hc]
  | real =>
    have hzero := unsigned?_toDigits h 0
    rw [Nat.toDigits_zero] at hzero
    rw [chars, List.cons_append, next?_eq_number? _ (.inr rfl)]
    simp only [number?, hzero]

theorem exists_chars_eq_cons (t : Token) : ∃ c cs, t.chars = c :: cs ∧ isSpace c = false := by
  cases t with
  | openArr | closeArr | openObj | closeObj | comma | colon | null | real => exact ⟨_, _, rfl, rfl⟩
  | bool b => cases b <;> exact ⟨_, _, rfl, rfl⟩
  | str s => cases s <;> exact ⟨_, _, rfl, rfl⟩
  | int i =>
    obtain ⟨c, cs, hc, hfirst⟩ := exists_decimal_eq_cons i
    refine ⟨c, cs, hc, ?_⟩
    unfold isSpace
    rcases hfirst with hdigit | rfl
    · refine decide_eq_false ?_
      rintro (rfl | rfl | rfl | rfl) <;> cases hdigit
    · rfl

/-! ### Texts -/

theorem lex_space {c : Char} (done : List Token) (s : List Char) (h : isSpace c = true) :
    lex done (c :: s) = lex done s := by
  rw [lex, if_pos h]

theorem lex_chars {t : Token} (done : List Token) {rest : List Char} (h : t.EndsBefore rest) :
    lex done (t.chars ++ rest) = lex (t :: done) rest := by
  have hnext := next?_chars h
  obtain ⟨c, cs, hc, hspace⟩ := exists_chars_eq_cons t
  rw [hc, List.cons_append] at hnext ⊢
  rw [lex, if_neg (by simp [hspace])]
  split
  · next ht => rw [hnext] at ht; cases ht; rfl
  · next ht => rw [hnext] at ht; cases ht

end OwlStructure.Json.Token
