import OwlStructure.Proofs.Json.Shape
import OwlStructure.Proofs.Json.Token

/-!
A value that is laid out in lines is read back. The layout has the tokens of the value, with blanks
between them; and wherever a value may begin, the reader turns the tokens of a value into the value.
-/
namespace OwlStructure.Json

open Token

/-! ### Tokens of a layout -/

-- Every statement is about a part of a text in front of any rest: what follows an item is the rest
-- of the array that it stands in.

theorem lex_newline (level : Nat) (done : List Token) (s : List Char) :
    lex done (newline level ++ s) = lex done s := by
  have hblanks (n : Nat) : lex done (List.replicate n ' ' ++ s) = lex done s := by
    induction n with
    | zero => rfl
    | succ n ih => rw [List.replicate_succ, List.cons_append, lex_space done _ rfl, ih]
  rw [newline, List.cons_append, lex_space done _ rfl, hblanks]

theorem endsNumber_indentedItems (level : Nat) (items : List Json) (rest : List Char) :
    EndsNumber (indentedItems level items ++ rest) := by
  cases items <;> (rintro c ⟨⟩; decide)

theorem endsNumber_indentedMembers (level : Nat) (members : List (JsonText × Json))
    (rest : List Char) : EndsNumber (indentedMembers level members ++ rest) := by
  cases members <;> (rintro c ⟨⟩; decide)

theorem lex_mark {c : Char} (t : Token) (done : List Token) (s : List Char) (hc : t.chars = [c])
    (h : t.EndsBefore s) : lex done (c :: s) = lex (t :: done) s := by
  have hread := lex_chars done h
  rwa [hc] at hread

theorem lex_member (n : JsonText) (done : List Token) (s : List Char) :
    lex done (quote n ++ ':' :: ' ' :: s) = lex (.colon :: .str n :: done) s := by
  have hname : lex done (quote n ++ ':' :: ' ' :: s) = lex (.str n :: done) (':' :: ' ' :: s) :=
    lex_chars (t := .str n) done trivial
  rw [hname, lex_mark .colon _ _ rfl trivial, lex_space _ _ rfl]

mutual

theorem lex_indentedChars (level : Nat) : (j : Json) → (done : List Token) → {rest : List Char} →
    EndsNumber rest →
    lex done (indentedChars level j ++ rest) = lex (j.tokens.reverse ++ done) rest
  | .null, done, _, _ => lex_chars (t := .null) done trivial
  | .bool b, done, _, _ => lex_chars (t := .bool b) done trivial
  | .int i, done, _, h => lex_chars (t := .int i) done h
  | .real, done, _, h => lex_chars (t := .real) done h
  | .str s, done, _, _ => lex_chars (t := .str s) done trivial
  | .arr [], done, rest, _ => by
    simp only [indentedChars, List.cons_append, List.nil_append]
    rw [lex_mark .openArr _ _ rfl trivial, lex_mark .closeArr _ _ rfl trivial]
    rfl
  | .arr (j :: items), done, rest, _ => by
    simp only [indentedChars, List.cons_append, List.append_assoc]
    rw [lex_mark .openArr _ _ rfl trivial, lex_newline,
      lex_indentedChars (level + 1) j _ (endsNumber_indentedItems level items rest),
      lex_indentedItems level items]
    simp [tokens]
  | .obj [], done, rest, _ => by
    simp only [indentedChars, List.cons_append, List.nil_append]
    rw [lex_mark .openObj _ _ rfl trivial, lex_mark .closeObj _ _ rfl trivial]
    rfl
  | .obj ((n, j) :: members), done, rest, _ => by
    simp only [indentedChars, List.cons_append, List.nil_append, List.append_assoc]
    rw [lex_mark .openObj _ _ rfl trivial, lex_newline, lex_member,
      lex_indentedChars (level + 1) j _ (endsNumber_indentedMembers level members rest),
      lex_indentedMembers level members]
    simp [tokens]

theorem lex_indentedItems (level : Nat) : (items : List Json) → (done : List Token) →
    (rest : List Char) →
    lex done (indentedItems level items ++ rest) = lex ((itemTokens items).reverse ++ done) rest
  | [], done, rest => by
    simp only [indentedItems, List.append_assoc, List.cons_append, List.nil_append]
    rw [lex_newline, lex_mark .closeArr _ _ rfl trivial]
    rfl
  | j :: items, done, rest => by
    simp only [indentedItems, List.cons_append, List.append_assoc]
    rw [lex_mark .comma _ _ rfl trivial, lex_newline,
      lex_indentedChars (level + 1) j _ (endsNumber_indentedItems level items rest),
      lex_indentedItems level items]
    simp [itemTokens]

theorem lex_indentedMembers (level : Nat) : (members : List (JsonText × Json)) →
    (done : List Token) → (rest : List Char) →
    lex done (indentedMembers level members ++ rest) =
      lex ((memberTokens members).reverse ++ done) rest
  | [], done, rest => by
    simp only [indentedMembers, List.append_assoc, List.cons_append, List.nil_append]
    rw [lex_newline, lex_mark .closeObj _ _ rfl trivial]
    rfl
  | (n, j) :: members, done, rest => by
    simp only [indentedMembers, List.cons_append, List.nil_append, List.append_assoc]
    rw [lex_mark .comma _ _ rfl trivial, lex_newline, lex_member,
      lex_indentedChars (level + 1) j _ (endsNumber_indentedMembers level members rest),
      lex_indentedMembers level members]
    simp [memberTokens]

end

theorem lex_indented (j : Json) : lex [] j.indented.toList = some j.tokens := by
  have h : lex [] (indentedChars 0 j ++ []) = lex (j.tokens.reverse ++ []) [] :=
    lex_indentedChars 0 j [] (by rintro c ⟨⟩)
  rw [List.append_nil] at h
  rw [indented, String.toList_ofList, h]
  simp [lex]

/-! ### Values of tokens -/

namespace ReadState

theorem run_cons {state next : ReadState} {t : Token} (rest : List Token)
    (h : state.step t = some next) : run state (t :: rest) = run next rest := by
  rw [run, h]

/-- In an array that has just been opened the first item is read as any other. -/
theorem run_firstItem (j : Json) (stack : List Frame) (rest : List Token) :
    run (.firstItem stack) (j.tokens ++ rest) =
      run (.value (.item [] :: stack)) (j.tokens ++ rest) := by
  cases j with
  | null | bool | int | real | str => rfl
  | arr items => cases items <;> rfl
  | obj members => cases members <;> rfl

mutual

theorem run_tokens : (j : Json) → (stack : List Frame) → (rest : List Token) →
    run (.value stack) (j.tokens ++ rest) = run (.after j stack) rest
  | .null, _, _ => rfl
  | .bool _, _, _ => rfl
  | .int _, _, _ => rfl
  | .real, _, _ => rfl
  | .str _, _, _ => rfl
  | .arr [], _, _ => rfl
  | .arr (j :: items), stack, rest => by
    simp only [tokens, List.cons_append, List.append_assoc]
    rw [run_cons _ rfl, run_firstItem, run_tokens j, run_itemTokens items]
    rfl
  | .obj [], _, _ => rfl
  | .obj ((n, j) :: members), stack, rest => by
    simp only [tokens, List.cons_append, List.append_assoc]
    rw [run_cons _ rfl, run_cons _ rfl, run_cons _ rfl, run_tokens j, run_memberTokens members]
    rfl

theorem run_itemTokens : (items : List Json) → (j : Json) → (before : List Json) →
    (stack : List Frame) → (rest : List Token) →
    run (.after j (.item before :: stack)) (itemTokens items ++ rest) =
      run (.after (.arr ((j :: before).reverse ++ items)) stack) rest
  | [], j, before, stack, rest => by
    rw [itemTokens, List.append_nil]
    rfl
  | i :: items, j, before, stack, rest => by
    rw [itemTokens, List.cons_append, List.cons_append, List.append_assoc, run_cons _ rfl,
      run_tokens i, run_itemTokens items]
    simp

theorem run_memberTokens : (members : List (JsonText × Json)) → (n : JsonText) → (j : Json) →
    (before : List (JsonText × Json)) → (stack : List Frame) → (rest : List Token) →
    run (.after j (.member before n :: stack)) (memberTokens members ++ rest) =
      run (.after (.obj (((n, j) :: before).reverse ++ members)) stack) rest
  | [], n, j, before, stack, rest => by
    rw [memberTokens, List.append_nil]
    rfl
  | (m, i) :: members, n, j, before, stack, rest => by
    simp only [memberTokens, List.cons_append, List.append_assoc]
    rw [run_cons _ rfl, run_cons _ rfl, run_cons _ rfl, run_tokens i, run_memberTokens members]
    simp

end

end ReadState

theorem ofTokens?_tokens (j : Json) : ofTokens? j.tokens = some j := by
  have h := ReadState.run_tokens j [] []
  rw [List.append_nil] at h
  rw [ofTokens?, h]
  rfl

/-- A value laid out in lines is read back. -/
theorem parse?_indented (j : Json) : parse? j.indented = some j := by
  rw [parse?, lex_indented, Option.bind_some, ofTokens?_tokens]

/-- What is restored from a value is restored from its text, if the value keeps the limit. -/
theorem Restores.ofText?_indented {α : Type} {read : Nat → Json → Option α} {j : Json} {x : α}
    (h : Restores read j x) :
    ofText? read j.indented = if j.depth ≤ nestingLimit then some x else none := by
  rw [ofText?, parse?_indented, Option.bind_some, h nestingLimit]

end OwlStructure.Json
