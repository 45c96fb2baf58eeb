import OwlStructure.Proofs.Json.Layout

/-!
A value that is written without blanks is read back. The tokens stand next to each other, and a
number still ends where it should: a comma or a bracket comes after it.
-/
namespace OwlStructure.Json

open Token

theorem endsNumber_itemTokens (items : List Json) (rest : List Char) :
    EndsNumber ((itemTokens items).flatMap chars ++ rest) := by
  cases items <;> (rintro c ⟨⟩; decide)

theorem endsNumber_memberTokens (members : List (JsonText × Json)) (rest : List Char) :
    EndsNumber ((memberTokens members).flatMap chars ++ rest) := by
  cases members <;> (rintro c ⟨⟩; decide)

/-- A token that ends before anything, in front of others. -/
theorem lex_flatMap_cons (t : Token) (ts done : List Token) (rest : List Char)
    (h : ∀ s, t.EndsBefore s) :
    lex done ((t :: ts).flatMap chars ++ rest) = lex (t :: done) (ts.flatMap chars ++ rest) := by
  rw [List.flatMap_cons, List.append_assoc, lex_chars done (h _)]

theorem lex_flatMap_name (n : JsonText) (ts done : List Token) (rest : List Char) :
    lex done ((.str n :: .colon :: ts).flatMap chars ++ rest) =
      lex (.colon :: .str n :: done) (ts.flatMap chars ++ rest) := by
  rw [lex_flatMap_cons (.str n) _ _ _ fun _ => trivial,
    lex_flatMap_cons .colon _ _ _ fun _ => trivial]

mutual

theorem lex_tokens : (j : Json) → (done : List Token) → {rest : List Char} → EndsNumber rest →
    lex done (j.tokens.flatMap chars ++ rest) = lex (j.tokens.reverse ++ done) rest
  | .null, done, _, _ => lex_flatMap_cons .null [] done _ fun _ => trivial
  | .bool b, done, _, _ => lex_flatMap_cons (.bool b) [] done _ fun _ => trivial
  | .int i, done, rest, h => by
    simp only [tokens, List.flatMap_singleton]
    exact lex_chars (t := .int i) done h
  | .real, done, rest, h => by
    simp only [tokens, List.flatMap_singleton]
    exact lex_chars (t := .real) done h
  | .str s, done, _, _ => lex_flatMap_cons (.str s) [] done _ fun _ => trivial
  | .arr [], done, rest, _ => by
    rw [tokens, lex_flatMap_cons .openArr _ _ _ fun _ => trivial]
    exact lex_flatMap_cons .closeArr [] _ rest fun _ => trivial
  | .arr (j :: items), done, rest, _ => by
    rw [tokens, List.cons_append, lex_flatMap_cons .openArr _ _ _ fun _ => trivial,
      List.flatMap_append, List.append_assoc,
      lex_tokens j _ (endsNumber_itemTokens items rest), lex_itemTokens items]
    simp
  | .obj [], done, rest, _ => by
    rw [tokens, lex_flatMap_cons .openObj _ _ _ fun _ => trivial]
    exact lex_flatMap_cons .closeObj [] _ rest fun _ => trivial
  | .obj ((n, j) :: members), done, rest, _ => by
    simp only [tokens, List.cons_append]
    rw [lex_flatMap_cons .openObj _ _ _ fun _ => trivial, lex_flatMap_name, List.flatMap_append,
      List.append_assoc, lex_tokens j _ (endsNumber_memberTokens members rest),
      lex_memberTokens members]
    simp

theorem lex_itemTokens : (items : List Json) → (done : List Token) → (rest : List Char) →
    lex done ((itemTokens items).flatMap chars ++ rest) =
      lex ((itemTokens items).reverse ++ done) rest
  | [], done, rest => lex_flatMap_cons .closeArr [] done rest fun _ => trivial
  | j :: items, done, rest => by
    rw [itemTokens, List.cons_append, lex_flatMap_cons .comma _ _ _ fun _ => trivial,
      List.flatMap_append, List.append_assoc,
      lex_tokens j _ (endsNumber_itemTokens items rest), lex_itemTokens items]
    simp

theorem lex_memberTokens : (members : List (JsonText × Json)) → (done : List Token) →
    (rest : List Char) →
    lex done ((memberTokens members).flatMap chars ++ rest) =
      lex ((memberTokens members).reverse ++ done) rest
  | [], done, rest => lex_flatMap_cons .closeObj [] done rest fun _ => trivial
  | (n, j) :: members, done, rest => by
    simp only [memberTokens, List.cons_append]
    rw [lex_flatMap_cons .comma _ _ _ fun _ => trivial, lex_flatMap_name, List.flatMap_append,
      List.append_assoc, lex_tokens j _ (endsNumber_memberTokens members rest),
      lex_memberTokens members]
    simp

end

theorem lex_compact (j : Json) : lex [] j.compact.toList = some j.tokens := by
  have h : lex [] (j.tokens.flatMap chars ++ []) = lex (j.tokens.reverse ++ []) [] :=
    lex_tokens j [] (by rintro c ⟨⟩)
  rw [List.append_nil, List.append_nil] at h
  rw [compact, String.toList_ofList, h]
  simp [lex]

/-- A value written without blanks is read back. -/
theorem parse?_compact (j : Json) : parse? j.compact = some j := by
  rw [parse?, lex_compact, Option.bind_some, ofTokens?_tokens]

theorem ofText?_compact {α : Type} (read : Nat → Json → Option α) (j : Json) :
    ofText? read j.compact = read nestingLimit j := by
  rw [ofText?, parse?_compact, Option.bind_some]

end OwlStructure.Json
