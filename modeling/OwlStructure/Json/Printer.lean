import OwlStructure.Json.Token

/-!
Two layouts of a value: compact, with nothing between the tokens, and indented, with one item or
member a line, two spaces deeper than its container. Empty containers take no lines of their own.
-/
namespace OwlStructure.Json

mutual

/-- The tokens that write a value. -/
def tokens : Json → List Token
  | .null => [.null]
  | .bool b => [.bool b]
  | .int i => [.int i]
  | .real => [.real]
  | .str s => [.str s]
  | .arr [] => [.openArr, .closeArr]
  | .arr (j :: rest) => .openArr :: tokens j ++ itemTokens rest
  | .obj [] => [.openObj, .closeObj]
  | .obj ((n, j) :: rest) => .openObj :: .str n :: .colon :: tokens j ++ memberTokens rest

/-- The items of an array after the first one, and its end. -/
def itemTokens : List Json → List Token
  | [] => [.closeArr]
  | j :: rest => .comma :: tokens j ++ itemTokens rest

/-- The members of an object after the first one, and its end. -/
def memberTokens : List (JsonText × Json) → List Token
  | [] => [.closeObj]
  | (n, j) :: rest => .comma :: .str n :: .colon :: tokens j ++ memberTokens rest

end

/-- The compact layout. -/
def compact (j : Json) : String := String.ofList (j.tokens.flatMap Token.chars)

/-- A line end and the indentation of the next line. -/
def newline (level : Nat) : List Char := '\n' :: List.replicate (2 * level) ' '

mutual

def indentedChars (level : Nat) : Json → List Char
  | .null => Token.chars .null
  | .bool b => Token.chars (.bool b)
  | .int i => Token.chars (.int i)
  | .real => Token.chars .real
  | .str s => Token.chars (.str s)
  | .arr [] => ['[', ']']
  | .arr (j :: rest) =>
    '[' :: newline (level + 1) ++ indentedChars (level + 1) j ++ indentedItems level rest
  | .obj [] => ['{', '}']
  | .obj ((n, j) :: rest) =>
    '{' :: newline (level + 1) ++ Token.quote n ++ [':', ' '] ++ indentedChars (level + 1) j ++
      indentedMembers level rest

def indentedItems (level : Nat) : List Json → List Char
  | [] => newline level ++ [']']
  | j :: rest =>
    ',' :: newline (level + 1) ++ indentedChars (level + 1) j ++ indentedItems level rest

def indentedMembers (level : Nat) : List (JsonText × Json) → List Char
  | [] => newline level ++ ['}']
  | (n, j) :: rest =>
    ',' :: newline (level + 1) ++ Token.quote n ++ [':', ' '] ++ indentedChars (level + 1) j ++
      indentedMembers level rest

end

/-- The indented layout. -/
def indented (j : Json) : String := String.ofList (indentedChars 0 j)

end OwlStructure.Json
