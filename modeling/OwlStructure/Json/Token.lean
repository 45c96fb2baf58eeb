import OwlStructure.Json.Basic

/-!
Tokens of JSON texts: how each one is written, and how a text is cut into them. Only space, tab,
line feed and carriage return may stand between tokens.
-/
namespace OwlStructure.Json

inductive Token where
  | openArr
  | closeArr
  | openObj
  | closeObj
  | comma
  | colon
  | null
  | bool (value : Bool)
  | int (value : Int)
  | real
  | str (text : JsonText)
  deriving DecidableEq, Repr

namespace Token

/-! ### Writing -/

def hexDigit (n : Nat) : Char := Nat.digitChar n

/-- Quotes, backslashes and control characters are escaped, the latter by a short escape where
there is one and by two hexadecimal digits otherwise. -/
def escape (c : Char) : List Char :=
  if c = '"' then ['\\', '"']
  else if c = '\\' then ['\\', '\\']
  else if c = '\x08' then ['\\', 'b']
  else if c = '\t' then ['\\', 't']
  else if c = '\n' then ['\\', 'n']
  else if c = '\x0c' then ['\\', 'f']
  else if c = '\r' then ['\\', 'r']
  else if c.toNat < 32 then ['\\', 'u', '0', '0', hexDigit (c.toNat / 16), hexDigit (c.toNat % 16)]
  else [c]

def quote : JsonText → List Char
  | some s => '"' :: s.toList.flatMap escape ++ ['"']
  | none => ['"', '\\', 'u', 'd', '8', '0', '0', '"']

def decimal : Int → List Char
  | .ofNat n => Nat.toDigits 10 n
  | .negSucc n => '-' :: Nat.toDigits 10 (n + 1)

def chars : Token → List Char
  | .openArr => ['[']
  | .closeArr => [']']
  | .openObj => ['{']
  | .closeObj => ['}']
  | .comma => [',']
  | .colon => [':']
  | .null => ['n', 'u', 'l', 'l']
  | .bool true => ['t', 'r', 'u', 'e']
  | .bool false => ['f', 'a', 'l', 's', 'e']
  | .int i => decimal i
  | .real => ['-', '0']
  | .str s => quote s

/-! ### Reading strings -/

/-- A character of a string as written: itself, or a code unit given by four hexadecimal digits. -/
inductive StringUnit where
  | plain (c : Char)
  | code (n : Nat)
  deriving DecidableEq, Repr

def hexValue? (c : Char) : Option Nat :=
  if '0' ≤ c ∧ c ≤ '9' then some (c.toNat - 48)
  else if 'a' ≤ c ∧ c ≤ 'f' then some (c.toNat - 87)
  else if 'A' ≤ c ∧ c ≤ 'F' then some (c.toNat - 55)
  else none

def hexCode? (a b c d : Char) : Option Nat :=
  match hexValue? a, hexValue? b, hexValue? c, hexValue? d with
  | some a, some b, some c, some d => some (((a * 16 + b) * 16 + c) * 16 + d)
  | _, _, _, _ => none

def unescape? (c : Char) : Option Char :=
  if c = '"' ∨ c = '\\' ∨ c = '/' then some c
  else if c = 'b' then some '\x08'
  else if c = 'f' then some '\x0c'
  else if c = 'n' then some '\n'
  else if c = 'r' then some '\r'
  else if c = 't' then some '\t'
  else none

/-- The units up to the closing quote, put in front of those read before, and what follows. Control
characters have to be escaped. -/
def units? (done : List StringUnit) : List Char → Option (List StringUnit × List Char)
  | [] => none
  | '"' :: rest => some (done.reverse, rest)
  | '\\' :: 'u' :: a :: b :: c :: d :: rest =>
    match hexCode? a b c d with
    | some n => units? (.code n :: done) rest
    | none => none
  | '\\' :: c :: rest =>
    match unescape? c with
    | some c => units? (.plain c :: done) rest
    | none => none
  | c :: rest => if c.toNat < 32 ∨ c = '\\' then none else units? (.plain c :: done) rest

/-- Code units as characters: a high surrogate needs a low one right after it, and a low one
stands for nothing by itself. -/
def joinUnits? (done : List Char) : List StringUnit → JsonText
  | [] => some (String.ofList done.reverse)
  | .plain c :: rest => joinUnits? (c :: done) rest
  | .code n :: rest =>
    if n < 0xd800 ∨ 0xdfff < n then joinUnits? (Char.ofNat n :: done) rest
    else if 0xdc00 ≤ n then none
    else
      match rest with
      | .code m :: rest =>
        if 0xdc00 ≤ m ∧ m ≤ 0xdfff then
          joinUnits? (Char.ofNat (0x10000 + (n - 0xd800) * 0x400 + (m - 0xdc00)) :: done) rest
        else none
      | _ => none

theorem units?_length {done us : List StringUnit} {s r : List Char}
    (h : units? done s = some (us, r)) : r.length < s.length := by
  fun_induction units? done s <;> simp_all <;> omega

/-! ### Reading numbers -/

def skipDigits (s : List Char) : List Char := s.dropWhile Char.isDigit

theorem skipDigits_length (s : List Char) : (skipDigits s).length ≤ s.length :=
  (List.dropWhile_sublist _).length_le

/-- The rest after a fraction, if one stands here. -/
def skipFraction? : List Char → Option (List Char)
  | '.' :: c :: rest => if c.isDigit then some (skipDigits rest) else none
  | '.' :: [] => none
  | s => some s

def skipSign : List Char → List Char
  | '+' :: rest => rest
  | '-' :: rest => rest
  | s => s

/-- The rest after an exponent, if one stands here. -/
def skipExponent? : List Char → Option (List Char)
  | c :: rest =>
    if c = 'e' ∨ c = 'E' then
      match skipSign rest with
      | d :: rest => if d.isDigit then some (skipDigits rest) else none
      | [] => none
    else some (c :: rest)
  | [] => some []

/-- An unsigned number: digits without a leading zero, then perhaps a fraction and an exponent. The
value is given if neither is there. -/
def unsigned? (s : List Char) : Option (Option Nat × List Char) :=
  let digits := s.takeWhile Char.isDigit
  let rest := skipDigits s
  if digits = [] ∨ (digits.head? = some '0' ∧ 1 < digits.length) then none
  else
    match (skipFraction? rest).bind skipExponent? with
    | none => none
    | some rest' =>
      some (if rest'.length = rest.length then some (Nat.ofDigitChars 10 digits 0) else none, rest')

def number? : List Char → Option (Token × List Char)
  | '-' :: s =>
    match unsigned? s with
    | some (some (n + 1), rest) => some (.int (.negSucc n), rest)
    | some (_, rest) => some (.real, rest)
    | none => none
  | s =>
    match unsigned? s with
    | some (some n, rest) => some (.int (.ofNat n), rest)
    | some (none, rest) => some (.real, rest)
    | none => none

theorem skipFraction?_length {s r : List Char} (h : skipFraction? s = some r) :
    r.length ≤ s.length := by
  unfold skipFraction? at h
  split at h
  · next c rest =>
    split at h
    · cases h
      have := skipDigits_length rest
      simp only [List.length_cons]
      omega
    · simp at h
  · simp at h
  · cases h
    exact Nat.le_refl _

theorem skipSign_length (s : List Char) : (skipSign s).length ≤ s.length := by
  unfold skipSign
  split <;> simp

theorem skipExponent?_length {s r : List Char} (h : skipExponent? s = some r) :
    r.length ≤ s.length := by
  unfold skipExponent? at h
  split at h
  · next c rest =>
    split at h
    · split at h
      · next d rest' hs =>
        split at h
        · cases h
          have h₁ := skipSign_length rest
          have h₂ := skipDigits_length rest'
          rw [hs] at h₁
          simp only [List.length_cons] at h₁ ⊢
          omega
        · simp at h
      · simp at h
    · cases h
      exact Nat.le_refl _
  · cases h
    exact Nat.le_refl _

theorem unsigned?_length {s r : List Char} {n : Option Nat} (h : unsigned? s = some (n, r)) :
    r.length < s.length := by
  simp only [unsigned?] at h
  split at h
  · simp at h
  next hd =>
  split at h
  · simp at h
  next rest' hr =>
  cases h
  obtain ⟨mid, h₁, h₂⟩ := Option.bind_eq_some_iff.1 hr
  have h₁ := skipFraction?_length h₁
  have h₂ := skipExponent?_length h₂
  have hs : (s.takeWhile Char.isDigit).length + (skipDigits s).length = s.length := by
    rw [← List.length_append, skipDigits, List.takeWhile_append_dropWhile]
  have : 0 < (s.takeWhile Char.isDigit).length :=
    List.length_pos_iff.2 fun e => hd (.inl e)
  omega

theorem number?_length {s r : List Char} {t : Token} (h : number? s = some (t, r)) :
    r.length < s.length := by
  unfold number? at h
  split at h
  · split at h
    · next h' => cases h; exact Nat.lt_succ_of_lt (unsigned?_length h')
    · next h' => cases h; exact Nat.lt_succ_of_lt (unsigned?_length h')
    · simp at h
  · split at h
    · next h' => cases h; exact unsigned?_length h'
    · next h' => cases h; exact unsigned?_length h'
    · simp at h

/-! ### Cutting a text into tokens -/

/-- The token at the front of a text that begins with none of the blanks, and what follows it. -/
def next? : List Char → Option (Token × List Char)
  | '[' :: s => some (.openArr, s)
  | ']' :: s => some (.closeArr, s)
  | '{' :: s => some (.openObj, s)
  | '}' :: s => some (.closeObj, s)
  | ',' :: s => some (.comma, s)
  | ':' :: s => some (.colon, s)
  | '"' :: s =>
    match units? [] s with
    | some (us, rest) => some (.str (joinUnits? [] us), rest)
    | none => none
  | 'n' :: 'u' :: 'l' :: 'l' :: s => some (.null, s)
  | 't' :: 'r' :: 'u' :: 'e' :: s => some (.bool true, s)
  | 'f' :: 'a' :: 'l' :: 's' :: 'e' :: s => some (.bool false, s)
  | s => number? s

theorem next?_length {s r : List Char} {t : Token} (h : next? s = some (t, r)) :
    r.length < s.length := by
  unfold next? at h
  split at h
  case h_7 =>
    split at h
    · next h' => cases h; exact Nat.lt_succ_of_lt (units?_length h')
    · simp at h
  case h_11 => exact number?_length h
  all_goals
    cases h
    simp only [List.length_cons]
    omega

def isSpace (c : Char) : Bool := c = ' ' ∨ c = '\t' ∨ c = '\n' ∨ c = '\r'

/-- All tokens of a text, after those read before. -/
def lex (done : List Token) : List Char → Option (List Token)
  | [] => some done.reverse
  | c :: s =>
    if isSpace c then lex done s
    else
      match _h : next? (c :: s) with
      | some (t, rest) => lex (t :: done) rest
      | none => none
termination_by s => s.length
decreasing_by
  · simp
  · exact next?_length _h

end Token

end OwlStructure.Json
