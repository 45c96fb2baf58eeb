import OwlStructure.Text.GraphemeExtend
import OwlStructure.Text.Printable
/-!
Outlines: texts that show how a value is built, with the name of every constructor and field.
-/
namespace OwlStructure

inductive Outline where
  | word (text : String)
  | quoted (text : String)
  | call (name : String) (arguments : List Outline)
  | record (name : String) (fields : List (String × Outline))
  | list (items : List Outline)
  | set (items : List Outline)

namespace Outline

/-- A character between quotes. One that cannot be seen by itself, or that is drawn on the one
before it, is written by its code. -/
def escape (c : Char) : List Char :=
  match c with
  | '"' => ['\\', '"']
  | '\\' => ['\\', '\\']
  | '\n' => ['\\', 'n']
  | '\r' => ['\\', 'r']
  | '\t' => ['\\', 't']
  | '\x00' => ['\\', '0']
  | c =>
    if isPrintable c && !isAttached c then [c]
    else '\\' :: 'u' :: '\x7b' :: Nat.toDigits 16 c.toNat ++ ['\x7d']

def quote (s : String) : String := "\"" ++ String.ofList (s.toList.flatMap escape) ++ "\""

mutual

def render : Outline → String
  | .word t => t
  | .quoted t => quote t
  | .call n arguments => n ++ "(" ++ ", ".intercalate (renderItems arguments) ++ ")"
  | .record n fields => n ++ " \x7b " ++ ", ".intercalate (renderFields fields) ++ " \x7d"
  | .list items => "[" ++ ", ".intercalate (renderItems items) ++ "]"
  | .set items => "\x7b" ++ ", ".intercalate (renderItems items) ++ "\x7d"

def renderItems : List Outline → List String
  | [] => []
  | o :: rest => render o :: renderItems rest

def renderFields : List (String × Outline) → List String
  | [] => []
  | (n, o) :: rest => (n ++ ": " ++ render o) :: renderFields rest

end

def nat (n : Nat) : Outline := .word n.repr

def bool (b : Bool) : Outline := .word (if b then "true" else "false")

end Outline

end OwlStructure
