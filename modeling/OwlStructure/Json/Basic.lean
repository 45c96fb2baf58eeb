/-!
JSON values as they are read and written here. Numbers are told apart only as far as a field can
take them: an integer keeps its value, and every other number, a signed zero among them, is `real`.
-/
namespace OwlStructure

/-- The content of a JSON string. Escapes can leave a surrogate unpaired; such a string is no text
and is kept as `none`, which may stand wherever nothing reads it. -/
abbrev JsonText := Option String

inductive Json where
  | null
  | bool (value : Bool)
  | int (value : Int)
  | real
  | str (text : JsonText)
  | arr (items : List Json)
  | obj (members : List (JsonText × Json))

namespace Json

instance : Inhabited Json := ⟨.null⟩

def text (s : String) : Json := .str (some s)

/-- An object with the given fields, in the given order. -/
def record (fields : List (String × Json)) : Json :=
  .obj (fields.map fun f => (some f.1, f.2))

/-- One alternative of a sum, with its payload. -/
def variant (name : String) (payload : Json) : Json := record [(name, payload)]

mutual

/-- How many arrays and objects are nested in each other. -/
def depth : Json → Nat
  | .arr items => depthItems items + 1
  | .obj members => depthMembers members + 1
  | _ => 0

def depthItems : List Json → Nat
  | [] => 0
  | j :: rest => max (depth j) (depthItems rest)

def depthMembers : List (JsonText × Json) → Nat
  | [] => 0
  | (_, j) :: rest => max (depth j) (depthMembers rest)

end

end Json

end OwlStructure
