import OwlStructure.Json.Reader
import OwlStructure.Json.Printer

/-!
How the values of this library stand in JSON. A record is an object with its fields in any order,
or an array of all its fields in their order. One alternative of a sum is an object with one member
that holds the payload; an alternative without payload is its bare name, or a member that holds
`null`. The fields of an alternative may be an array as well, but only in a text. Readers take a
limit on how many containers may still be nested in each other, and count only the containers that
they look into: what stands under a name that no field has is skipped.
-/
namespace OwlStructure.Json

/-- The nesting that a text may have. -/
def nestingLimit : Nat := 127

def text? : Json → Option String
  | .str s => s
  | _ => none

/-- An integer between two bounds. -/
def intBetween? (least greatest : Int) : Json → Option Int
  | .int i => if least ≤ i ∧ i ≤ greatest then some i else none
  | _ => none

/-- A natural number below a bound. -/
def natBelow? (bound : Nat) : Json → Option Nat
  | .int (.ofNat n) => if n < bound then some n else none
  | _ => none

/-- The members of an object by name; every name has to be a text. -/
def members? : List (JsonText × Json) → Option (List (String × Json))
  | [] => some []
  | (some n, j) :: rest => (members? rest).map ((n, j) :: ·)
  | (none, _) :: _ => none

/-- What the members hold under a name: `none` for a name given twice. -/
def field? (members : List (String × Json)) (name : String) : Option (Option Json) :=
  match members.filter fun m => m.1 == name with
  | [] => some none
  | [m] => some (some m.2)
  | _ => none

/-- The fields of a record in order, each one perhaps missing. An array may leave out fields at its
end if `partly` is set, and has to give all of them otherwise. -/
def fields? (names : List String) (partly : Bool) : Json → Option (List (Option Json))
  | .obj members => (members? members).bind fun ms => names.mapM (field? ms)
  | .arr items =>
    if items.length = names.length ∨ (partly = true ∧ items.length < names.length) then
      some (items.map some ++ List.replicate (names.length - items.length) none)
    else none
  | _ => none

/-- The fields of a record that has to give all of them. -/
def record? (names : List String) (j : Json) : Option (List Json) :=
  (j.fields? names false).bind fun fields => fields.mapM id

/-- The fields of an alternative of a sum. They are given by position only where that is allowed: in
a text it is, and in a value that has been taken apart before it is not. -/
def payload? (positional : Bool) (names : List String) (j : Json) : Option (List Json) :=
  match j, positional with
  | .arr _, false => none
  | j, _ => j.record? names

/-- The name of an alternative without payload. -/
def unitVariant? : Nat → Json → Option String
  | _, .str s => s
  | _ + 1, .obj [(some name, .null)] => some name
  | _, _ => none

/-- An array read item by item. -/
def listOf? (read : Nat → Json → Option α) : Nat → Json → Option (List α)
  | limit + 1, .arr items => items.mapM (read limit)
  | _, _ => none

/-- A text read as one value of a type. -/
def ofText? (read : Nat → Json → Option α) (text : String) : Option α :=
  (parse? text).bind (read nestingLimit)

end OwlStructure.Json
