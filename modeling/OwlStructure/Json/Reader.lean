import OwlStructure.Json.Token

/-!
From tokens to values. The reader keeps the containers that are still open on a stack and says at
each point what may come next; a text is a value when the reader ends just after one, with no
container open.
-/
namespace OwlStructure.Json

/-- A container that is still open, with what was read of it so far, the last part first. -/
inductive Frame where
  | item (before : List Json)
  | member (before : List (JsonText × Json)) (name : JsonText)

/-- What the reader has come to. -/
inductive ReadState where
  | value (stack : List Frame)
  | firstItem (stack : List Frame)
  | firstName (stack : List Frame)
  | name (before : List (JsonText × Json)) (stack : List Frame)
  | colon (before : List (JsonText × Json)) (name : JsonText) (stack : List Frame)
  | after (value : Json) (stack : List Frame)

namespace ReadState

/-- A value begins. -/
def start (stack : List Frame) : Token → Option ReadState
  | .openArr => some (.firstItem stack)
  | .openObj => some (.firstName stack)
  | .null => some (.after .null stack)
  | .bool b => some (.after (.bool b) stack)
  | .int i => some (.after (.int i) stack)
  | .real => some (.after .real stack)
  | .str s => some (.after (.str s) stack)
  | _ => none

def step : ReadState → Token → Option ReadState
  | .value stack, t => start stack t
  | .firstItem stack, .closeArr => some (.after (.arr []) stack)
  | .firstItem stack, t => start (.item [] :: stack) t
  | .firstName stack, .closeObj => some (.after (.obj []) stack)
  | .firstName stack, .str n => some (.colon [] n stack)
  | .name before stack, .str n => some (.colon before n stack)
  | .colon before n stack, .colon => some (.value (.member before n :: stack))
  | .after j (.item before :: stack), .comma => some (.value (.item (j :: before) :: stack))
  | .after j (.item before :: stack), .closeArr =>
    some (.after (.arr (j :: before).reverse) stack)
  | .after j (.member before n :: stack), .comma => some (.name ((n, j) :: before) stack)
  | .after j (.member before n :: stack), .closeObj =>
    some (.after (.obj ((n, j) :: before).reverse) stack)
  | _, _ => none

def run : ReadState → List Token → Option ReadState
  | state, [] => some state
  | state, t :: rest =>
    match state.step t with
    | some state => run state rest
    | none => none

end ReadState

def ofTokens? (tokens : List Token) : Option Json :=
  match ReadState.run (.value []) tokens with
  | some (.after j []) => some j
  | _ => none

/-- The value that a text writes, if it is JSON. -/
def parse? (text : String) : Option Json := (Token.lex [] text.toList).bind ofTokens?

end OwlStructure.Json
