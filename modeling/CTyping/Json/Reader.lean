import CTyping.Json.Token

/-!
# Reading JSON

The second half of reading: tokens are put together by a machine with a stack. What is on the stack
is the surroundings of the value that is being read, one `CTyping.Json.Frame` for each array or
object around it, so the machine needs no room of its own however deep values are nested.
-/

namespace CTyping.Json

/-- The surroundings of a value in the array or object that holds it. What comes before the value is
kept in reverse. -/
inductive Frame where
  | item (before : List Json)
  | field (before : List (Option String × Json)) (key : Option String)

/-- What the machine has read and is waiting for. -/
inductive State where
  /-- A value has to come. -/
  | value (context : List Frame)
  /-- An array is open, and its first item or its end has to come. -/
  | firstItem (context : List Frame)
  /-- An object is open, and its first key or its end has to come. -/
  | firstKey (context : List Frame)
  /-- Another key of an object has to come. -/
  | key (before : List (Option String × Json)) (context : List Frame)
  /-- A key is read, and the colon after it has to come. -/
  | colon (before : List (Option String × Json)) (key : Option String) (context : List Frame)
  /-- A value is read. -/
  | done (value : Json) (context : List Frame)

namespace State

/-- Reads the first token of a value. -/
def start (context : List Frame) : Token → Option State
  | .null => some (.done .null context)
  | .bool b => some (.done (.bool b) context)
  | .num n => some (.done (.num n) context)
  | .str s => some (.done (.str s) context)
  | .openBracket => some (.firstItem context)
  | .openBrace => some (.firstKey context)
  | _ => none

/-- Reads one token. -/
def step : State → Token → Option State
  | .value context, t => start context t
  | .firstItem context, .closeBracket => some (.done (.arr []) context)
  | .firstItem context, t => start (.item [] :: context) t
  | .firstKey context, .closeBrace => some (.done (.obj []) context)
  | .firstKey context, .str k => some (.colon [] k context)
  | .key before context, .str k => some (.colon before k context)
  | .colon before k context, .colon => some (.value (.field before k :: context))
  | .done j (.item before :: context), .comma => some (.value (.item (j :: before) :: context))
  | .done j (.item before :: context), .closeBracket =>
    some (.done (.arr (j :: before).reverse) context)
  | .done j (.field before k :: context), .comma => some (.key ((k, j) :: before) context)
  | .done j (.field before k :: context), .closeBrace =>
    some (.done (.obj ((k, j) :: before).reverse) context)
  | _, _ => none

/-- Reads tokens one after the other. -/
def run : State → List Token → Option State
  | s, [] => some s
  | s, t :: ts => (s.step t).bind (run · ts)

end State

/-- The value that a list of tokens writes. -/
def ofTokens? (ts : List Token) : Option Json :=
  match State.run (.value []) ts with
  | some (.done j []) => some j
  | _ => none

/-- The value that a text writes, with blanks around it and nothing else. -/
def parse? (s : String) : Option Json := (Token.scan? s.toList).bind ofTokens?

end CTyping.Json
