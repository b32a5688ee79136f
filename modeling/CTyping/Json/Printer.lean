import CTyping.Json.Basic

/-!
# Writing JSON

A value is written over several lines, each item of an array and each field of an object on a line
of its own, two blanks further in than what holds it. An empty array or object stays on its line.
-/

namespace CTyping.Json

/-- A hexadecimal digit. -/
def hexDigit (n : Nat) : Char := Nat.digitChar (n % 16)

/-- A character as it stands in a string. Quotes, backslashes and control characters are escaped. -/
def escape (c : Char) : List Char :=
  match c with
  | '"' => ['\\', '"']
  | '\\' => ['\\', '\\']
  | '\x08' => ['\\', 'b']
  | '\x0c' => ['\\', 'f']
  | '\n' => ['\\', 'n']
  | '\r' => ['\\', 'r']
  | '\t' => ['\\', 't']
  | c =>
    if c.toNat < 0x20 then ['\\', 'u', '0', '0', hexDigit (c.toNat / 16), hexDigit c.toNat] else [c]

/-- A string in its quotes. One that is no text is written as half of a surrogate pair. -/
def quote : Option String → List Char
  | some s => '"' :: s.toList.flatMap escape ++ ['"']
  | none => ['"', '\\', 'u', 'd', '8', '0', '0', '"']

/-- A number as it is written. -/
def numeral (n : Numeral) : List Char :=
  (if n.negative then ['-'] else []) ++ Nat.toDigits 10 n.whole ++ n.fraction

/-- A new line, so many steps in. -/
def newline (indent : Nat) : List Char := '\n' :: List.replicate (2 * indent) ' '

mutual

/-- A value as it is written so many steps in. -/
def render (indent : Nat) : Json → List Char
  | .null => ['n', 'u', 'l', 'l']
  | .bool true => ['t', 'r', 'u', 'e']
  | .bool false => ['f', 'a', 'l', 's', 'e']
  | .num n => numeral n
  | .str s => quote s
  | .arr [] => ['[', ']']
  | .arr (j :: js) =>
    '[' :: newline (indent + 1) ++ render (indent + 1) j ++ renderItems (indent + 1) js ++
      newline indent ++ [']']
  | .obj [] => ['\x7b', '\x7d']
  | .obj ((k, j) :: fs) =>
    '\x7b' :: newline (indent + 1) ++ quote k ++ ':' :: ' ' :: render (indent + 1) j ++
      renderFields (indent + 1) fs ++ newline indent ++ ['\x7d']

/-- The items of an array after the first. -/
def renderItems (indent : Nat) : List Json → List Char
  | [] => []
  | j :: js => ',' :: newline indent ++ render indent j ++ renderItems indent js

/-- The fields of an object after the first. -/
def renderFields (indent : Nat) : List (Option String × Json) → List Char
  | [] => []
  | (k, j) :: fs =>
    ',' :: newline indent ++ quote k ++ ':' :: ' ' :: render indent j ++ renderFields indent fs

end

/-- The text of a value. -/
def pretty (j : Json) : String := String.ofList (render 0 j)

end CTyping.Json
