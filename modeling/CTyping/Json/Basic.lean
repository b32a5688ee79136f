/-!
# JSON values

The values of the JSON notation. Nothing in a document is lost that its grammar tells apart: a
number is kept as it is written, and the fields of an object keep their order and their repetitions.

A string is a text, unless one of its escapes names half of a surrogate pair and the other half does
not follow. The notation allows such a string, but no text corresponds to it; it is `none` here, so
that the one who reads a value can refuse it where a text is wanted.
-/

namespace CTyping

namespace Numeral

/-- Whether characters are digits, and there is one. -/
def isDigits (cs : List Char) : Bool := !cs.isEmpty && cs.all Char.isDigit

/-- Whether characters write an exponent or nothing. -/
def isExponent : List Char → Bool
  | [] => true
  | c :: '+' :: cs => (c == 'e' || c == 'E') && isDigits cs
  | c :: '-' :: cs => (c == 'e' || c == 'E') && isDigits cs
  | c :: cs => (c == 'e' || c == 'E') && isDigits cs

/-- Whether characters write what may follow a whole part. -/
def isFraction : List Char → Bool
  | '.' :: cs => isDigits (cs.takeWhile Char.isDigit) && isExponent (cs.dropWhile Char.isDigit)
  | cs => isExponent cs

end Numeral

/-- A number as it is written: sign, whole part, and the characters of the fraction and of the
exponent, if any. -/
structure Numeral where
  negative : Bool
  whole : Nat
  fraction : List Char
  isFraction_fraction : Numeral.isFraction fraction = true
deriving DecidableEq

namespace Numeral

/-- A natural number as a numeral, without sign, fraction or exponent. -/
def ofNat (n : Nat) : Numeral := ⟨false, n, [], rfl⟩

instance : Inhabited Numeral := ⟨ofNat 0⟩

/-- An integer as a numeral, with a sign if it is negative. -/
def ofInt : Int → Numeral
  | .ofNat n => ofNat n
  | .negSucc n => ⟨true, n + 1, [], rfl⟩

/-- The integer that is written. A number with a fraction or an exponent is no integer whatever its
value, and neither is `-0`. -/
def toInt? (n : Numeral) : Option Int :=
  if n.fraction ≠ [] then none
  else if !n.negative then some n.whole
  else if n.whole = 0 then none
  else some (-n.whole)

end Numeral

/-- The values of the JSON notation. -/
inductive Json where
  | null
  | bool (value : Bool)
  | num (value : Numeral)
  | str (value : Option String)
  | arr (items : List Json)
  | obj (fields : List (Option String × Json))
deriving Inhabited

namespace Json

/-- A text. -/
def text (s : String) : Json := .str (some s)

/-- A natural number as a value. -/
def nat (n : Nat) : Json := .num (.ofNat n)

/-- An integer as a value. -/
def int (i : Int) : Json := .num (.ofInt i)

/-- An object with named fields. -/
def record (fields : List (String × Json)) : Json := .obj (fields.map fun f => (some f.1, f.2))

/-- An object with one field, which names a variant and holds what belongs to it. -/
def tagged (tag : String) (payload : Json) : Json := .obj [(some tag, payload)]

/-- A value that may be missing. -/
def nullable {α : Type} (f : α → Json) : Option α → Json
  | none => .null
  | some a => f a

mutual

/-- How deep arrays and objects are nested in a value. -/
def depth : Json → Nat
  | .arr items => depthItems items + 1
  | .obj fields => depthFields fields + 1
  | _ => 0

/-- The depth of the deepest item. -/
def depthItems : List Json → Nat
  | [] => 0
  | j :: js => max (depth j) (depthItems js)

/-- The depth of the deepest field. -/
def depthFields : List (Option String × Json) → Nat
  | [] => 0
  | (_, j) :: fs => max (depth j) (depthFields fs)

end

end Json

end CTyping
