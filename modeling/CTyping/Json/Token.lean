import CTyping.Json.Basic

/-!
# Tokens of the JSON notation

The first half of reading: a text is cut into tokens, between which only blanks may stand. The
grammar is the strict one. There are four blanks, no comments, no sign before a number other than
`-`, no zeros in front of other digits, and no control characters in strings.

A text is cut character by character. A word (a number, or one of `null`, `true` and `false`) goes
on for as long as there are characters that a word may have, and is looked at when it has ended; two
words never follow each other without something between them, so nothing is lost by that.
-/

namespace CTyping

/-- What a text is cut into before its values are read. -/
inductive Token where
  | openBrace
  | closeBrace
  | openBracket
  | closeBracket
  | comma
  | colon
  | null
  | bool (value : Bool)
  | num (value : Numeral)
  | str (value : Option String)
deriving DecidableEq, Inhabited

/-! ### Numbers -/

namespace Numeral

/-- Whether characters write a whole part. A zero stands alone. -/
def isWhole (cs : List Char) : Bool := isDigits cs && (cs.head? != some '0' || cs == ['0'])

/-- The number that characters write after its sign. -/
def ofUnsigned? (negative : Bool) (cs : List Char) : Option Numeral :=
  let whole := cs.takeWhile Char.isDigit
  let fraction := cs.dropWhile Char.isDigit
  if isWhole whole then
    if h : isFraction fraction then some ⟨negative, Nat.ofDigitChars 10 whole 0, fraction, h⟩
    else none
  else none

/-- The number that characters write. -/
def ofChars? : List Char → Option Numeral
  | '-' :: cs => ofUnsigned? true cs
  | cs => ofUnsigned? false cs

end Numeral

namespace Token

/-! ### Strings -/

/-- The value of a hexadecimal digit. -/
def hexValue? (c : Char) : Option Nat :=
  if '0' ≤ c ∧ c ≤ '9' then some (c.toNat - '0'.toNat)
  else if 'a' ≤ c ∧ c ≤ 'f' then some (c.toNat - 'a'.toNat + 10)
  else if 'A' ≤ c ∧ c ≤ 'F' then some (c.toNat - 'A'.toNat + 10)
  else none

/-- The character that a one-letter escape stands for. -/
def escaped? : Char → Option Char
  | '"' => some '"'
  | '\\' => some '\\'
  | '/' => some '/'
  | 'b' => some '\x08'
  | 'f' => some '\x0c'
  | 'n' => some '\n'
  | 'r' => some '\r'
  | 't' => some '\t'
  | _ => none

/-- What stands in a string at one place. -/
inductive Piece where
  | char (c : Char)
  /-- An escape that names half of a surrogate pair. -/
  | half (unit : Nat)
deriving DecidableEq

/-- The piece of a numeric escape. -/
def Piece.ofUnit (n : Nat) : Piece :=
  if 0xD800 ≤ n ∧ n ≤ 0xDFFF then .half n else .char (Char.ofNat n)

/-- The text of a string, if every half has its other half after it. -/
def Piece.join : List Piece → Option (List Char)
  | [] => some []
  | .char c :: ps => (join ps).map (c :: ·)
  | .half h :: .half l :: ps =>
    if h < 0xDC00 ∧ 0xDC00 ≤ l then
      (join ps).map (Char.ofNat (0x10000 + (h - 0xD800) * 0x400 + (l - 0xDC00)) :: ·)
    else none
  | .half _ :: _ => none

/-- The token of a string. -/
def ofPieces (ps : List Piece) : Token := .str ((Piece.join ps).map String.ofList)

/-! ### Words and marks -/

/-- The token of a word. -/
def ofWord? : List Char → Option Token
  | ['n', 'u', 'l', 'l'] => some .null
  | ['t', 'r', 'u', 'e'] => some (.bool true)
  | ['f', 'a', 'l', 's', 'e'] => some (.bool false)
  | cs => (Numeral.ofChars? cs).map .num

/-- The token of a mark. -/
def ofMark? : Char → Option Token
  | '\x7b' => some .openBrace
  | '\x7d' => some .closeBrace
  | '[' => some .openBracket
  | ']' => some .closeBracket
  | ',' => some .comma
  | ':' => some .colon
  | _ => none

/-- The characters that words are made of. -/
def isWordChar (c : Char) : Bool := c.isAlphanum || c == '+' || c == '-' || c == '.'

/-- The characters that may stand between tokens. -/
def isBlank (c : Char) : Bool := c == ' ' || c == '\t' || c == '\n' || c == '\r'

end Token

/-! ### Cutting a text -/

/-- What has been begun of a token. What was read of it is kept in reverse. -/
inductive Lexeme where
  | between
  | word (before : List Char)
  | string (before : List Token.Piece)
  /-- After a backslash in a string. -/
  | escape (before : List Token.Piece)
  /-- In a numeric escape: the value so far, and how many digits are still to come after the
  next one. -/
  | unit (before : List Token.Piece) (value : Nat) (left : Nat)

/-- How far a text has been cut: the tokens, the latest first, and the one that is begun. -/
structure Scan where
  tokens : List Token
  lexeme : Lexeme

namespace Scan

/-- Nothing is cut yet. -/
def start : Scan := ⟨[], .between⟩

/-- Takes a character between two tokens. -/
def enter (ts : List Token) (c : Char) : Option Scan :=
  if Token.isBlank c then some ⟨ts, .between⟩
  else if Token.isWordChar c then some ⟨ts, .word [c]⟩
  else if c = '"' then some ⟨ts, .string []⟩
  else (Token.ofMark? c).map fun t => ⟨t :: ts, .between⟩

/-- Takes a character. -/
def step : Scan → Char → Option Scan
  | ⟨ts, .between⟩, c => enter ts c
  | ⟨ts, .word cs⟩, c =>
    if Token.isWordChar c then some ⟨ts, .word (c :: cs)⟩
    else (Token.ofWord? cs.reverse).bind fun t => enter (t :: ts) c
  | ⟨ts, .string ps⟩, c =>
    if c = '"' then some ⟨Token.ofPieces ps.reverse :: ts, .between⟩
    else if c = '\\' then some ⟨ts, .escape ps⟩
    else if c.toNat < 0x20 then none
    else some ⟨ts, .string (.char c :: ps)⟩
  | ⟨ts, .escape ps⟩, c =>
    if c = 'u' then some ⟨ts, .unit ps 0 3⟩
    else (Token.escaped? c).map fun e => ⟨ts, .string (.char e :: ps)⟩
  | ⟨ts, .unit ps v left⟩, c =>
    (Token.hexValue? c).map fun d =>
      match left with
      | 0 => ⟨ts, .string (.ofUnit (v * 16 + d) :: ps)⟩
      | left + 1 => ⟨ts, .unit ps (v * 16 + d) left⟩

/-- The tokens of a text that ends here. -/
def finish : Scan → Option (List Token)
  | ⟨ts, .between⟩ => some ts.reverse
  | ⟨ts, .word cs⟩ => (Token.ofWord? cs.reverse).map fun t => (t :: ts).reverse
  | _ => none

/-- Takes characters one after the other. -/
def run : Scan → List Char → Option Scan
  | s, [] => some s
  | s, c :: cs => (s.step c).bind (run · cs)

/-- Scanning goes on from where it was when more characters follow. -/
theorem run_append (s : Scan) (cs ds : List Char) :
    s.run (cs ++ ds) = (s.run cs).bind (run · ds) := by
  induction cs generalizing s with
  | nil => rfl
  | cons c cs ih => simp [run, ih, Option.bind_assoc]

end Scan

/-- Cuts a text into tokens. -/
def Token.scan? (cs : List Char) : Option (List Token) := (Scan.start.run cs).bind Scan.finish

end CTyping
