/-!
# Places in a source file

A diagnostic points at a `Span`, a pair of `Location`s. Trees built by hand rather than read from a
source file carry the span `CTyping.Span.unknown`, whose line is `0`; a place on line `0` is
never shown.
-/

namespace CTyping

/-- A place in a source file. Lines and columns count from `1`; line `0` stands for no place. -/
structure Location where
  filename : String
  line : UInt32
  column : UInt32
deriving DecidableEq, Repr

namespace Location

/-- The place of something that no source file holds. -/
def unknown : Location := ⟨"<unknown>", 0, 0⟩

instance : Inhabited Location := ⟨unknown⟩

/-- Only the line decides whether a place is known. -/
def isUnknown (l : Location) : Bool := l.line == 0

/-- The line and the column, as in `3:14`. -/
def position (l : Location) : String := toString l.line.toNat ++ ":" ++ toString l.column.toNat

/-- A place as it is shown: file, line and column. -/
def text (l : Location) : String := l.filename ++ ":" ++ l.position

end Location

/-- A stretch of source text, from one place to another. -/
structure Span where
  start : Location
  stop : Location
deriving DecidableEq, Repr

namespace Span

/-- The stretch that holds one place only. -/
def point (l : Location) : Span := ⟨l, l⟩

/-- The span of something that no source file holds. -/
def unknown : Span := point .unknown

instance : Inhabited Span := ⟨unknown⟩

/-- A span is known as soon as its start is. -/
def isUnknown (s : Span) : Bool := s.start.isUnknown

/-- A span as it is shown. What the two ends share is not written twice: the file, and within one
file the line. -/
def text (s : Span) : String :=
  if s.start.filename ≠ s.stop.filename then s.start.text ++ " to " ++ s.stop.text
  else if s.start.line ≠ s.stop.line then s.start.text ++ "-" ++ s.stop.position
  else if s.start.column ≠ s.stop.column then s.start.text ++ "-" ++ toString s.stop.column.toNat
  else s.start.text

end Span

end CTyping
