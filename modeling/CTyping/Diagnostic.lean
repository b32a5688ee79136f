import CTyping.Location

/-!
# Diagnostics and the journal that keeps them

A `CTyping.Diagnostic` is an error or a warning, with its place if that is known. A
`CTyping.Journal` keeps diagnostics in the order in which they were recorded, and counts errors and
warnings as they come.
-/

namespace CTyping

/-- Whether a finding rejects the program. -/
inductive Severity where
  | error
  | warning
deriving DecidableEq, Repr, Inhabited

/-- The word that a severity is written as. -/
def Severity.text : Severity → String
  | .error => "error"
  | .warning => "warning"

/-- Something said about a program. -/
structure Diagnostic where
  severity : Severity
  message : String
  span : Option Span
deriving DecidableEq, Inhabited

namespace Diagnostic

/-- A diagnostic at a place; a place that is not known is left out. -/
def place (severity : Severity) (message : String) (s : Span) : Diagnostic :=
  ⟨severity, message, if s.isUnknown then none else some s⟩

/-- Errors reject the program; warnings do not. -/
def isError (d : Diagnostic) : Bool := d.severity == .error

/-- A diagnostic as it is shown. -/
def text (d : Diagnostic) : String :=
  match d.span with
  | none => d.severity.text ++ ": " ++ d.message
  | some s => s.text ++ ": " ++ d.severity.text ++ ": " ++ d.message

end Diagnostic

/-- The diagnostics recorded so far, the earliest first. -/
structure Journal where
  entries : List Diagnostic
  errors : Nat
  warnings : Nat
deriving DecidableEq

namespace Journal

/-- The journal in which nothing is recorded. -/
def empty : Journal := ⟨[], 0, 0⟩

instance : Inhabited Journal := ⟨empty⟩

/-- Adds one diagnostic at the end. -/
def record (j : Journal) (d : Diagnostic) : Journal :=
  match d.severity with
  | .error => { j with entries := j.entries ++ [d], errors := j.errors + 1 }
  | .warning => { j with entries := j.entries ++ [d], warnings := j.warnings + 1 }

/-- Adds diagnostics one after the other. -/
def recordAll (j : Journal) (ds : List Diagnostic) : Journal := ds.foldl record j

@[simp] theorem entries_record (j : Journal) (d : Diagnostic) :
    (j.record d).entries = j.entries ++ [d] := by
  cases h : d.severity <;> simp [record, h]

@[simp] theorem entries_recordAll (j : Journal) (ds : List Diagnostic) :
    (j.recordAll ds).entries = j.entries ++ ds := by
  induction ds generalizing j with
  | nil => simp [recordAll]
  | cons d ds ih => exact (ih (j.record d)).trans (by simp)

/-- Recording one list after another is recording the two as one list. -/
theorem recordAll_append (j : Journal) (ds es : List Diagnostic) :
    j.recordAll (ds ++ es) = (j.recordAll ds).recordAll es :=
  List.foldl_append

/-- Adds what another journal holds after what this one holds. -/
def merge (j k : Journal) : Journal := j.recordAll k.entries

/-- Whether an error is recorded; warnings do not count. -/
def hasErrors (j : Journal) : Bool := decide (0 < j.errors)

/-- The messages of one severity, in the order of the entries. -/
def messages (j : Journal) (severity : Severity) : List String :=
  (j.entries.filter (·.severity == severity)).map (·.message)

/-- A number of things, in the plural unless there is one. -/
def countText (n : Nat) (noun : String) : String :=
  toString n ++ " " ++ noun ++ (if n = 1 then "" else "s")

/-- How many errors and warnings there are, in words. -/
def summary (j : Journal) : String :=
  match j.errors, j.warnings with
  | 0, 0 => "No errors or warnings"
  | 0, w => countText w "warning"
  | e, 0 => countText e "error"
  | e, w => countText e "error" ++ " and " ++ countText w "warning"

end Journal

end CTyping
