import CTyping.Checker.Program
import CTyping.Document.Program
import CTyping.Tree.Walk

/-!
# Analysing a program

An analysis sets the widths of a program's types for a data model, checks the program, and records
what was found in a journal. It fails when the journal holds an error, be it an earlier one; the
program is changed and the journal written all the same. Only when the declarations of a program
contradict each other is nothing done at all.

* `CTyping.Program.pass`: check against given declarations.
* `CTyping.Program.analyze`: check against the program's own declarations.
* `CTyping.Report.ofDocument`: read a document and analyse it from an empty journal.
-/

namespace CTyping

/-- Why a program does not get through. -/
inductive Failure where
  /-- Errors were found. The numbers are those of what this pass recorded. -/
  | rejected (errors warnings : Nat)
  | invalidInput (message : String)
  | io (message : String)
  | internal (message : String)
deriving DecidableEq, Inhabited

/-- A number of errors and of warnings, as log lines and failures give it. -/
def countsText (errors warnings : Nat) : String :=
  toString errors ++ " error(s), " ++ toString warnings ++ " warning(s)"

/-- What is written of a failure, in one line: its sort, and what is known of it. -/
def Failure.message : Failure → String
  | .rejected errors warnings => "semantic analysis failed: " ++ countsText errors warnings
  | .invalidInput message => "invalid input: " ++ message
  | .io message => "IO error: " ++ message
  | .internal message => "Internal compiler error: " ++ message

/-- What a pass over a program leaves behind. -/
structure Pass where
  outcome : Except Failure Unit
  program : Program
  journal : Journal
  log : List LogLine

namespace Program

/-- Checks a program against given declarations. -/
def pass (d : Declarations) (p : Program) (j : Journal) : Pass :=
  let checked := p.check d
  let journal := j.recordAll checked.diagnostics
  let errors := journal.errors - j.errors
  let warnings := journal.warnings - j.warnings
  { outcome := if journal.hasErrors then .error (.rejected errors warnings) else .ok ()
    program := checked.value
    journal := journal
    log := checked.events.map Event.logLine ++
      [⟨.info, "type check finished: " ++ countsText errors warnings⟩] }

/-- The first line of the log of an analysis. -/
def announcement (m : DataModel) (p : Program) : LogLine :=
  ⟨.debug, "checking " ++ toString p.functions.length ++ " function(s), " ++
    toString p.globals.length ++ " global(s) for " ++ m.text⟩

/-- Checks a program against its own declarations, all types laid out for a data model. -/
def analyze (m : DataModel) (p : Program) (j : Journal) : Pass :=
  match Declarations.ofRecords m p.records with
  | .error fault => ⟨.error (.invalidInput fault.message), p, j, []⟩
  | .ok d =>
    let done := (p.mapTypes m.normalize).pass d j
    { done with
      outcome := do
        done.outcome
        unless done.program.isFullyTyped do
          throw (.internal "checked tree has untyped expressions")
      log := p.announcement m :: done.log }

/-- Reads a program. -/
def read (source : String) : Except Failure Program :=
  match ofDocument? source with
  | some p => .ok p
  | none => .error (.invalidInput "malformed AST")

/-- Reads a program and analyses it. The program is given only if it gets through. -/
def analyzeDocument (m : DataModel) (source : String) (j : Journal) :
    Except Failure Program × Journal × List LogLine :=
  match read source with
  | .error failure => (.error failure, j, [])
  | .ok p =>
    let done := p.analyze m j
    (done.outcome.map fun _ => done.program, done.journal, done.log)

end Program

/-- How a report is shown. -/
inductive Format where
  | text
  | json
deriving DecidableEq, Repr, Inhabited

/-- What is found out about a document: the diagnostics and, if there are no errors, the checked
program. -/
structure Report where
  errors : Nat
  warnings : Nat
  diagnostics : List Diagnostic
  program : Option Program
  log : List LogLine

namespace Report

/-- A report is of a program that passed if a program is left. -/
def passed (r : Report) : Bool := r.program.isSome

/-- Reads and analyses a document. A program that is rejected is reported; one that cannot be
analysed is a failure. -/
def ofDocument (m : DataModel) (source : String) : Except Failure Report :=
  let (outcome, journal, log) := Program.analyzeDocument m source .empty
  let report (program : Option Program) : Report :=
    ⟨journal.errors, journal.warnings, journal.entries, program,
      log ++ [⟨.info, journal.summary⟩]⟩
  match outcome with
  | .ok p => .ok (report (some p))
  | .error (.rejected _ _) => .ok (report none)
  | .error failure => .error failure

/-- A report as it is written for other programs to read. -/
def toJson (r : Report) : Json :=
  .record [("passed", .bool r.passed), ("errors", .nat r.errors), ("warnings", .nat r.warnings),
    ("diagnostics", .arr (r.diagnostics.map Diagnostic.toJson))]

/-- A report as it is shown: a line for each diagnostic, or one JSON value. -/
def render (r : Report) : Format → String
  | .text => String.join (r.diagnostics.map (·.text ++ "\n"))
  | .json => r.toJson.pretty

end Report

end CTyping
