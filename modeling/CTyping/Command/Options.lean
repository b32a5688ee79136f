import CTyping.Analysis

/-!
# The command line

The command takes one input path and a few options. An option with a value is written `--name value`
or `--name=value`; `-o` and `-v` may share a word, with the value of `-o` behind it. No option is
given twice, and after `--` every word is a path. A command line that does not fit is refused
without a reason.
-/

namespace CTyping

/-- What a command line asks for. -/
structure Options where
  input : String
  target : DataModel
  format : Format
  output : Option String
  verbose : Bool
deriving DecidableEq

namespace Options

/-- What has been read of a command line; nothing is filled in yet that was not given. -/
structure Draft where
  input : Option String
  target : Option DataModel
  format : Option Format
  output : Option String
  verbose : Bool
deriving DecidableEq

namespace Draft

/-- Nothing is read yet. -/
def empty : Draft := ⟨none, none, none, none, false⟩

/-- A path, which is not empty. -/
def path? (s : String) : Option String := if s = "" then none else some s

/-- A data model by its name. -/
def target? : String → Option DataModel
  | "ilp32" => some .ilp32
  | "lp64" => some .lp64
  | _ => none

/-- A format by its name. -/
def format? : String → Option Format
  | "text" => some .text
  | "json" => some .json
  | _ => none

/-- Fills in what can be given once: refused if it is given already, or if the value does not
fit. -/
def setOnce {α : Type} (given value? : Option α) (fill : α → Draft) : Option Draft := do
  guard given.isNone
  return fill (← value?)

/-- Fills in the path of the input. -/
def setInput (d : Draft) (s : String) : Option Draft :=
  setOnce d.input (path? s) fun input => { d with input := some input }

/-- Fills in the data model. -/
def setTarget (d : Draft) (s : String) : Option Draft :=
  setOnce d.target (target? s) fun target => { d with target := some target }

/-- Fills in the format of the report. -/
def setFormat (d : Draft) (s : String) : Option Draft :=
  setOnce d.format (format? s) fun format => { d with format := some format }

/-- Fills in the path of the output. -/
def setOutput (d : Draft) (s : String) : Option Draft :=
  setOnce d.output (path? s) fun output => { d with output := some output }

/-- Asks for the log. This takes no value, and is not asked for twice either. -/
def setVerbose (d : Draft) : Option Draft := do
  guard (!d.verbose)
  return { d with verbose := true }

/-- The long options that take a value. -/
def setNamed (d : Draft) (name value : String) : Option Draft :=
  match name with
  | "target" => d.setTarget value
  | "format" => d.setFormat value
  | "output" => d.setOutput value
  | _ => none

/-- What is asked for, with defaults for what is not given. -/
def finish (d : Draft) : Option Options :=
  d.input.map fun input =>
    ⟨input, d.target.getD .lp64, d.format.getD .text, d.output, d.verbose⟩

end Draft

/-- What a word of the command line is. -/
inductive Word where
  | path (s : String)
  /-- The word `--`, after which every word is a path. -/
  | pathsFollow
  /-- An option `--name` or `--name=value`. -/
  | long (name : String) (value : Option String)
  /-- One letter options behind a `-`. -/
  | short (letters : List Char)

/-- A `-` alone is a path. -/
def Word.ofString (s : String) : Word :=
  match s.toList with
  | ['-', '-'] => .pathsFollow
  | '-' :: '-' :: cs =>
    match cs.dropWhile (· ≠ '=') with
    | [] => .long (String.ofList cs) none
    | _ :: value => .long (String.ofList (cs.takeWhile (· ≠ '='))) (some (String.ofList value))
  | '-' :: c :: cs => .short (c :: cs)
  | _ => .path s

/-- What the letters behind a `-` ask for: `-o` takes the rest of the word as its value and, where
there is none, waits for the next word, in which case the second component is set. -/
def readLetters (d : Draft) : List Char → Option (Draft × Bool)
  | [] => some (d, false)
  | ['o'] => some (d, true)
  | 'o' :: '=' :: cs => (d.setOutput (String.ofList cs)).map (·, false)
  | 'o' :: cs => (d.setOutput (String.ofList cs)).map (·, false)
  | 'v' :: cs => d.setVerbose.bind (readLetters · cs)
  | _ => none

/-- The value that an option finds in the next word: no other option. -/
def value? (s : String) : Option String :=
  match Word.ofString s with
  | .path s => some s
  | _ => none

/-- Reads words that are all paths. -/
def readPaths (d : Draft) : List String → Option Draft
  | [] => some d
  | s :: ss => (d.setInput s).bind (readPaths · ss)

/-- Reads the words of a command line. -/
def readWords (d : Draft) : List String → Option Draft
  | [] => some d
  | s :: ss =>
    match Word.ofString s with
    | .path s => (d.setInput s).bind (readWords · ss)
    | .pathsFollow => readPaths d ss
    | .long "verbose" none => d.setVerbose.bind (readWords · ss)
    | .long name (some value) => (d.setNamed name value).bind (readWords · ss)
    | .long name none =>
      match ss with
      | [] => none
      | v :: ss => do
        let d ← d.setNamed name (← value? v)
        readWords d ss
    | .short letters =>
      match readLetters d letters with
      | none => none
      | some (d, false) => readWords d ss
      | some (d, true) =>
        match ss with
        | [] => none
        | v :: ss => do
          let d ← d.setOutput (← value? v)
          readWords d ss

/-- What a command line asks for, if it fits. -/
def parse? (args : List String) : Option Options := (readWords .empty args).bind Draft.finish

end Options

end CTyping
