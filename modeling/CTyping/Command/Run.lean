import CTyping.Command.Options

/-!
# Running the command

The command reads a document, shows the report, and writes the checked program if that is asked for
and the program got through. It reaches files only through `CTyping.Files`, so that it runs on a
real file system and on a `CTyping.Folder` in memory alike.
-/

namespace CTyping

/-- A way to read and write files by their paths. A failure is given in words. -/
structure Files (m : Type → Type) where
  read : String → m (Except String String)
  write : String → String → m (Except String Unit)

/-- What a run of the command shows, and whether it succeeds. -/
structure Outcome where
  success : Bool
  stdout : String
  stderr : String
deriving DecidableEq

/-- How a failure is shown: what was tried, and below it the cause, a little further in. -/
def failureText (attempt cause : String) : String :=
  "Error: " ++ attempt ++ "\n\nCaused by:\n    " ++ cause.replace "\n" "\n    " ++ "\n"

namespace Options

/-- The lines of the log that are shown: with `--verbose`, all but those that matter least. -/
def logText (o : Options) (log : List LogLine) : String :=
  if o.verbose then
    String.join ((log.filter (·.level ≠ .trace)).map (·.text ++ "\n"))
  else ""

/-- What is shown of a report. -/
def present (o : Options) (r : Report) : Outcome :=
  match o.format with
  | .json => ⟨r.passed, r.render .json ++ "\n", o.logText r.log⟩
  | .text =>
    ⟨r.passed, "", o.logText r.log ++ r.render .text ++
      (if r.passed then "" else (Failure.rejected r.errors r.warnings).message ++ "\n")⟩

/-- Runs the command. -/
def run {m : Type → Type} [Monad m] (files : Files m) (o : Options) : m Outcome := do
  match ← files.read o.input with
  | .error cause => return ⟨false, "", failureText ("failed to read " ++ o.input) cause⟩
  | .ok source =>
    match Report.ofDocument o.target source with
    | .error failure =>
      return ⟨false, "", failureText ("failed to check " ++ o.input) failure.message⟩
    | .ok r =>
      let shown := o.present r
      match r.program, o.output with
      | some p, some path =>
        match ← files.write path p.document with
        | .ok () => return shown
        | .error cause =>
          return { shown with
            success := false
            stderr := shown.stderr ++ failureText ("failed to write " ++ path) cause }
      | _, _ => return shown

end Options

/-! ### A folder in memory -/

/-- The files of a folder, each with its name and its content. There are no folders in it. -/
structure Folder where
  files : List (String × String)
deriving DecidableEq

namespace Folder

/-- Why a path cannot be read or written. -/
inductive Fault where
  | notFound
  | notFolder
  | isFolder
deriving DecidableEq

/-- What the system says of a file that cannot be read or written. -/
def Fault.message : Fault → String
  | .notFound => "No such file or directory (os error 2)"
  | .notFolder => "Not a directory (os error 20)"
  | .isFolder => "Is a directory (os error 21)"

/-- What a path leads to, seen from the folder. -/
inductive Place where
  /-- A folder: this one or one around it. -/
  | folder
  /-- A file in the folder; `asFolder` if the path treats it as one. -/
  | file (name : String) (asFolder : Bool)
  /-- A file in a folder in the folder. -/
  | below (name : String)
  | outside
deriving DecidableEq

/-- Finds out where a path leads. -/
def place (path : String) : Place :=
  let parts := path.splitOn "/"
  match parts.filter fun s => s ≠ "" ∧ s ≠ "." with
  | [] => .folder
  | name :: names =>
    if (name :: names).all (· = "..") then .folder
    else if name = ".." ∨ parts.head? = some "" then .outside
    else if names = [] then .file name (parts.getLast? ≠ some name)
    else .below name

/-- The content of a file of a given name, if there is one. -/
def content? (f : Folder) (name : String) : Option String := f.files.lookup name

/-- A folder with one file written, in place of the one of that name if there was one. -/
def put (f : Folder) (name content : String) : Folder :=
  ⟨(name, content) :: f.files.filter (·.1 ≠ name)⟩

/-- The content of the file at a path, or why there is none to read. -/
def read (f : Folder) (path : String) : Except Fault String :=
  match place path with
  | .folder => .error .isFolder
  | .outside => .error .notFound
  | .below name => .error (if (f.content? name).isSome then .notFolder else .notFound)
  | .file name asFolder =>
    match f.content? name with
    | none => .error .notFound
    | some content => if asFolder then .error .notFolder else .ok content

/-- A folder with a file written at a path, or why it cannot be written. -/
def write (f : Folder) (path content : String) : Except Fault Folder :=
  match place path with
  | .folder => .error .isFolder
  | .outside => .error .notFound
  | .below name => .error (if (f.content? name).isSome then .notFolder else .notFound)
  | .file name false => .ok (f.put name content)
  | .file name true => .error (if (f.content? name).isSome then .notFolder else .isFolder)

/-- Reads and writes the files of a folder. -/
def access : Files (StateM Folder) where
  read path := do
    return ((← get).read path).mapError Fault.message
  write path content := do
    match (← get).write path content with
    | .ok f =>
      set f
      return .ok ()
    | .error fault => return .error fault.message

end Folder

end CTyping
