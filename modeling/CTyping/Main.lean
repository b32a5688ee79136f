import CTyping.Command.Run

/-!
# The command

Connects `CTyping.Options.run` to the file system and the standard streams.
-/

namespace CTyping

/-- What the system says of a failed access. -/
def systemMessage : IO.Error → String
  | .noFileOrDirectory _ _ _ => "No such file or directory (os error 2)"
  | .permissionDenied _ _ _ => "Permission denied (os error 13)"
  | .inappropriateType _ _ _ => "Is a directory (os error 21)"
  | .userError _ => "stream did not contain valid UTF-8"
  | e => toString e

/-- Reads and writes the files of the system. -/
def systemFiles : Files IO where
  read path := do
    try
      return .ok (← IO.FS.readFile path)
    catch e => return .error (systemMessage e)
  write path content := do
    try
      IO.FS.writeFile path content
      return .ok ()
    catch e => return .error (systemMessage e)

end CTyping

/-- Runs the command on its arguments. -/
def main (args : List String) : IO UInt32 := do
  match CTyping.Options.parse? args with
  | none =>
    IO.eprintln "usage: [--target ilp32|lp64] [--format text|json] [-o PATH] [-v] INPUT"
    return 2
  | some options =>
    let outcome ← options.run CTyping.systemFiles
    IO.print outcome.stdout
    IO.eprint outcome.stderr
    return if outcome.success then 0 else 1
