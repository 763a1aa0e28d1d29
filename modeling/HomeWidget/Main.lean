import HomeWidget.CommandLine.Run

/-!
# The program

The command line on the files of this machine. Everything is decided in `CommandLine.run`; here its steps on files
are carried out, and its report is printed.
-/
namespace HomeWidget.Main

/-- The fault that an error of the system is. -/
def faultOf : IO.Error → Fault
  | .noFileOrDirectory .. => .notFound
  | .alreadyExists .. => .alreadyExists
  | .inappropriateType _ 20 _ => .notADirectory
  | .inappropriateType _ 21 _ => .isADirectory
  | e => .other (toString e)

/-- An action with its error as a fault. -/
def guarded {β : Type} (action : IO β) : IO (Except Fault β) := do
  match ← action.toBaseIO with
  | .ok value => pure (.ok value)
  | .error e => pure (.error (faultOf e))

/-- The file system of this machine. -/
def machine : FileSystem IO where
  read path := guarded do return (← IO.FS.readBinFile path).toList
  write path bytes := guarded (IO.FS.writeBinFile path ⟨bytes.toArray⟩)
  makeDirectory path := guarded (IO.FS.createDir path)
  isDirectory path := do
    match ← (do (← IO.FS.realPath path).isDir : IO Bool).toBaseIO with
    | .ok answer => pure answer
    | .error _ => pure false
  rename path target := guarded (IO.FS.rename path target)
  remove path := guarded (IO.FS.removeFile path)

end HomeWidget.Main

/-- Runs the command that the words of the command line spell. -/
def main (words : List String) : IO UInt32 := do
  let current ← IO.currentDir
  let report ← HomeWidget.CommandLine.run HomeWidget.Main.machine current.toString words
  IO.print report.stdout
  IO.eprint report.stderr
  return UInt32.ofNat report.code
