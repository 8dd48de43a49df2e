import KiwiFront.Command.Run

/-!
# The command-line tool

Looks up the files that a run may need, runs the command, and writes what it comes
to.
-/

namespace KiwiFront.Main

/-- What stands at a path when reading it failed. -/
def entryOfError : IO.Error -> FileEntry
  | .inappropriateType _ 21 _ => .directory
  | _ => .missing

/-- Looks up what stands at a path. -/
def lookUp (path : String) : IO FileEntry := do
  match ← (IO.FS.readBinFile path).toBaseIO with
  | .ok contents => return .file contents
  | .error cause => return entryOfError cause

end KiwiFront.Main

/-- Runs the tool on the files of the system. -/
def main (arguments : List String) : IO UInt32 := do
  let paths := KiwiFront.Command.pathsOf arguments
  let entries ← paths.mapM fun path => return (path, ← KiwiFront.Main.lookUp path)
  let files : KiwiFront.Files := fun path => (entries.lookup path).getD .missing
  let ending := KiwiFront.Command.run files arguments
  (← IO.getStderr).putStr ending.errors
  (← IO.getStdout).putStr ending.output
  return ending.code.toUInt32
