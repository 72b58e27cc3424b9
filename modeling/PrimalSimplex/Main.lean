import PrimalSimplex.CommandLine

/-!
# The executable

Reads the files that the arguments name, runs the program on them, and writes what it leaves behind.
Everything else is decided by `CommandLine.run`.
-/

namespace PrimalSimplex

/-- Reads a file, telling apart the ways in which that fails. -/
def fetch (name : String) : IO (Except CommandLine.FileError ByteArray) := do
  try
    return .ok (← IO.FS.readBinFile name)
  catch
    | .noFileOrDirectory .. => return .error .missing
    | .inappropriateType .. => return .error .isDirectory
    | e => return .error (.other (toString e))

/-- The name of a level in front of an event. -/
def levelName : Level → String
  | .warn => "WARN"
  | .debug => "DEBUG"
  | .trace => "TRACE"

end PrimalSimplex

open PrimalSimplex

def main (arguments : List String) : IO UInt32 := do
  let contents ← (CommandLine.filesOf arguments).mapM fun name => do
    return (name, ← fetch name)
  let files : CommandLine.Files := fun name => (contents.lookup name).getD (.error .missing)
  let output := CommandLine.run files arguments
  for event in output.events do
    IO.eprintln (levelName event.level ++ " " ++ event.message)
  IO.print output.stdout
  IO.eprint output.stderr
  return output.exitCode.toUInt32
