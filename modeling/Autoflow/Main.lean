import Autoflow.Command.Perform

/-!
# The command line program
-/

namespace Autoflow

/-- The surroundings of the program itself. -/
def Host.system : Host IO where
  lookup := fun name => IO.getEnv name
  fileText? := fun file =>
    try
      return some (← IO.FS.readFile file)
    catch _ =>
      return none
  saveText := fun directory name text =>
    try
      IO.FS.createDirAll directory
      IO.FS.writeFile (directory ++ "/" ++ name) text
      return none
    catch e =>
      return some (toString e)
  print := fun text => IO.print text

end Autoflow

/-- Runs the program. -/
def main (arguments : List String) : IO UInt32 := do
  let ending ← Autoflow.Invocation.perform Autoflow.Host.system arguments
  match ending with
  | .failed reason => IO.eprintln ("Error: " ++ reason)
  | .misused => IO.eprint Autoflow.Command.usage
  | .done => pure ()
  return ending.code
