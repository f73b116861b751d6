import Autoflow.Command.Arguments
import Autoflow.Editing.Store
import Autoflow.Run.Walk
import Autoflow.Settings
import Autoflow.Yaml.Fixture

/-!
# Carrying out a command

A command works on its surroundings through a `Host`: variables, files and the screen, over any
monad. It ends well, or with the reason of the first thing that failed; what was printed before
that stays printed.
-/

namespace Autoflow

/-- The surroundings of a command. -/
structure Host (m : Type → Type) where
  /-- The value of a variable. -/
  lookup : String → m (Option String)
  /-- The text of a file, nothing if it cannot be read. -/
  fileText? : String → m (Option String)
  /-- Writes a text to the file of a name in a directory, which is made if it is missing. The
  answer is why that cannot be done, or nothing. -/
  saveText : (directory name text : String) → m (Option String)
  /-- Prints a text. -/
  print : String → m Unit

/-- How the command line ends. -/
inductive Ending where
  | done
  | failed (reason : String)
  | misused
deriving DecidableEq

/-- The exit code of an ending. -/
def Ending.code : Ending → UInt32
  | done => 0
  | failed _ => 1
  | misused => 2

namespace Record

/-- The iterations in effect, by container. -/
def describeIterations (r : Record) : String :=
  "\x7b" ++ ", ".intercalate (r.iterations.toList.map fun p =>
    "NodeId(" ++ toString p.1 ++ "): " ++ toString p.2) ++ "\x7d"

/-- A line about a dispatch in a workflow. -/
def describe (w : Workflow) (r : Record) : String :=
  ((w.nodes.get? r.node).map fun n => n.displayLabel).getD "" ++ " " ++ r.describeIterations
    ++ " -> " ++ r.result.data.compact ++ " (output '" ++ r.result.output ++ "')"

end Record

namespace Command

variable {m : Type → Type} [Monad m]

/-- Prints a line. -/
def printLine (host : Host m) (line : String) : ExceptT String m Unit :=
  host.print (line ++ "\n")

/-- Ends with the text of a failure. -/
def orFail {α : Type} (r : Except Failure α) : ExceptT String m α :=
  match r with
  | .ok a => pure a
  | .error f => throw (f.message?.getD f.code)

/-- Builds the workflow of the fixture in a file. -/
def load (host : Host m) (file : String) : ExceptT String m Workflow := do
  match (← host.fileText? file).map Fixture.ofYaml with
  | some (.ok fixture) => orFail (fixture.build Registry.builtin)
  | _ => throw ("Failed to load " ++ file)

/-- Saves the graph of a workflow, if there is a directory for that. -/
def save (host : Host m) (settings : Settings) (w : Workflow) : ExceptT String m Unit := do
  match settings.graphDir with
  | none => pure ()
  | some directory =>
    match ← host.saveText directory (BlobFiles.fileName w.id) w.graph.toBlob.pretty with
    | none => pure ()
    | some reason => throw reason

/-- The workflow with its simulation marker on the node of a label, if one is given. -/
def stopAtLabel (label : Option String) (w : Workflow) : ExceptT String m Workflow :=
  match label with
  | none => pure w
  | some label =>
    match w.findByLabel? label with
    | some node => pure { w with simulateUntil := some node.id }
    | none => throw ("No node labeled '" ++ label ++ "'")

/-- The payload of a text, null without one. -/
def payloadOf (text : Option String) : ExceptT String m Json :=
  match text.map Json.read with
  | none => pure .null
  | some (.ok payload) => pure payload
  | some (.error _) => throw "Invalid payload"

/-- Carries out a command. -/
def perform (host : Host m) (settings : Settings) : Command → ExceptT String m Unit
  | display file raw => do
    let w ← load host file
    let graph ← if raw then pure w.graph.toBlob else orFail (w.labeledGraph.mapError Failure.graph)
    printLine host graph.pretty
  | check file => do
    let w ← load host file
    save host settings w
    printLine host ("Workflow " ++ toString w.id ++ " (" ++ w.name ++ ") is valid: "
      ++ toString w.nodes.size ++ " nodes")
  | run file payload stopAt => do
    let w ← stopAtLabel stopAt (← load host file)
    let payload ← payloadOf payload
    printLine host ("Running workflow: " ++ w.name)
    let c ← orFail ((w.run (Context.new (.known payload))).mapError Halt.failure)
    c.history.forM fun r => printLine host (r.describe w)

/-- The settings given by the variables. -/
def settings (host : Host m) : ExceptT String m Settings := do
  let nodeCache ← host.lookup Settings.nodeCacheVariable
  let graphDir ← host.lookup Settings.graphDirVariable
  orFail (Settings.ofLookup fun name =>
    if name = Settings.nodeCacheVariable then nodeCache else graphDir)

/-- The name and the version of the program. -/
def versionLine : String := "flowgraph-rs 0.1.0"

/-- How the program is used. -/
def usage : String :=
  "Usage: flowgraph <COMMAND> --file <FILE>\n\n" ++
  "Commands:\n" ++
  "  show   Print the graph of a workflow fixture (--raw for ids)\n" ++
  "  check  Validate a workflow fixture\n" ++
  "  run    Dispatch a workflow fixture (--payload <JSON>, --until <LABEL>)\n"

end Command

/-- Does what the arguments ask for. -/
def Invocation.perform {m : Type → Type} [Monad m] (host : Host m) (arguments : List String) :
    m Ending := do
  match Invocation.ofArguments? arguments with
  | none => return .misused
  | some .help =>
    host.print Command.usage
    return .done
  | some .version =>
    host.print (Command.versionLine ++ "\n")
    return .done
  | some (.command c) =>
    match ← ((Command.settings host).bind fun s => c.perform host s).run with
    | .ok () => return .done
    | .error reason => return .failed reason

end Autoflow
