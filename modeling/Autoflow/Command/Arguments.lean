import Autoflow.Table.Assoc

/-!
# The arguments of the command line

The first argument names a command; behind it stand its options, each at most once. The value of
an option is the next argument, which must not look like an option, or is attached: `--name=x`,
`-nx` or `-n=x`. A lone `--` may end the options. Asking for help is answered at once, whatever
is still to come.
-/

namespace Autoflow

/-- What the command line can be asked to do. -/
inductive Command where
  /-- Prints the graph of a fixture, with ids instead of labels if `raw` is set. -/
  | display (file : String) (raw : Bool)
  /-- Checks a fixture and saves its graph. -/
  | check (file : String)
  /-- Runs a fixture with the text of a payload, up to the node with a label. -/
  | run (file : String) (payload stopAt : Option String)
deriving DecidableEq

namespace Command

/-- An option of a command. -/
structure Switch where
  name : String
  /-- The letter that stands for the name. -/
  letter : Option Char
  takesValue : Bool

/-- The options given to a command, the latest first, with the empty text for one without a
value. -/
abbrev Given := List (String × String)

/-- What stands behind the name of a command. -/
inductive Rest where
  | help
  | given (options : Given)

/-- Adds an option that has not been given yet. -/
def give (name value : String) (given : Given) : Option Given :=
  if (Assoc.find? name given).isSome then none else some ((name, value) :: given)

/-- Whether an argument cannot be the value of the option in front of it. -/
def looksLikeSwitch (arg : String) : Bool := arg.toList.head? = some '-' && arg ≠ "-"

/-- A switch as it stands in an argument, with the text attached to it. -/
structure Found where
  switch : Switch
  attached : Option String

/-- The switch named by an argument, which may be `--name`, `--name=x`, `-n`, `-nx` or `-n=x`. -/
def find? (switches : List Switch) (arg : String) : Option Found :=
  match arg.toList with
  | '-' :: '-' :: long => do
    let name := long.takeWhile (· ≠ '=')
    let switch ← switches.find? fun s => s.name.toList = name
    return ⟨switch, ((long.dropWhile (· ≠ '=')).tail?).map String.ofList⟩
  | '-' :: letter :: more => do
    let switch ← switches.find? fun s => s.letter = some letter
    return ⟨switch, match more with
      | [] => none
      | '=' :: text => some (String.ofList text)
      | text => some (String.ofList text)⟩
  | _ => none

/-- The switch that asks for help. -/
def helpSwitch : Switch := ⟨"help", some 'h', false⟩

/-- Reads what stands behind the name of a command. Nothing if it is misused. -/
def readRest (switches : List Switch) : List String → Given → Option Rest
  | [], given => some (.given given)
  | arg :: rest, given =>
    if arg = "--" then if rest.isEmpty then some (.given given) else none
    else
      match find? (helpSwitch :: switches) arg with
      | none => none
      | some ⟨switch, attached⟩ =>
        match switch.takesValue, attached with
        | true, some value => (give switch.name value given).bind (readRest switches rest)
        | true, none =>
          match rest with
          | [] => none
          | value :: rest =>
            if looksLikeSwitch value then none
            else (give switch.name value given).bind (readRest switches rest)
        | false, attached =>
          if switch.name = helpSwitch.name then
            if attached.isSome && arg.startsWith "--" then none else some .help
          else if attached.isSome then none
          else (give switch.name "" given).bind (readRest switches rest)

/-- The option that names the fixture. -/
def fileSwitch : Switch := ⟨"file", some 'f', true⟩

/-- The names of the commands. -/
def names : List String := ["show", "check", "run"]

/-- The options of a command. -/
def switches : String → List Switch
  | "show" => [fileSwitch, ⟨"raw", none, false⟩]
  | "run" => [fileSwitch, ⟨"payload", some 'p', true⟩, ⟨"until", some 'u', true⟩]
  | _ => [fileSwitch]

/-- The command of a name with its options. Nothing without a file. -/
def ofGiven? (name : String) (given : Given) : Option Command := do
  let file ← Assoc.find? fileSwitch.name given
  match name with
  | "show" => return display file (Assoc.find? "raw" given).isSome
  | "check" => return check file
  | "run" => return run file (Assoc.find? "payload" given) (Assoc.find? "until" given)
  | _ => none

end Command

/-- What the arguments ask for. -/
inductive Invocation where
  | help
  | version
  | command (c : Command)
deriving DecidableEq

namespace Invocation

/-- Reads the arguments. Nothing if they are misused. -/
def ofArguments? : List String → Option Invocation
  | [] => none
  | name :: rest =>
    if Command.names.contains name then
      (Command.readRest (Command.switches name) rest []).bind fun r =>
        match r with
        | .help => some .help
        | .given options => (Command.ofGiven? name options).map command
    else if name = "help" then
      match rest with
      | [] => some .help
      | [topic] => if ("help" :: Command.names).contains topic then some .help else none
      | _ => none
    else
      match name.toList with
      | '-' :: 'h' :: _ => some .help
      | '-' :: 'V' :: _ => some .version
      | _ =>
        if name = "--help" then some .help
        else if name = "--version" then some .version
        else none

end Invocation

end Autoflow
