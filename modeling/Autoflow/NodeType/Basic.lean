import Autoflow.Service.Probe
import Autoflow.Service.Scripted

/-!
# Node types

A node type has one of four kinds, builds the service of a node from a configuration and
completes the configuration of a new node. The kind decides which edits are legal.
-/

namespace Autoflow

/-- The kind of a node type. -/
inductive NodeKind where
  /-- Starts a workflow. -/
  | trigger
  | action
  /-- Runs the nodes inside it once for each item of its result. -/
  | container
  /-- Has branches besides the default output. -/
  | router
deriving DecidableEq, Inhabited

namespace NodeKind

/-- The word for a kind. -/
def name : NodeKind → String
  | trigger => "trigger"
  | action => "action"
  | container => "container"
  | router => "router"

/-- The words for the kinds. -/
def names : List String := ["trigger", "action", "container", "router"]

/-- The kind of a word. -/
def ofName? : String → Option NodeKind
  | "trigger" => some trigger
  | "action" => some action
  | "container" => some container
  | "router" => some router
  | _ => none

/-- Reads a kind. -/
def decode : Decoder NodeKind := Decoder.variant names ofName?

end NodeKind

/-- A type of nodes. -/
structure NodeType where
  name : String
  kind : NodeKind
  /-- Builds the service of a node from its configuration. -/
  build : Json → Except NodeFault Service
  /-- Whether a new node with this configuration is given a fresh branch. -/
  needsBranch : Json → Bool
  /-- Completes the configuration of a new node, given a fresh uid for a branch. -/
  prepare : String → Json → Json

namespace NodeType

/-- Whether nodes of the type start a workflow. -/
def isTrigger (t : NodeType) : Bool := t.kind = .trigger

/-- Whether nodes of the type have nodes inside. -/
def isContainer (t : NodeType) : Bool := t.kind = .container

/-- Whether a node of one type may be replaced with one of the other: triggers stand for
triggers, and all others for each other. -/
def isReplaceableWith (t u : NodeType) : Bool := t.isTrigger == u.isTrigger

/-- Whether a configuration lists outputs. -/
def listsEdges (config : Json) : Bool :=
  match (config.field? "edges").bind Json.items? with
  | some items => !items.isEmpty
  | none => false

/-- Gives a configuration a single branch. What is not an object gives way to one. -/
def withBranch (uid : String) (config : Json) : Json :=
  let fields := match config with
    | .object fields => fields
    | _ => []
  .object (Assoc.put "edges" (.array [Edge.toJson ⟨uid, "Branch"⟩]) fields)

/-- A type whose nodes are scripted. A new router starts with one branch. -/
def scripted (name : String) (kind : NodeKind) : NodeType where
  name := name
  kind := kind
  build config := (Script.ofJson config).map Script.service
  needsBranch config := kind = .router && !listsEdges config
  prepare uid config :=
    if kind = .router && !listsEdges config then withBranch uid config else config

/-- A type whose nodes are probes. -/
def probe (name : String) (kind : NodeKind) : NodeType where
  name := name
  kind := kind
  build config := .ok (Probe.service config)
  needsBranch _ := false
  prepare _ config := config

/-- The types available from the start. -/
def builtins : List NodeType := [
  scripted "rows_created" .trigger,
  scripted "rows_updated" .trigger,
  scripted "periodic" .trigger,
  scripted "http_trigger" .trigger,
  scripted "create_row" .action,
  scripted "update_row" .action,
  scripted "http_request" .action,
  scripted "smtp_email" .action,
  scripted "iterator" .container,
  scripted "router" .router]

end NodeType

end Autoflow
