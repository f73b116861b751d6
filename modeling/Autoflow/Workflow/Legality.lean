import Autoflow.NodeType.Registry
import Autoflow.Workflow.Basic

/-!
# Legal edits

Which edits of a workflow are legal, by the kind of the node: a trigger stands only at the
root, a container is not taken away from the nodes inside it, and a router keeps the branches
that lead somewhere. All checks leave the workflow alone.
-/

namespace Autoflow.Workflow

/-- Fails with a fault if a test of the graph answers yes, and as the test does if it fails. -/
def refuseIf (test : Except GraphFault Bool) (fault : NodeFault) : Except Failure Unit :=
  match test with
  | .error f => .error f
  | .ok true => .error fault
  | .ok false => .ok ()

/-- Whether a node has successors, on one output if it is given. -/
def hasNext (w : Workflow) (n : NodeId) (output : Option String) : Except GraphFault Bool :=
  (w.graph.nextNodes n output).map fun l => !l.isEmpty

/-- Whether there are nodes inside a node. -/
def hasChildren (w : Workflow) (n : NodeId) : Except GraphFault Bool :=
  (w.graph.children n).map fun l => !l.isEmpty

/-- Whether an output of a node besides the default one leads to another node. -/
def hasNodeOnEdge (w : Workflow) (node : Node) : Except GraphFault Bool :=
  (node.service.edges.filter fun e => !e.uid.isEmpty).anyM fun e => w.hasNext node.id e.uid

/-- Whether one node lies inside another one. -/
def liesInside (w : Workflow) (inner outer : NodeId) : Except GraphFault Bool :=
  (w.graph.descendants outer).map fun l => l.contains inner

/-- A trigger is created only at the root of an empty workflow, and all other nodes elsewhere. -/
def checkCreate (w : Workflow) (kind : NodeKind) (reference : Option Node) : Except Failure Unit :=
  if kind = .trigger then
    if w.graph.root.isSome then .error NodeFault.triggerAlreadyExists
    else if reference.isSome then .error NodeFault.triggerMustBeFirstNode
    else .ok ()
  else if reference.isNone then .error NodeFault.firstNodeMustBeTrigger
  else .ok ()

/-- A trigger is deleted only if nothing follows it, a container only if it is empty and a
router only if its branches are. -/
def checkDelete (w : Workflow) (kind : NodeKind) (node : Node) : Except Failure Unit :=
  match kind with
  | .trigger => refuseIf (w.hasNext node.id none)
    (.notDeletable "Trigger nodes cannot be deleted if they are followed by other nodes.")
  | .container => refuseIf (w.hasChildren node.id)
    (.notDeletable "Container nodes cannot be deleted if they have one or more children nodes.")
  | .router => refuseIf (w.hasNodeOnEdge node)
    (.notDeletable "Router nodes cannot be deleted if they have one or more output nodes.")
  | .action => .ok ()

/-- A container is replaced only if it is empty and a router only if its branches are, and
only triggers take the place of triggers. -/
def checkReplace (w : Workflow) (old new : NodeType) (node : Node) : Except Failure Unit := do
  match old.kind with
  | .container =>
    refuseIf (w.hasChildren node.id) (.notReplaceable
      "Container nodes cannot be replaced if they have one or more children nodes.")
  | .router =>
    refuseIf (w.hasNodeOnEdge node) (.notReplaceable
      "Router nodes cannot be replaced if they have one or more output nodes.")
  | .trigger | .action => .ok ()
  if old.isReplaceableWith new then .ok ()
  else .error (NodeFault.notReplaceable
    ("A " ++ old.kind.name ++ " node cannot be replaced with a " ++ new.kind.name ++ " node."))

/-- A trigger stays where it is, a router moves only if its branches are empty and a container
not into itself; nothing moves to the root. -/
def checkMove (w : Workflow) (kind : NodeKind) (node : Node) (reference : Option Node) :
    Except Failure Unit := do
  match kind with
  | .trigger => .error (NodeFault.notMovable "Trigger nodes cannot be moved.")
  | .router =>
    refuseIf (w.hasNodeOnEdge node) (.notMovable
      "Router nodes cannot be moved if they have one or more output nodes.")
  | .container =>
    match reference with
    | some r =>
      refuseIf (w.liesInside r.id node.id) (.notMovable
        "A container node cannot be moved inside itself.")
    | none => .ok ()
  | .action => .ok ()
  if reference.isSome then .ok () else .error NodeFault.firstNodeMustBeTrigger

/-- An update of a router keeps each branch that leads somewhere. -/
def checkUpdate (w : Workflow) (kind : NodeKind) (node : Node) (service : Service) :
    Except Failure Unit :=
  if kind = .router then
    (node.service.edges.filter fun e => !e.uid.isEmpty && !service.hasOutput e.uid).forM fun e =>
      refuseIf (w.hasNext node.id e.uid) (.misconfiguredService
        ("The edge '" ++ e.label ++ "' cannot be removed as it has one or more output nodes."))
  else .ok ()

end Autoflow.Workflow
