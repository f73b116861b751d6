import Autoflow.Editing.Operations
import Autoflow.Service.Coding

/-!
# Actions, undo and redo

A request that succeeds gives an action, which knows how to take itself back and how to do
itself again: a created node is deleted and restored, a replaced one is swapped with the node
in the trash, a moved one goes back and forth. The history keeps two stacks of actions; one
that cannot be undone or redone stays where it is.
-/

namespace Autoflow

/-- An edit that can be taken back. -/
inductive Action where
  | create (node : NodeId)
  | update (node : NodeId) (before after : NodeValues)
  | delete (node : NodeId)
  | duplicate (source node : NodeId)
  | replace (node : NodeId) (typeName : String) (formerId : NodeId) (formerType : String)
  | move (node : NodeId) (origin destination : Position)
deriving DecidableEq

namespace Action

/-- The name of the kind of an action. -/
def kindName : Action → String
  | create _ => "create_automation_node"
  | update _ _ _ => "update_automation_node"
  | delete _ => "delete_automation_node"
  | duplicate _ _ => "duplicate_automation_node"
  | replace _ _ _ _ => "replace_automation_node"
  | move _ _ _ => "move_automation_node"

/-- An action in words. -/
def describe : Action → String
  | create n => "Node (" ++ toString n ++ ") created"
  | update n _ _ => "Node (" ++ toString n ++ ") updated"
  | delete n => "Node (" ++ toString n ++ ") deleted"
  | duplicate s n => "Node (" ++ toString n ++ ") duplicated from (" ++ toString s ++ ")"
  | replace n _ o _ => "Node (" ++ toString o ++ ") replaced with (" ++ toString n ++ ")"
  | move n _ _ => "Node (" ++ toString n ++ ") moved"

/-- Takes an action back. -/
def undo (env : Setup) : Action → Edit Unit
  | create n | duplicate _ n => do let _ ← Edit.delete env n none
  | update n before _ => do let _ ← Edit.update env n before
  | delete n => do let _ ← Edit.restore env n
  | replace n _ former _ => do let _ ← Edit.restoreReplaced env n former
  | move n origin _ => do let _ ← Edit.move env n origin

/-- Does an action again. -/
def redo (env : Setup) : Action → Edit Unit
  | create n | duplicate _ n => do let _ ← Edit.restore env n
  | update n _ after => do let _ ← Edit.update env n after
  | delete n => do let _ ← Edit.delete env n none
  | replace n _ former _ => do let _ ← Edit.restoreReplaced env former n
  | move n _ destination => do let _ ← Edit.move env n destination

end Action

/-- A request for an edit that can be taken back. -/
inductive Request where
  | create (typeName : String) (values : NodeValues) (position : Position)
  | update (node : NodeId) (values : NodeValues)
  | delete (node : NodeId) (actor : Option String)
  | duplicate (node : NodeId)
  | replace (node : NodeId) (typeName : String) (actor : Option String)
  | move (node : NodeId) (destination : Position)

/-- Does what a request asks for. The result is the node it made or changed, if there is one to
show, and the action. -/
def Request.perform (env : Setup) : Request → Edit (Option Node × Action)
  | create typeName values position => do
    let node ← Edit.create env typeName values position
    return (some node, .create node.id)
  | update n values => do
    let updated ← Edit.update env n values
    return (some updated.node, .update n updated.before updated.after)
  | delete n actor => do
    let _ ← Edit.delete env n actor
    return (none, .delete n)
  | duplicate n => do
    let node ← Edit.duplicate env n
    return (some node, .duplicate n node.id)
  | replace n typeName actor => do
    let r ← Edit.replace env n typeName none actor
    return (some r.node, .replace r.node.id r.node.typeName r.formerId r.formerType)
  | move n destination => do
    let moved ← Edit.move env n destination
    return (none, .move moved.node moved.origin moved.destination)

/-- The actions that can be undone and those that can be redone, the latest first. -/
structure History where
  undoable : List Action := []
  redoable : List Action := []
deriving DecidableEq

namespace History

/-- Adds an action that was done. What was undone before can no longer be redone. -/
def push (h : History) (a : Action) : History := ⟨a :: h.undoable, []⟩

/-- Takes the latest action back, if there is one. -/
def undo (env : Setup) (h : History) : Edit (Option Action × History) :=
  match h.undoable with
  | [] => pure (none, h)
  | a :: rest => do
    a.undo env
    return (some a, ⟨rest, a :: h.redoable⟩)

/-- Does the action again that was taken back last, if there is one. -/
def redo (env : Setup) (h : History) : Edit (Option Action × History) :=
  match h.redoable with
  | [] => pure (none, h)
  | a :: rest => do
    a.redo env
    return (some a, ⟨a :: h.undoable, rest⟩)

end History

end Autoflow
