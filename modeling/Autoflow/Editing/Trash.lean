import Autoflow.Failure
import Autoflow.Node.Map
import Autoflow.Node.Position
import Autoflow.Service.Basic

/-!
# The trash

Deleted and replaced nodes go to the trash, each with the slot it had. A node that was replaced
is managed: it comes back only when its replacement is taken back.
-/

namespace Autoflow

/-- How a node got into the trash. -/
inductive TrashReason where
  | deleted
  | replaced
deriving DecidableEq

/-- A node in the trash. -/
structure TrashEntry where
  node : Node
  workflow : WorkflowId
  trashedBy : Option String := none
  reason : TrashReason := .deleted
  /-- The slot that the node had. -/
  position : Option Position := none

namespace TrashEntry

/-- Whether the entry belongs to a replacement. -/
def isManaged (e : TrashEntry) : Bool := e.reason = .replaced

/-- The name of the entry. -/
def name (e : TrashEntry) : String := e.node.typeName ++ " (" ++ toString e.node.id ++ ")"

end TrashEntry

/-- The nodes in the trash. -/
structure Trash where
  entries : NodeMap TrashEntry := .empty

namespace Trash

/-- The empty trash. -/
def empty : Trash := {}

/-- The number of nodes in the trash. -/
def size (t : Trash) : Nat := t.entries.size

/-- The entry of a node. -/
def get? (t : Trash) (n : NodeId) : Option TrashEntry := t.entries.get? n

/-- The entry of a node that has to be there. -/
def require (t : Trash) (n : NodeId) : Except TrashFault TrashEntry :=
  match t.get? n with
  | some e => .ok e
  | none => .error (.notTrashed n)

/-- Throws a node away. -/
def put (t : Trash) (e : TrashEntry) : Except TrashFault Trash :=
  if t.entries.contains e.node.id then .error (.alreadyTrashed e.node.id)
  else .ok { entries := t.entries.insert e.node.id e }

/-- Takes a node out, a managed one only if that is allowed. -/
def restore (t : Trash) (n : NodeId) (allowManaged : Bool) :
    Except TrashFault (TrashEntry × Trash) := do
  let e ← t.require n
  if e.isManaged && !allowManaged then
    .error (.restorationDisallowed
      (e.name ++ " was trashed by a replace and cannot be restored on its own"))
  else .ok (e, { entries := t.entries.erase n })

/-- Takes a node out for good. -/
def purge (t : Trash) (n : NodeId) : Except TrashFault (TrashEntry × Trash) := do
  let e ← t.require n
  return (e, { entries := t.entries.erase n })

end Trash

end Autoflow
