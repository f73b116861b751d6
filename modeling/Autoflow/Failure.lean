import Autoflow.Json.Decode
import Autoflow.Json.Reader
import Autoflow.Node.Id

/-!
# Failures

Every failure is a value that says what went wrong. `Failure.code` gives its code for
programs, `Failure.message?` its text, and `Failure.isUserError` whether the caller can mend
it: structural violations, missing nodes and the trash are up to the caller, a corrupted
graph or a failing service is not.
-/

namespace Autoflow

/-- A structural violation, or a node that is missing. -/
inductive NodeFault where
  | doesNotExist (node : NodeId)
  | notInWorkflow (node : NodeId)
  | referenceInvalid (reason : String)
  | missingOutput (node : NodeId) (output : String)
  | triggerAlreadyExists
  | firstNodeMustBeTrigger
  | triggerMustBeFirstNode
  | notDeletable (reason : String)
  | notReplaceable (reason : String)
  | notMovable (reason : String)
  | misconfiguredService (reason : String)
  | unknownType (name : String)
deriving DecidableEq

/-- What a renaming gives a new name. -/
inductive RenamedThing where
  | node
  | output
deriving DecidableEq

/-- A fault of the graph itself. -/
inductive GraphFault where
  | nodeNotFound (node : NodeId)
  | invalidBlob (reason : String)
  | missingMapping (kind : RenamedThing) (key : String)
  | multipleIncomingEdges (node : NodeId)
  | danglingReference (node : NodeId)
  | unreachable (node : NodeId)
deriving DecidableEq

/-- A fault met while a workflow runs. -/
inductive RunFault where
  | misconfigured (node : NodeId) (reason : String)
  | failed (node : NodeId) (reason : String)
  /-- A container whose result holds no list to iterate on. -/
  | invalidIterationData (node : NodeId)
  | noTrigger
  /-- A walk that is deeper than any walk of a tree with these nodes. -/
  | endless (node : NodeId)
deriving DecidableEq

/-- A fault of the trash. -/
inductive TrashFault where
  | notTrashed (node : NodeId)
  | alreadyTrashed (node : NodeId)
  | restorationDisallowed (reason : String)
deriving DecidableEq

/-- A JSON text or value that is not accepted. -/
inductive JsonFault where
  | text (fault : TextFault)
  | data (error : DecodeError)
deriving DecidableEq

/-- What an operation can fail with. -/
inductive Failure where
  | node (fault : NodeFault)
  | graph (fault : GraphFault)
  | run (fault : RunFault)
  | trash (fault : TrashFault)
  | configuration (reason : String)
  /-- A file that cannot be read or written. -/
  | file
  | json (fault : JsonFault)
  /-- A YAML text that is not accepted. -/
  | yaml
deriving DecidableEq

instance : Inhabited Failure := ⟨.file⟩

namespace NodeFault

/-- The text of a structural violation. -/
def message : NodeFault → String
  | doesNotExist n => "The node " ++ toString n ++ " does not exist."
  | notInWorkflow n => "The node " ++ toString n ++ " does not belong to the workflow."
  | referenceInvalid reason => "Invalid reference node: " ++ reason
  | missingOutput n output => "Output '" ++ output ++ "' doesn't exist on node " ++ toString n
  | triggerAlreadyExists => "A trigger node already exists in this workflow"
  | firstNodeMustBeTrigger => "The first node of a workflow must be a trigger"
  | triggerMustBeFirstNode => "A trigger node must be the first node of the workflow"
  | notDeletable reason => reason
  | notReplaceable reason => reason
  | notMovable reason => reason
  | misconfiguredService reason => reason
  | unknownType name => "Unknown node type: " ++ name

/-- The code of a structural violation. -/
def code : NodeFault → String
  | doesNotExist _ => "ERROR_AUTOMATION_NODE_DOES_NOT_EXIST"
  | notInWorkflow _ => "ERROR_AUTOMATION_NODE_NOT_IN_WORKFLOW"
  | referenceInvalid _ => "ERROR_AUTOMATION_NODE_REFERENCE_NODE_INVALID"
  | missingOutput _ _ => "ERROR_AUTOMATION_NODE_MISSING_OUTPUT"
  | triggerAlreadyExists => "ERROR_AUTOMATION_TRIGGER_NODE_ALREADY_EXISTS"
  | firstNodeMustBeTrigger => "ERROR_AUTOMATION_FIRST_NODE_MUST_BE_TRIGGER"
  | triggerMustBeFirstNode => "ERROR_AUTOMATION_TRIGGER_MUST_BE_FIRST_NODE"
  | notDeletable _ => "ERROR_AUTOMATION_NODE_NOT_DELETABLE"
  | notReplaceable _ => "ERROR_AUTOMATION_NODE_NOT_REPLACEABLE"
  | notMovable _ => "ERROR_AUTOMATION_NODE_NOT_MOVABLE"
  | misconfiguredService _ => "ERROR_AUTOMATION_NODE_MISCONFIGURED_SERVICE"
  | unknownType _ => "ERROR_AUTOMATION_NODE_TYPE_DOES_NOT_EXIST"

end NodeFault

/-- The word for what a renaming gives a new name. -/
def RenamedThing.name : RenamedThing → String
  | node => "node"
  | output => "output"

namespace GraphFault

/-- The text of a fault of the graph. -/
def message : GraphFault → String
  | nodeNotFound n => "Node " ++ toString n ++ " not found in the graph"
  | invalidBlob reason => "Invalid graph blob: " ++ reason
  | missingMapping kind key => "No " ++ kind.name ++ " mapping for '" ++ key ++ "'"
  | multipleIncomingEdges n => "Node " ++ toString n ++ " has more than one incoming edge"
  | danglingReference n => "Node " ++ toString n ++ " is referenced but has no entry"
  | unreachable n => "Node " ++ toString n ++ " is not reachable from the first node"

/-- The code of a fault of the graph. -/
def code : GraphFault → String
  | nodeNotFound _ => "ERROR_AUTOMATION_NODE_NOT_FOUND_IN_GRAPH"
  | invalidBlob _ => "ERROR_AUTOMATION_GRAPH_INVALID"
  | missingMapping _ _ => "ERROR_AUTOMATION_GRAPH_MISSING_MAPPING"
  | multipleIncomingEdges _ | danglingReference _ | unreachable _ =>
    "ERROR_AUTOMATION_GRAPH_CORRUPTED"

end GraphFault

namespace RunFault

/-- The text of a fault of a run. -/
def message : RunFault → String
  | misconfigured n reason =>
    "The node " ++ toString n ++ " is misconfigured and cannot be dispatched. " ++ reason
  | failed n reason => "The node " ++ toString n ++ " failed to dispatch: " ++ reason
  | invalidIterationData n =>
    "The container node " ++ toString n ++ " did not return a list of results to iterate on"
  | noTrigger => "The workflow has no trigger node"
  | endless n => "The walk of the workflow does not come to an end at node " ++ toString n

/-- The code of a fault of a run. -/
def code : RunFault → String
  | misconfigured _ _ => "ERROR_AUTOMATION_NODE_MISCONFIGURED_SERVICE"
  | failed _ _ => "ERROR_AUTOMATION_NODE_DISPATCH_FAILED"
  | invalidIterationData _ => "ERROR_AUTOMATION_NODE_INVALID_ITERATION_DATA"
  | noTrigger => "ERROR_AUTOMATION_WORKFLOW_HAS_NO_TRIGGER"
  | endless _ => "ERROR_AUTOMATION_GRAPH_CORRUPTED"

/-- Whether the caller can mend the fault. -/
def isUserError : RunFault → Bool
  | misconfigured _ _ | noTrigger => true
  | _ => false

end RunFault

namespace TrashFault

/-- The text of a fault of the trash. -/
def message : TrashFault → String
  | notTrashed n => "The node " ++ toString n ++ " is not in the trash"
  | alreadyTrashed n => "The node " ++ toString n ++ " is already in the trash"
  | restorationDisallowed reason => reason

/-- The code of a fault of the trash. -/
def code : TrashFault → String
  | notTrashed _ => "ERROR_TRASH_ITEM_DOES_NOT_EXIST"
  | alreadyTrashed _ => "ERROR_TRASH_ITEM_ALREADY_TRASHED"
  | restorationDisallowed _ => "ERROR_CANNOT_RESTORE_ITEM"

end TrashFault

namespace Failure

/-- The code of a failure. -/
def code : Failure → String
  | node f => f.code
  | graph f => f.code
  | run f => f.code
  | trash f => f.code
  | configuration _ => "ERROR_CONFIGURATION"
  | file => "ERROR_IO"
  | json _ | yaml => "ERROR_SERIALIZATION"

/-- The text of a failure, where this library words it. -/
def message? : Failure → Option String
  | node f => some f.message
  | graph f => some f.message
  | run f => some f.message
  | trash f => some f.message
  | configuration reason => some ("Configuration error: " ++ reason)
  | json (.data e) => some e.message
  | file | json (.text _) | yaml => none

/-- Whether the caller can mend a failure. -/
def isUserError : Failure → Bool
  | node _ | trash _ => true
  | run f => f.isUserError
  | _ => false

instance : Coe NodeFault Failure := ⟨node⟩

instance : Coe GraphFault Failure := ⟨graph⟩

instance : Coe RunFault Failure := ⟨run⟩

instance : Coe TrashFault Failure := ⟨trash⟩

end Failure

end Autoflow
