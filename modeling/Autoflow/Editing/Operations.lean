import Autoflow.Editing.Desk
import Autoflow.Graph.Rename

/-!
# Edits of a workflow

Every edit checks the request, asks whether it is legal for the kind of the node, rewires the
graph, and saves it. Fresh ids are used up as soon as all checks before the service have
passed. A refused save comes last: the desk keeps what was done until then.
-/

namespace Autoflow

/-- A node after an update, with its values before and after. -/
structure UpdatedNode where
  node : Node
  before : NodeValues
  after : NodeValues

/-- A node that took the place of another one. -/
structure ReplacedNode where
  node : Node
  formerId : NodeId
  formerType : String

/-- A node that was moved. -/
structure MovedNode where
  node : NodeId
  origin : Position
  destination : Position
deriving DecidableEq

namespace Workflow

/-- The fault of a reference that is not there. -/
def missingReference (n : NodeId) : NodeFault :=
  .referenceInvalid ("The reference node " ++ toString n ++ " doesn't exist")

/-- The reference of a position, which has to be a live node. -/
def resolve (w : Workflow) (p : Position) : Except Failure (Option Node) :=
  match p.reference with
  | none => .ok none
  | some n =>
    match w.nodes.get? n with
    | some node => .ok (some node)
    | none => .error (missingReference n)

/-- Checks that a slot exists: its reference stands in the graph of the workflow, exposes the
output, and is a container if the slot is inside it. -/
def checkPosition (w : Workflow) (registry : Registry) (reference : Option Node) (p : Position) :
    Except Failure Unit :=
  match reference with
  | none => .ok ()
  | some r =>
    if r.workflow ≠ w.id ∨ w.graph.contains r.id = false then .error (missingReference r.id)
    else if r.hasOutput p.output = false then .error (NodeFault.missingOutput r.id p.output)
    else if p.placement = .child then
      match registry.require r.typeName with
      | .error f => .error f
      | .ok type =>
        if type.isContainer then .ok ()
        else .error (NodeFault.referenceInvalid
          ("The reference node " ++ toString r.id ++ " can't have child"))
    else .ok ()

end Workflow

namespace Edit

/-- The uid for the next generated branch. -/
def nextBranch (env : Setup) : Edit String := fun d =>
  .ok (env.branchUid (d.editor.branches + 1)) d

/-- Counts a generated branch, if there was need of one. -/
def countBranch (needed : Bool) : Edit Unit :=
  modifyEditor fun e => if needed then { e with branches := e.branches + 1 } else e

/-- A new node of a type with a fresh id, not yet part of the workflow. -/
def newNode (type : NodeType) (label : String) (config : Json) (w : WorkflowId) : Edit Node := do
  let id ← takeId
  let service ← check (type.build config)
  return { id, workflow := w, typeName := type.name, label, service }

/-- Creates a node in a slot. -/
def create (env : Setup) (typeName : String) (values : NodeValues) (p : Position) : Edit Node := do
  let w ← workflow
  let type ← check (env.registry.require typeName)
  let reference ← check (w.resolve p)
  check (w.checkPosition env.registry reference p)
  check (w.checkCreate type.kind reference)
  let config := values.service.getD .null
  let uid ← nextBranch env
  let node ← newNode type (values.label.getD "") (type.prepare uid config) w.id
  onGraph (Graph.insert node.id p)
  modifyWorkflow (·.addNode node)
  countBranch (type.needsBranch config)
  commit env
  return node

/-- Changes the label or the configuration of a node. The graph is not saved. -/
def update (env : Setup) (n : NodeId) (values : NodeValues) : Edit UpdatedNode := do
  let w ← workflow
  let node ← check (w.node n)
  let type ← check (env.registry.require node.typeName)
  let service ← match values.service with
    | none => pure node.service
    | some config =>
      let service ← check (type.build config)
      check (w.checkUpdate type.kind node service)
      pure service
  let updated := { node with label := values.label.getD node.label, service }
  modifyWorkflow (·.addNode updated)
  forgetListing w.id
  return ⟨updated, .ofNode node, .ofNode updated⟩

/-- Deletes a node into the trash. -/
def delete (env : Setup) (n : NodeId) (actor : Option String) : Edit Node := do
  let w ← workflow
  let node ← check (w.node n)
  let type ← check (env.registry.require node.typeName)
  check (w.checkDelete type.kind node)
  let position ← check (w.graph.position n)
  let graph ← check (w.graph.edited (Graph.remove n false))
  throwAway { node, workflow := w.id, trashedBy := actor, position := some position }
  modifyWorkflow fun w => { w with graph }.takeNode n
  commit env
  return node

/-- Checks that the slot of a deleted node is still there. -/
def checkRestore (env : Setup) (w : Workflow) (entry : TrashEntry) (p : Position) :
    Except Failure Unit :=
  match p.reference with
  | some reference =>
    match w.nodes.get? reference with
    | none => .error (TrashFault.restorationDisallowed
        "This automation node cannot be restored as its reference node has been deleted.")
    | some r =>
      if r.hasOutput p.output then .ok ()
      else .error (TrashFault.restorationDisallowed
        "This automation node cannot be restored as its branch has been deleted.")
  | none =>
    match env.registry.require entry.node.typeName with
    | .error f => .error f
    | .ok type =>
      if type.isTrigger && w.graph.root.isSome then
        .error (TrashFault.restorationDisallowed
          "This trigger cannot be restored as the workflow already has one.")
      else .ok ()

/-- The slot recorded for a node that was deleted from a workflow. -/
def recordedPosition (w : Workflow) (entry : TrashEntry) : Except Failure Position :=
  if entry.workflow ≠ w.id then .error (NodeFault.notInWorkflow entry.node.id)
  else if entry.isManaged then
    .error (TrashFault.restorationDisallowed
      (entry.name ++ " was trashed by a replace and can only come back through its undo"))
  else
    match entry.position with
    | some p => .ok p
    | none => .error (TrashFault.restorationDisallowed (entry.name ++ " has no recorded position"))

/-- Brings a deleted node back into the slot it was deleted from. -/
def restore (env : Setup) (n : NodeId) : Edit Node := do
  let w ← workflow
  let entry ← check ((← editor).trash.require n)
  let p ← check (recordedPosition w entry)
  check (checkRestore env w entry p)
  let entry ← takeBack n false
  onGraph (Graph.insert n p)
  modifyWorkflow (·.addNode entry.node)
  commit env
  return entry.node

/-- Adds a copy of a node behind it. -/
def duplicate (env : Setup) (n : NodeId) : Edit Node := do
  let w ← workflow
  let source ← check (w.node n)
  let type ← check (env.registry.require source.typeName)
  check (w.checkCreate type.kind (some source))
  let copy ← newNode type source.label source.service.config w.id
  onGraph (Graph.insert copy.id (.south source.id ""))
  modifyWorkflow (·.addNode copy)
  commit env
  return copy

/-- A new node of a type that is to take the place of a node, and whether a branch was
generated for it. -/
def replacement (env : Setup) (w : Workflow) (old : Node) (typeName : String) :
    Edit (Node × Bool) := do
  let oldType ← check (env.registry.require old.typeName)
  let newType ← check (env.registry.require typeName)
  check (w.checkReplace oldType newType old)
  let uid ← nextBranch env
  let node ← newNode newType "" (newType.prepare uid .null) w.id
  return (node, newType.needsBranch .null)

/-- Replaces a node with a new one of a type, or with an existing one, which is not checked. -/
def replace (env : Setup) (n : NodeId) (typeName : String) (existing : Option Node)
    (actor : Option String) : Edit ReplacedNode := do
  let w ← workflow
  let old ← check (w.node n)
  let (new, generated) ← match existing with
    | some node => pure (node, false)
    | none => replacement env w old typeName
  let position ← check (w.graph.position n)
  let graph ← check (w.graph.edited (Graph.replace n new.id))
  throwAway
    { node := old, workflow := w.id, trashedBy := actor, reason := .replaced
      position := some position }
  modifyWorkflow fun w => (({ w with graph }.takeNode n).addNode new)
  countBranch generated
  commit env
  return ⟨new, n, old.typeName⟩

/-- Puts a node that was replaced back in the place of a node. It leaves the trash last. -/
def restoreReplaced (env : Setup) (n trashed : NodeId) : Edit ReplacedNode := do
  let entry ← check ((← editor).trash.require trashed)
  if !entry.isManaged then
    check (.error (TrashFault.restorationDisallowed
      ("The node " ++ toString trashed ++ " was not trashed by a replace")))
  let replaced ← replace env n entry.node.typeName (some entry.node) none
  let _ ← takeBack trashed true
  return replaced

/-- Moves a node to another slot. -/
def move (env : Setup) (n : NodeId) (destination : Position) : Edit MovedNode := do
  let w ← workflow
  let node ← check (w.node n)
  let type ← check (env.registry.require node.typeName)
  let reference ← check (w.resolve destination)
  check (w.checkPosition env.registry reference destination)
  if destination.reference = some n then
    check (.error (NodeFault.referenceInvalid
      "The reference node and the moved node must be different"))
  check (w.checkMove type.kind node reference)
  let origin ← check (w.graph.position n)
  onGraph (Graph.move n destination)
  commit env
  return ⟨n, origin, destination⟩

/-- Sets or clears the simulation marker. -/
def simulate (n : Option NodeId) : Edit Unit := do
  let w ← check ((← workflow).setSimulateUntil n)
  modifyWorkflow fun _ => w

/-- Makes sure that fresh ids differ from all ids of the workflow. -/
def reserveIds : Edit Unit := do
  let w ← workflow
  modifyEditor fun e => { e with nextId := e.nextId.beyond (w.graph.ids ++ w.nodes.ids) }

/-- The live nodes of the workflow, listed once until the next edit. -/
def listNodes : Edit (List Node) := fun d =>
  let (nodes, _, listings) :=
    d.editor.listings.getOrCompute (Editor.listingKey d.workflow.id) d.workflow.nodes.values
  .ok nodes { d with editor := { d.editor with listings } }

/-- Copies one node into a workflow under a fresh id and records the renaming. -/
def copyNode (env : Setup) (acc : Workflow × Renaming) (node : Node) :
    Edit (Workflow × Renaming) := do
  let type ← check (env.registry.require node.typeName)
  let copy ← newNode type node.label node.service.config acc.1.id
  let uids := (node.service.edges.map Edge.uid).filter fun uid => !uid.isEmpty
  let names : Renaming :=
    { nodes := acc.2.nodes.insert node.id copy.id
      outputs := uids.foldl (fun m uid => m.insert uid uid) acc.2.outputs }
  return (acc.1.addNode copy, names)

/-- Copies the workflow under another id with fresh node ids. -/
def duplicateWorkflow (env : Setup) (id : WorkflowId) (name : String) : Edit Workflow := do
  let w ← workflow
  let (copy, names) ← w.nodes.values.foldlM (copyNode env) ({ id, name }, {})
  let graph ← check (w.graph.rename names)
  let copy := { copy with graph }
  let copy ← match w.simulateUntil with
    | none => pure copy
    | some n => do
      let m ← check (names.node n)
      check (copy.setSimulateUntil (some m))
  commitOf env copy
  return copy

end Edit

end Autoflow
