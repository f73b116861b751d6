import Autoflow.Editing.Memo
import Autoflow.Editing.Store
import Autoflow.Editing.Trash
import Autoflow.Graph.Edits
import Autoflow.Workflow.Legality

/-!
# The editing desk

All workflows share an editor: the trash, the store, the listings of nodes and the counter of
fresh ids. A desk is the editor together with the workflow at hand. Edits act on a desk and may
fail; what a failed edit leaves on the desk is part of its meaning. `commit` is the last step of
most edits: it forgets the listing of the workflow and saves its graph, which may be refused.
-/

namespace Autoflow

/-- What stays the same while workflows are edited. -/
structure Setup where
  registry : Registry
  /-- The uid of the branch generated as the n-th one, counted from one. -/
  branchUid : Nat → String
  /-- The failure of the n-th attempt to save, counted from one, if it is refused. -/
  saveFault : Nat → Option Failure

/-- What all workflows share. -/
structure Editor where
  trash : Trash := .empty
  store : Store := .empty
  /-- The nodes listed for each workflow. -/
  listings : Memo (List Node) := {}
  /-- The id of the next new node. -/
  nextId : NodeId := 1
  /-- The number of branches generated so far. -/
  branches : Nat := 0

/-- The key under which the nodes of a workflow are listed. -/
def Editor.listingKey (id : WorkflowId) : String := "wa_get_" ++ toString id ++ "_nodes"

/-- An editor and the workflow at hand. -/
structure Desk where
  editor : Editor
  workflow : Workflow

/-- An edit, which may fail. -/
abbrev Edit (α : Type) := EStateM Failure Desk α

/-- A fault that an edit can fail with. -/
class Fault (ε : Type) where
  toFailure : ε → Failure

instance : Fault Failure := ⟨id⟩

instance : Fault NodeFault := ⟨.node⟩

instance : Fault GraphFault := ⟨.graph⟩

instance : Fault TrashFault := ⟨.trash⟩

namespace Edit

/-- Goes on with a value, or fails and leaves the desk alone. -/
def check {ε α : Type} [Fault ε] (r : Except ε α) : Edit α := fun d =>
  match r with
  | .ok a => .ok a d
  | .error e => .error (Fault.toFailure e) d

/-- The workflow at hand. -/
def workflow : Edit Workflow := fun d => .ok d.workflow d

/-- Changes the workflow at hand. -/
def modifyWorkflow (f : Workflow → Workflow) : Edit Unit := fun d =>
  .ok () { d with workflow := f d.workflow }

/-- The editor. -/
def editor : Edit Editor := fun d => .ok d.editor d

/-- Changes the editor. -/
def modifyEditor (f : Editor → Editor) : Edit Unit := fun d =>
  .ok () { d with editor := f d.editor }

/-- Edits the graph of the workflow at hand in place. -/
def onGraph (e : Graph.Edit Unit) : Edit Unit := fun d =>
  match e d.workflow.graph with
  | .ok _ g => .ok () { d with workflow := { d.workflow with graph := g } }
  | .error f g => .error (.graph f) { d with workflow := { d.workflow with graph := g } }

/-- A fresh id. -/
def takeId : Edit NodeId := fun d =>
  .ok d.editor.nextId { d with editor := { d.editor with nextId := d.editor.nextId.next } }

/-- Throws a node away. -/
def throwAway (e : TrashEntry) : Edit Unit := fun d =>
  match d.editor.trash.put e with
  | .ok trash => .ok () { d with editor := { d.editor with trash } }
  | .error f => .error (.trash f) d

/-- Takes a node out of the trash. -/
def takeBack (n : NodeId) (allowManaged : Bool) : Edit TrashEntry := fun d =>
  match d.editor.trash.restore n allowManaged with
  | .ok (e, trash) => .ok e { d with editor := { d.editor with trash } }
  | .error f => .error (.trash f) d

/-- Forgets the listing of a workflow. -/
def forgetListing (id : WorkflowId) : Edit Unit :=
  modifyEditor fun e => { e with listings := e.listings.invalidate (Editor.listingKey id) }

/-- Saves the graph of a workflow, unless the attempt is refused. -/
def save (env : Setup) (w : Workflow) : Edit Unit := fun d =>
  match env.saveFault (d.editor.store.attempts + 1) with
  | some f => .error f { d with editor := { d.editor with store := d.editor.store.refuse } }
  | none =>
    .ok () { d with editor := { d.editor with store := d.editor.store.save w.id w.graph.toBlob } }

/-- Forgets the listing of a workflow and saves its graph. -/
def commitOf (env : Setup) (w : Workflow) : Edit Unit := do
  forgetListing w.id
  save env w

/-- Commits the workflow at hand. -/
def commit (env : Setup) : Edit Unit := do
  commitOf env (← workflow)

end Edit

/-- The result of an edit of a copy of a graph. -/
def Graph.edited (g : Graph) (e : Graph.Edit Unit) : Except GraphFault Graph :=
  match e g with
  | .ok _ g => .ok g
  | .error f _ => .error f

end Autoflow
