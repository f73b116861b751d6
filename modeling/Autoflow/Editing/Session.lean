import Autoflow.Editing.Actions
import Autoflow.Workflow.Fixture

/-!
# Editing sessions

A session is an editor with several named workflows, a history for undo and redo, and the list
of all actions done in it. Each operation picks one workflow; the editor is common to all.
-/

namespace Autoflow

/-- Several workflows under one editor. -/
structure Session where
  setup : Setup
  editor : Editor
  workflows : OrderedMap String Workflow
  history : History := {}
  /-- All actions done so far, in order. -/
  actions : List Action := []

namespace Session

/-- The session that starts with one empty workflow. -/
def start (setup : Setup) (nodeCache : Bool) (name : String) (w : Workflow) : Session where
  setup := setup
  editor := { listings := { enabled := nodeCache } }
  workflows := .single name w

/-- Acts on one of the workflows. The session keeps what a failed edit leaves behind. Nothing
if there is no workflow of that name. -/
def edit {α : Type} (s : Session) (name : String) (e : Edit α) :
    Option (Except Failure α × Session) :=
  (s.workflows.get? name).map fun w =>
    let keep (d : Desk) : Session :=
      { s with editor := d.editor, workflows := s.workflows.insert name d.workflow }
    match e ⟨s.editor, w⟩ with
    | .ok a d => (.ok a, keep d)
    | .error f d => (.error f, keep d)

/-- Does what a request asks for and records the action. -/
def perform (s : Session) (name : String) (r : Request) :
    Option (Except Failure (Option Node × Action) × Session) :=
  (s.edit name (r.perform s.setup)).map fun (result, s) =>
    match result with
    | .ok (node, a) =>
      (.ok (node, a), { s with history := s.history.push a, actions := s.actions ++ [a] })
    | .error f => (.error f, s)

/-- Takes the latest action back. -/
def undo (s : Session) (name : String) : Option (Except Failure (Option Action) × Session) :=
  (s.edit name (s.history.undo s.setup)).map fun (result, s) =>
    match result with
    | .ok (a, history) => (.ok a, { s with history })
    | .error f => (.error f, s)

/-- Does the action again that was taken back last. -/
def redo (s : Session) (name : String) : Option (Except Failure (Option Action) × Session) :=
  (s.edit name (s.history.redo s.setup)).map fun (result, s) =>
    match result with
    | .ok (a, history) => (.ok a, { s with history })
    | .error f => (.error f, s)

/-- Puts a workflow under a name. -/
def put (s : Session) (name : String) (w : Workflow) : Session :=
  { s with workflows := s.workflows.insert name w }

/-- Copies a workflow and puts the copy under a name. -/
def duplicate (s : Session) (name copyName : String) (id : WorkflowId) (title : String) :
    Option (Except Failure Workflow × Session) :=
  (s.edit name (Edit.duplicateWorkflow s.setup id title)).map fun (result, s) =>
    match result with
    | .ok w => (.ok w, s.put copyName w)
    | .error f => (.error f, s)

/-- Puts the workflow of a fixture under a name. Fresh ids count on from its own if `reserve` is
set. -/
def load (s : Session) (name : String) (registry : Registry) (f : Fixture) (reserve : Bool) :
    Except Failure Session := do
  let w ← f.build registry
  let s := s.put name w
  if reserve then
    match s.edit name Edit.reserveIds with
    | some (_, s) => return s
    | none => return s
  else return s

/-- Changes what all workflows share. -/
def modifyEditor (s : Session) (f : Editor → Editor) : Session := { s with editor := f s.editor }

end Session

end Autoflow
