import Autoflow.Editing.Session
import Autoflow.Proofs.Editing.Redo

/-!
# Sessions

What can be asked for a workflow of a session: a request, to bring a node back, to set the marker,
and to undo or redo by any history. All of it comes down to nine edits (`Operation.induct`). A
session is opened with any number of empty workflows, and each node is looked for in the
workflows and in the trash.
-/

namespace Autoflow

/-- What can be asked for a workflow. -/
inductive Operation where
  | request (r : Request)
  | restore (n : NodeId)
  | restoreReplaced (n trashed : NodeId)
  | simulate (n : Option NodeId)
  | undo (h : History)
  | redo (h : History)

namespace Action

/-- The node that an action makes. -/
def made : Action → Option NodeId
  | create n | duplicate _ n | replace n _ _ _ => some n
  | update _ _ _ | delete _ | move _ _ _ => none

/-- What leaves the trash after the save when an action is done again. -/
def leftover : Action → Option NodeId
  | replace n _ _ _ => some n
  | create _ | update _ _ _ | delete _ | duplicate _ _ | move _ _ _ => none

end Action

namespace Operation

/-- Does what is asked for. The result is the id of the node that a request made. -/
def perform (env : Setup) : Operation → Edit (Option NodeId)
  | request r => do
    let done ← r.perform env
    return done.2.made
  | restore n => do
    let _ ← Edit.restore env n
    return none
  | restoreReplaced n trashed => do
    let _ ← Edit.restoreReplaced env n trashed
    return none
  | simulate n => do
    let _ ← Edit.simulate n
    return none
  | undo h => do
    let _ ← h.undo env
    return none
  | redo h => do
    let _ ← h.redo env
    return none

/-- What leaves the trash after the save. -/
def leftover : Operation → Option NodeId
  | restoreReplaced _ trashed => some trashed
  | undo h => h.undoable.head?.bind fun a => a.inverse.leftover
  | redo h => h.redoable.head?.bind Action.leftover
  | request _ | restore _ | simulate _ => none

/-- What holds of the nine edits, and of what only looks at their results, holds of all that can
be asked for. -/
theorem induct {P : {α : Type} → Option NodeId → (Setup → Edit α) → Prop}
    (nothing : ∀ {α : Type} (a : α), P none fun _ => pure a)
    (map : ∀ {α β : Type} {left : Option NodeId} {x : Setup → Edit α} (g : α → β), P left x →
      P left fun env => x env >>= fun a => pure (g a))
    (create : ∀ typeName values p, P none fun env => Edit.create env typeName values p)
    (update : ∀ n values, P none fun env => Edit.update env n values)
    (delete : ∀ n actor, P none fun env => Edit.delete env n actor)
    (restore : ∀ n, P none fun env => Edit.restore env n)
    (duplicate : ∀ n, P none fun env => Edit.duplicate env n)
    (replace : ∀ n typeName actor, P none fun env => Edit.replace env n typeName none actor)
    (restoreReplaced : ∀ n trashed, P (some trashed) fun env =>
      Edit.restoreReplaced env n trashed)
    (move : ∀ n p, P none fun env => Edit.move env n p)
    (simulate : ∀ m, P none fun _ => Edit.simulate m) (o : Operation) :
    P o.leftover fun env => o.perform env := by
  have redo : ∀ a : Action, P a.leftover fun env => a.redo env := by
    intro a
    cases a with
    | create n | duplicate _ n => exact map _ (restore n)
    | update n _ values => exact map _ (update n values)
    | delete n => exact map _ (delete n none)
    | replace n _ former _ => exact map _ (restoreReplaced former n)
    | move n _ p => exact map _ (move n p)
  cases o with
  | request r =>
    refine map _ ?_
    cases r with
    | create typeName values p => exact map _ (create typeName values p)
    | update n values => exact map _ (update n values)
    | delete n actor => exact map _ (delete n actor)
    | duplicate n => exact map _ (duplicate n)
    | replace n typeName actor => exact map _ (replace n typeName actor)
    | move n p => exact map _ (move n p)
  | restore n => exact map _ (restore n)
  | restoreReplaced n trashed => exact map _ (restoreReplaced n trashed)
  | simulate m => exact map _ (simulate m)
  | undo h =>
    refine map _ ?_
    obtain ⟨_ | ⟨a, rest⟩, redoable⟩ := h
    · exact nothing _
    · have back : P a.inverse.leftover fun env => a.undo env := by
        simp only [Action.undo_eq_redo]
        exact redo a.inverse
      exact map _ back
  | redo h =>
    refine map _ ?_
    obtain ⟨undoable, _ | ⟨a, rest⟩⟩ := h
    · exact nothing _
    · exact map _ (redo a)

end Operation

/-- Where a node can be. -/
inductive Place where
  | live (name : String)
  | trash
deriving DecidableEq

/-- A node in the trash. -/
def Trash.node? (t : Trash) (n : NodeId) : Option Node := (t.get? n).map TrashEntry.node

namespace Session

/-- A session with a new editor and several empty workflows, each given by its name in the
session, its id and its title. -/
def opened (setup : Setup) (nodeCache : Bool) (shelf : List (String × WorkflowId × String)) :
    Session where
  setup := setup
  editor := { listings := { enabled := nodeCache } }
  workflows := .ofList (shelf.map fun w => (w.1, { id := w.2.1, name := w.2.2 }))

/-- The node of an id in a place. -/
def node? (s : Session) : Place → NodeId → Option Node
  | .live name, n => (s.workflows.get? name).bind fun w => w.nodes.get? n
  | .trash, n => s.editor.trash.node? n

theorem node?_live (s : Session) (name : String) (n : NodeId) :
    s.node? (.live name) n = (s.workflows.get? name).bind fun w => w.nodes.get? n := rfl

theorem node?_trash (s : Session) (n : NodeId) : s.node? .trash n = s.editor.trash.node? n := rfl

/-- The editor and one of the workflows. -/
def desk? (s : Session) (name : String) : Option Desk :=
  (s.workflows.get? name).map fun w => ⟨s.editor, w⟩

/-- The session with the editor and the workflow of a desk. -/
def keep (s : Session) (name : String) (d : Desk) : Session :=
  { s with editor := d.editor, workflows := s.workflows.insert name d.workflow }

/-- The session after an edit of one of its workflows, whether it succeeded or not. -/
def leave {α : Type} (s : Session) (name : String) (e : Edit α) : Session :=
  match s.edit name e with
  | some (_, s') => s'
  | none => s

/-- The session after something was asked for one of its workflows. -/
def operate (s : Session) (name : String) (o : Operation) : Session :=
  s.leave name (o.perform s.setup)

/-- The session after one of its workflows was copied, whether that succeeded or not. -/
def copy (s : Session) (name copyName : String) (id : WorkflowId) (title : String) : Session :=
  match s.duplicate name copyName id title with
  | some (_, s') => s'
  | none => s

/-- What can be asked of a session. -/
inductive Step where
  | operate (name : String) (o : Operation)
  | copy (name copyName : String) (id : WorkflowId) (title : String)
  /-- To list the nodes of a workflow. -/
  | list (name : String)
  /-- To keep fresh ids apart from those of a workflow. -/
  | reserve (name : String)

/-- The session after a step. -/
def after (s : Session) : Step → Session
  | .operate name o => s.operate name o
  | .copy name copyName id title => s.copy name copyName id title
  | .list name => s.leave name Edit.listNodes
  | .reserve name => s.leave name Edit.reserveIds

/-- The session after several steps. -/
def run (s : Session) (steps : List Step) : Session := steps.foldl after s

variable {s s' : Session} {name other : String} {d : Desk} {w : Workflow}

theorem desk?_eq_some : s.desk? name = some d ↔
    s.workflows.get? name = some d.workflow ∧ d.editor = s.editor := by
  unfold desk?
  rw [Option.map_eq_some_iff]
  constructor
  · rintro ⟨w, hw, rfl⟩
    exact ⟨hw, rfl⟩
  · rintro ⟨hw, e⟩
    exact ⟨d.workflow, hw, by rw [← e]⟩

theorem get?_keep (s : Session) (name other : String) (d : Desk) :
    (s.keep name d).workflows.get? other =
      if name = other then some d.workflow else s.workflows.get? other :=
  OrderedMap.get?_insert s.workflows name other d.workflow

theorem get?_put (s : Session) (name other : String) (w : Workflow) :
    (s.put name w).workflows.get? other =
      if name = other then some w else s.workflows.get? other :=
  OrderedMap.get?_insert s.workflows name other w

/-- An edit takes place on the desk of its workflow. -/
theorem edit_cases {α : Type} {e : Edit α} {r : Except Failure α}
    (h : s.edit name e = some (r, s')) : ∃ d d', s.desk? name = some d ∧ s' = s.keep name d' ∧
      ((∃ a, e d = .ok a d' ∧ r = .ok a) ∨ ∃ f, e d = .error f d' ∧ r = .error f) := by
  unfold edit at h
  obtain ⟨w, hw, h⟩ := Option.map_eq_some_iff.1 h
  refine ⟨⟨s.editor, w⟩, ?_⟩
  have here : s.desk? name = some ⟨s.editor, w⟩ := desk?_eq_some.2 ⟨hw, rfl⟩
  cases run : e ⟨s.editor, w⟩ with
  | ok a d' =>
    simp only [run] at h
    cases h
    exact ⟨d', here, rfl, Or.inl ⟨a, rfl, rfl⟩⟩
  | error f d' =>
    simp only [run] at h
    cases h
    exact ⟨d', here, rfl, Or.inr ⟨f, rfl, rfl⟩⟩

/-- An edit leaves the session alone if there is no such workflow, else a desk that is related to
that of the workflow. -/
theorem leave_cases {α : Type} {R : Desk → Desk → Prop} {e : Edit α} (h : Edit.Within R e)
    (s : Session) (name : String) : s.leave name e = s ∨
      ∃ d d', s.desk? name = some d ∧ R d d' ∧ s.leave name e = s.keep name d' := by
  unfold leave
  cases edited : s.edit name e with
  | none => exact Or.inl rfl
  | some result =>
    obtain ⟨r, s₁⟩ := result
    obtain ⟨d, d', here, rfl, ⟨a, run, _⟩ | ⟨f, run, _⟩⟩ := edit_cases edited
    · exact Or.inr ⟨d, d', here, h.ok run, rfl⟩
    · exact Or.inr ⟨d, d', here, h.error run, rfl⟩

/-- A workflow that is there is copied, and the copy is put under its name if it was made. -/
theorem copy_cases (s : Session) (name copyName : String) (id : WorkflowId) (title : String) :
    s.copy name copyName id title = s ∧ s.workflows.get? name = none ∨
      ∃ d d', s.desk? name = some d ∧
        ((∃ w, Edit.duplicateWorkflow s.setup id title d = .ok w d' ∧
            s.copy name copyName id title = (s.keep name d').put copyName w) ∨
          ∃ f, Edit.duplicateWorkflow s.setup id title d = .error f d' ∧
            s.copy name copyName id title = s.keep name d') := by
  unfold Session.copy duplicate
  cases edited : s.edit name (Edit.duplicateWorkflow s.setup id title) with
  | none =>
    refine Or.inl ⟨rfl, ?_⟩
    unfold edit at edited
    exact Option.map_eq_none_iff.1 edited
  | some result =>
    obtain ⟨r, s₁⟩ := result
    obtain ⟨d, d', here, rfl, ⟨w, run, rfl⟩ | ⟨f, run, rfl⟩⟩ := edit_cases edited
    · exact Or.inr ⟨d, d', here, Or.inl ⟨w, run, rfl⟩⟩
    · exact Or.inr ⟨d, d', here, Or.inr ⟨f, run, rfl⟩⟩

/-- The workflows of a session that was opened are empty. -/
theorem eq_of_opened {setup : Setup} {nodeCache : Bool}
    {shelf : List (String × WorkflowId × String)}
    (h : (opened setup nodeCache shelf).workflows.get? name = some w) :
    ∃ id title, w = { id, name := title } := by
  obtain ⟨⟨_, id, title⟩, _, same⟩ := List.mem_map.1 (OrderedMap.mem_of_get?_ofList h)
  cases same
  exact ⟨id, title, rfl⟩

end Session

end Autoflow
