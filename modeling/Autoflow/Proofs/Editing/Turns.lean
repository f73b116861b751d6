import Autoflow.Proofs.Editing.Atomicity
import Autoflow.Proofs.Editing.Commits
import Autoflow.Proofs.Editing.Numbering

/-!
# What a call turns a session into

The service is called for operations and copies, to list nodes and to keep ids apart, to put an
existing node in the place of another one, and to forget all listings. For the listings and the
store there are few ways in which such a call can go (`Session.Turn`): one workflow of the session
is edited or listed, a copy is stored under its id, or nothing is stored and no listing is new.
-/

namespace Autoflow

namespace Memo

variable {α : Type} (m : Memo α) (key other : String)

/-- To forget one listing leaves the others. -/
theorem get?_invalidate : (m.invalidate key).entries.get? other =
    if key = other then none else m.entries.get? other :=
  OrderedMap.get?_erase m.entries key other

/-- Nothing is kept that was not kept before. -/
theorem get?_of_invalidate {v : α} (h : (m.invalidate key).entries.get? other = some v) :
    m.entries.get? other = some v := by
  rw [get?_invalidate] at h
  split at h
  · cases h
  · exact h

/-- A value that is computed is kept, and no other is touched. -/
theorem get?_getOrCompute {compute v : α}
    (h : (m.getOrCompute key compute).2.2.entries.get? other = some v) :
    key = other ∧ v = compute ∨ m.entries.get? other = some v := by
  unfold getOrCompute at h
  split at h
  · split at h
    · exact Or.inr h
    · rw [OrderedMap.get?_insert] at h
      split at h
      · next same =>
        cases h
        exact Or.inl ⟨same, rfl⟩
      · exact Or.inr h
  · exact Or.inr h

/-- What is read is what is kept, or what is computed. -/
theorem getOrCompute_eq {compute : α} (h : ∀ v, m.entries.get? key = some v → v = compute) :
    (m.getOrCompute key compute).1 = compute := by
  unfold getOrCompute
  split
  · split
    · next v kept => exact h v kept
    · rfl
  · rfl

end Memo

/-! ## Copies -/

namespace Desk

/-- The workflow is as it was, and nothing is listed that was not before. -/
structure Forgets (d d' : Desk) : Prop where
  workflow : d'.workflow = d.workflow
  fewer : ∀ {key nodes}, d'.editor.listings.entries.get? key = some nodes →
    d.editor.listings.entries.get? key = some nodes

theorem Aside.forgets {d d' : Desk} (h : d.Aside d') : d.Forgets d' where
  workflow := h.workflow
  fewer kept := by
    rw [h.listings] at kept
    exact kept

/-- Two steps that list nothing new do so together. -/
theorem Forgets.trans {d d' d'' : Desk} (h : d.Forgets d') (h' : d'.Forgets d'') :
    d.Forgets d'' where
  workflow := h'.workflow.trans h.workflow
  fewer kept := h.fewer (h'.fewer kept)

end Desk

namespace Edit

open Desk

variable {env : Setup} {d d' : Desk} {id : WorkflowId} {name : String} {w : Workflow}

/-- So edits can be put together from such steps. -/
theorem forgets_bind {α β : Type} {x : Edit α} {k : α → Edit β} (hx : Within Forgets x)
    (hk : ∀ a, Within Forgets (k a)) : Within Forgets (x >>= k) :=
  Within.bind (R := Forgets) Forgets.trans hx hk

theorem forgets_of_aside {α : Type} {x : Edit α} (h : Within Aside x) : Within Forgets x :=
  h.mono Aside.forgets

/-- A save does not touch the listings, -/
theorem save_forgets (env : Setup) (w : Workflow) : Within Forgets (save env w) where
  ok {d _ _} h := by
    unfold save at h
    split at h <;> cases h
    exact ⟨rfl, fun kept => kept⟩
  error {d _ _} h := by
    unfold save at h
    split at h <;> cases h
    exact ⟨rfl, fun kept => kept⟩

/-- and the commit around it forgets that of the workflow. -/
theorem commitOf_forgets (env : Setup) (w : Workflow) : Within Forgets (commitOf env w) := by
  refine forgets_bind (.of_run (fun _ => rfl) fun d => ⟨rfl, fun {key nodes} kept => ?_⟩)
    fun _ => save_forgets env w
  exact Memo.get?_of_invalidate _ _ _ kept

/-- A copy commits another workflow than the one at hand. -/
theorem duplicateWorkflow_forgets (env : Setup) (id : WorkflowId) (name : String) :
    Within Forgets (duplicateWorkflow env id name) := by
  have stores : ∀ copy : Workflow, Within Forgets (commitOf env copy >>= fun _ => pure copy) :=
    fun copy => forgets_bind (commitOf_forgets env copy) fun _ => forgets_of_aside (aside_pure _)
  unfold duplicateWorkflow
  refine forgets_bind (forgets_of_aside aside_workflow) fun w =>
    forgets_bind ((copies_draw _ _).mono fun h => h.drew.aside.forgets) fun acc =>
    forgets_bind (forgets_of_aside (aside_check _)) fun graph => ?_
  cases w.simulateUntil with
  | none => exact stores _
  | some n =>
    exact forgets_bind (forgets_of_aside (aside_check _)) fun m =>
      forgets_bind (forgets_of_aside (aside_check _)) stores

/-- A copy that was made was stored. -/
theorem duplicateWorkflow_stores (h : duplicateWorkflow env id name d = .ok w d') :
    ∃ d₁, d.Aside d₁ ∧ d₁.stored w = d' := by
  obtain ⟨_, d₁, _, _, copies, _, _, _, _, done⟩ := duplicateWorkflow_eq_ok.1 h
  exact ⟨d₁, ((copies_draw _ _).ok copies).drew.aside, done⟩

/-- The nodes of a copy are kept under their ids. -/
theorem duplicateWorkflow_keyed (keyed : d.workflow.Keyed)
    (h : duplicateWorkflow env id name d = .ok w d') : w.Keyed := by
  obtain ⟨acc, d₁, g, mark, copies, _, _, rfl, _⟩ := duplicateWorkflow_eq_ok.1 h
  obtain ⟨numbered, _⟩ := numbered_values keyed copies
  intro n node live
  obtain ⟨_, _, _, _, made⟩ := (numbered.nodes n node).1 live
  obtain ⟨_, _, _, _, rfl⟩ := Node.copied_eq_some.1 made
  rfl

end Edit

namespace Desk

/-- The desk after the nodes of the workflow were listed. -/
def listed (d : Desk) : Desk :=
  { d with
    editor := { d.editor with
      listings := (d.editor.listings.getOrCompute (Editor.listingKey d.workflow.id)
        d.workflow.nodes.values).2.2 } }

end Desk

/-! ## Calls -/

/-- No two workflows have the same id. -/
def Distinct (workflows : OrderedMap String Workflow) : Prop :=
  (workflows.toList.map fun p => p.2.id).Nodup

instance (workflows : OrderedMap String Workflow) : Decidable (Distinct workflows) :=
  inferInstanceAs (Decidable (List.Nodup _))

/-- Two names with one id stand for the same workflow. -/
theorem Distinct.eq {workflows : OrderedMap String Workflow} (distinct : Distinct workflows)
    {name other : String} {w w' : Workflow} (h : workflows.get? name = some w)
    (h' : workflows.get? other = some w') (same : w.id = w'.id) : name = other ∧ w = w' :=
  Prod.mk.inj (List.inj_on_of_nodup_map distinct (OrderedMap.mem_of_get? h)
    (OrderedMap.mem_of_get? h') same)

namespace Session

/-- What can be called on the service for the workflows of a session. -/
inductive Call where
  | step (step : Step)
  /-- To put a node that exists already in the place of a node. -/
  | reuse (name : String) (n : NodeId) (typeName : String) (existing : Node)
    (actor : Option String)
  /-- To forget all listings. -/
  | clear

/-- The session after all listings were forgotten. -/
def cleared (s : Session) : Session :=
  s.modifyEditor fun e => { e with listings := e.listings.clear }

/-- The session after a call, whether it succeeded or not. -/
def call (s : Session) : Call → Session
  | .step step => s.after step
  | .reuse name n typeName existing actor =>
    s.leave name (Edit.replace s.setup n typeName (some existing) actor)
  | .clear => s.cleared

/-- The session after several calls. -/
def process (s : Session) (calls : List Call) : Session := calls.foldl call s

/-- What a call can turn a session into. -/
inductive Turn (s : Session) : Session → Prop where
  | stayed : Turn s s
  | ended {name : String} {d d' : Desk} (here : s.desk? name = some d)
    (h : d.Ending s.setup d') : Turn s (s.keep name d')
  | listed {name : String} {d : Desk} (here : s.desk? name = some d) : Turn s (s.keep name d.listed)
  | cleared : Turn s s.cleared
  | copied {name copyName : String} {d d₁ : Desk} {w : Workflow} (here : s.desk? name = some d)
    (keyed : d.workflow.Keyed → w.Keyed) (aside : d.Aside d₁) :
    Turn s ((s.keep name (d₁.stored w)).put copyName w)
  | uncopied {name : String} {d d' : Desk} (here : s.desk? name = some d) (forgets : d.Forgets d')
    (blobs : d'.editor.store.blobs = d.editor.store.blobs) : Turn s (s.keep name d')

variable (s : Session)

/-- An edit that ends in one of the three ways turns a session. -/
theorem leave_turn {α : Type} {e : Edit α} (h : Edit.Within (Desk.Ending s.setup) e)
    (name : String) : s.Turn (s.leave name e) := by
  rcases leave_cases h s name with same | ⟨d, d', here, ending, same⟩
  · rw [same]
    exact .stayed
  · rw [same]
    exact .ended here ending

/-- A listing is a turn of the session, -/
theorem list_turn (name : String) : s.Turn (s.leave name Edit.listNodes) := by
  have lists : Edit.Within (fun d d' => d' = d.listed) Edit.listNodes :=
    .of_run (fun _ => rfl) fun _ => rfl
  rcases leave_cases lists s name with same | ⟨d, d', here, rfl, same⟩
  · rw [same]
    exact .stayed
  · rw [same]
    exact .listed here

/-- and so is a copy. -/
theorem copy_turn (name copyName : String) (id : WorkflowId) (title : String) :
    s.Turn (s.copy name copyName id title) := by
  rcases copy_cases s name copyName id title with ⟨same, _⟩ | ⟨d, d', here, outcome⟩
  · rw [same]
    exact .stayed
  rcases outcome with ⟨w, run, after⟩ | ⟨f, run, after⟩
  · rw [after]
    obtain ⟨d₁, aside, rfl⟩ := Edit.duplicateWorkflow_stores run
    exact .copied here (fun keyed => Edit.duplicateWorkflow_keyed keyed run) aside
  · rw [after]
    refine .uncopied here ((Edit.duplicateWorkflow_forgets s.setup id title).error run) ?_
    rcases Edit.duplicateWorkflow_failsCleanly s.setup id title f d' run with drew | ⟨_, refused⟩
    · rw [drew.store]
    · rw [refused]
      rfl

/-- Every call turns a session in one of these ways. -/
theorem call_turn (call : Call) : s.Turn (s.call call) := by
  cases call with
  | step step =>
    cases step with
    | operate name o => exact s.leave_turn (o.ends s.setup) name
    | copy name copyName id title => exact s.copy_turn name copyName id title
    | list name => exact s.list_turn name
    | reserve name => exact s.leave_turn (Edit.aside_reserveIds.mono Desk.Aside.ending) name
  | reuse name n typeName existing actor =>
    exact s.leave_turn (Edit.replace_ends s.setup n typeName (some existing) actor) name
  | clear => exact .cleared

end Session

end Autoflow
