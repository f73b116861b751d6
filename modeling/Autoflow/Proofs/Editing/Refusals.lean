import Autoflow.Proofs.Editing.Sessions

/-!
# Refused saves

An edit saves last. Run with its saves refused it goes as it does with all of them accepted, up to
the save, so it leaves the workflow and the trash as a success would have, and returns the failure
of the save (`Operation.refused`). Only what was to leave the trash after the save is still there.
So a refused edit is not undone: what is in memory and what is stored differ from then on.

The two runs are compared step by step. `Alongside` relates their results, with a rule for a step
that does not save (`SavesLast.bind`) and one for the save (`SavesLast.commitOf`).
-/

namespace Autoflow

/-- The same setup with every save accepted. -/
def Setup.unfailing (env : Setup) : Setup := { env with saveFault := fun _ => none }

/-- It accepts every save. -/
theorem Setup.accepting_unfailing (env : Setup) : env.unfailing.Accepting := fun _ => rfl

namespace Desk

/-- A desk that an edit left from `d` when its save was refused, beside the desk `d'` that the edit
would have left had it been accepted. -/
structure Refused (env : Setup) (leftover : Option NodeId) (d d' d'' : Desk) (f : Failure) :
    Prop where
  fault : env.saveFault (d.editor.store.attempts + 1) = some f
  store : d''.editor.store = d.editor.store.refuse
  workflow : d''.workflow = d'.workflow
  trash : ∀ n, d''.editor.trash.get? n =
    if leftover = some n then d.editor.trash.get? n else d'.editor.trash.get? n
  nextId : d''.editor.nextId = d'.editor.nextId

/-- The result of an edit that started from a desk, with every save accepted, and its result with
saves refused. They differ if the edit came to a save and that was refused. -/
inductive Alongside {α : Type} (env : Setup) (leftover : Option NodeId) (d : Desk) :
    EStateM.Result Failure Desk α → EStateM.Result Failure Desk α → Prop where
  | done {a : α} {d' : Desk} (quiet : d'.editor.store = d.editor.store) :
    Alongside env leftover d (.ok a d') (.ok a d')
  | failed {f : Failure} {d' : Desk} (quiet : d'.editor.store = d.editor.store) :
    Alongside env leftover d (.error f d') (.error f d')
  | saved {r : EStateM.Result Failure Desk α}
    (free : env.saveFault (d.editor.store.attempts + 1) = none) : Alongside env leftover d r r
  | refused {a : α} {d' d'' : Desk} {f : Failure} (h : Refused env leftover d d' d'' f) :
    Alongside env leftover d (.ok a d') (.error f d'')

end Desk

namespace Edit

open Desk (Aside Alongside Refused)

/-- The store is as it was. -/
abbrev SameStore (d d' : Desk) : Prop := d'.editor.store = d.editor.store

/-- An edit that does not touch the store. -/
abbrev Quiet {α : Type} (x : Edit α) : Prop := Within SameStore x

/-- The first edit goes as the second one, up to the save, with every save accepted. -/
def SavesLast {α : Type} (env : Setup) (leftover : Option NodeId) (x y : Edit α) : Prop :=
  ∀ d, Alongside env leftover d (x d) (y d)

variable {α β ε : Type} {env : Setup} {leftover : Option NodeId}

/-- An edit that saves last does the same if the save is accepted. -/
theorem SavesLast.eq_ok {x y : Edit α} {d d' : Desk} {a : α} (h : SavesLast env leftover x y)
    (run : y d = .ok a d') : x d = .ok a d' := by
  have beside := h d
  rw [run] at beside
  generalize x d = result at beside ⊢
  cases beside with
  | done | saved => rfl

/-! ## Steps that do not save -/

/-- Steps that only change the trash and the counters do not touch the store. -/
theorem Quiet.of_aside {x : Edit α} (h : Within Aside x) : Quiet x := h.mono Aside.store

/-- Two quiet edits in a row are quiet. -/
theorem Quiet.bind {x : Edit α} {k : α → Edit β} (hx : Quiet x) (hk : ∀ a, Quiet (k a)) :
    Quiet (x >>= k) := Within.bind (fun h h' => h'.trans h) hx hk

theorem quiet_pure (a : α) : Quiet (pure a : Edit α) := .of_aside (aside_pure a)

theorem quiet_check [Fault ε] (r : Except ε α) : Quiet (check r) := .of_aside (aside_check r)

theorem quiet_workflow : Quiet workflow := .of_aside aside_workflow

theorem quiet_editor : Quiet editor := .of_aside aside_editor

/-- Changing the workflow at hand saves nothing by itself, -/
theorem quiet_modifyWorkflow (change : Workflow → Workflow) : Quiet (modifyWorkflow change) :=
  .of_run (fun _ => rfl) fun _ => rfl

/-- and neither does changing its graph. -/
theorem quiet_onGraph (e : Graph.Edit Unit) : Quiet (onGraph e) where
  ok {d _ _} h := by
    unfold onGraph at h
    cases run : e d.workflow.graph <;> rw [run] at h <;> cases h
    rfl
  error {d _ _} h := by
    unfold onGraph at h
    cases run : e d.workflow.graph <;> rw [run] at h <;> cases h
    rfl

theorem quiet_throwAway (e : TrashEntry) : Quiet (throwAway e) := .of_aside (aside_throwAway e)

theorem quiet_takeBack (n : NodeId) (managed : Bool) : Quiet (takeBack n managed) :=
  .of_aside (aside_takeBack n managed)

theorem quiet_nextBranch (env : Setup) : Quiet (nextBranch env) := .of_aside (aside_nextBranch env)

theorem quiet_countBranch (needed : Bool) : Quiet (countBranch needed) :=
  .of_aside (aside_countBranch needed)

theorem quiet_forgetListing (id : WorkflowId) : Quiet (forgetListing id) :=
  .of_run (fun _ => rfl) fun _ => rfl

theorem quiet_newNode (type : NodeType) (label : String) (config : Json) (w : WorkflowId) :
    Quiet (newNode type label config w) := .of_aside (aside_newNode type label config w)

/-! ## Rules -/

/-- An edit that saves nothing goes the same way with and without refusals. -/
theorem SavesLast.of_quiet {x : Edit α} (quiet : Quiet x) : SavesLast env leftover x x := by
  intro d
  cases run : x d with
  | ok a d' => exact .done (quiet.ok run)
  | error f d' => exact .failed (quiet.error run)

/-- What happened before the save without touching the store does not matter to it. -/
theorem alongside_of_store {d d₁ : Desk} {r r' : EStateM.Result Failure Desk α}
    (same : d₁.editor.store = d.editor.store) (h : Alongside env none d₁ r r') :
    Alongside env none d r r' := by
  cases h with
  | done quiet => exact .done (quiet.trans same)
  | failed quiet => exact .failed (quiet.trans same)
  | saved free =>
    rw [same] at free
    exact .saved free
  | refused h =>
    have fault := h.fault
    have store := h.store
    rw [same] at fault store
    exact .refused ⟨fault, store, h.workflow, h.trash, h.nextId⟩

/-- A step that does not save comes first. -/
theorem SavesLast.bind {x : Edit α} {k k' : α → Edit β} (quiet : Quiet x)
    (rest : ∀ a, SavesLast env none (k a) (k' a)) : SavesLast env none (x >>= k) (x >>= k') := by
  intro d
  change Alongside env none d (EStateM.bind x k d) (EStateM.bind x k' d)
  unfold EStateM.bind
  cases run : x d with
  | error f d₁ => exact .failed (quiet.error run)
  | ok a d₁ => exact alongside_of_store (quiet.ok run) (rest a d₁)

/-- A case distinction does not look at saves. -/
theorem SavesLast.ite {c : Prop} [Decidable c] {x x' y y' : Edit α}
    (yes : SavesLast env none x x') (no : SavesLast env none y y') :
    SavesLast env none (if c then x else y) (if c then x' else y') := by
  split
  · exact yes
  · exact no

/-- A step that does not save comes last. After a refusal it is not done any more, so it has to
succeed, and what is left over has to make up for what it does. -/
theorem alongside_bind {x x' : Edit α} {k : α → Edit β} {d : Desk} {leftover' : Option NodeId}
    (h : Alongside env leftover d (x d) (x' d)) (quiet : ∀ a, Quiet (k a))
    (refused : ∀ {a d' d'' f}, x d = .ok a d' → Refused env leftover d d' d'' f →
      ∃ b d₁, k a d' = .ok b d₁ ∧ Refused env leftover' d d₁ d'' f) :
    Alongside env leftover' d ((x >>= k) d) ((x' >>= k) d) := by
  change Alongside env leftover' d (EStateM.bind x k d) (EStateM.bind x' k d)
  unfold EStateM.bind
  generalize x d = r at h refused ⊢
  generalize x' d = r' at h ⊢
  cases h with
  | @done a d' same =>
    simp only
    cases rest : k a d' with
    | ok b d₁ => exact .done (((quiet a).ok rest).trans same)
    | error f d₁ => exact .failed (((quiet a).error rest).trans same)
  | failed same => exact .failed same
  | saved free => exact .saved free
  | refused h =>
    obtain ⟨b, d₁, rest, h⟩ := refused rfl h
    simp only [rest]
    exact .refused h

/-- The result of an edit is only looked at. -/
theorem SavesLast.map {x x' : Edit α} (g : α → β) (h : SavesLast env leftover x x') :
    SavesLast env leftover (x >>= fun a => pure (g a)) (x' >>= fun a => pure (g a)) :=
  fun d => alongside_bind (h d) (fun _ => quiet_pure _) fun _ refused => ⟨_, _, rfl, refused⟩

/-- A save is the point from which the two ways may differ. -/
theorem SavesLast.commitOf (env : Setup) (w : Workflow) :
    SavesLast env none (commitOf env.unfailing w) (commitOf env w) := by
  refine .bind (quiet_forgetListing w.id) fun _ d => ?_
  have accepted : save env.unfailing w d = .ok () { d with
      editor := { d.editor with store := d.editor.store.save w.id w.graph.toBlob } } := rfl
  rw [accepted]
  unfold save
  cases fault : env.saveFault (d.editor.store.attempts + 1) with
  | none => exact .saved fault
  | some f => exact .refused ⟨fault, rfl, rfl, fun _ => rfl, rfl⟩

theorem SavesLast.commit (env : Setup) : SavesLast env none (commit env.unfailing) (commit env) :=
  .bind quiet_workflow (SavesLast.commitOf env)

/-! ## One lemma for each edit -/

section Edits

variable (env : Setup) (n : NodeId)

/-- The operations save last, here a creation: checks, the draw of the id, the insertion, the
save. -/
theorem create_savesLast (typeName : String) (values : NodeValues) (p : Position) :
    SavesLast env none (create env.unfailing typeName values p) (create env typeName values p) := by
  unfold create
  exact .bind quiet_workflow fun w => .bind (quiet_check _) fun type =>
    .bind (quiet_check _) fun reference => .bind (quiet_check _) fun _ =>
    .bind (quiet_check _) fun _ => .bind (quiet_nextBranch env) fun uid =>
    .bind (quiet_newNode ..) fun node => .bind (quiet_onGraph _) fun _ =>
    .bind (quiet_modifyWorkflow _) fun _ => .bind (quiet_countBranch _) fun _ =>
    .map _ (.commit env)

/-- A deletion throws the node away before the save. -/
theorem delete_savesLast (actor : Option String) :
    SavesLast env none (delete env.unfailing n actor) (delete env n actor) := by
  unfold delete
  exact .bind quiet_workflow fun w => .bind (quiet_check _) fun node =>
    .bind (quiet_check _) fun type => .bind (quiet_check _) fun _ =>
    .bind (quiet_check _) fun position => .bind (quiet_check _) fun graph =>
    .bind (quiet_throwAway _) fun _ => .bind (quiet_modifyWorkflow _) fun _ =>
    .map _ (.commit env)

/-- A restored node leaves the trash before the save. -/
theorem restore_savesLast : SavesLast env none (restore env.unfailing n) (restore env n) := by
  unfold restore
  exact .bind quiet_workflow fun w => .bind quiet_editor fun e => .bind (quiet_check _) fun entry =>
    .bind (quiet_check _) fun p => .bind (quiet_check _) fun _ =>
    .bind (quiet_takeBack n false) fun entry => .bind (quiet_onGraph _) fun _ =>
    .bind (quiet_modifyWorkflow _) fun _ => .map _ (.commit env)

/-- A duplicate is placed behind the node before the save. -/
theorem duplicate_savesLast : SavesLast env none (duplicate env.unfailing n) (duplicate env n) := by
  unfold duplicate
  exact .bind quiet_workflow fun w => .bind (quiet_check _) fun source =>
    .bind (quiet_check _) fun type => .bind (quiet_check _) fun _ =>
    .bind (quiet_newNode ..) fun copy => .bind (quiet_onGraph _) fun _ =>
    .bind (quiet_modifyWorkflow _) fun _ => .map _ (.commit env)

theorem quiet_replacement (w : Workflow) (old : Node) (typeName : String) :
    Quiet (replacement env w old typeName) := .of_aside (aside_replacement env w old typeName)

/-- A replacement has both nodes changed and the old one thrown away before the save. -/
theorem replace_savesLast (typeName : String) (existing : Option Node) (actor : Option String) :
    SavesLast env none (replace env.unfailing n typeName existing actor)
      (replace env n typeName existing actor) := by
  unfold replace
  refine .bind quiet_workflow fun w => .bind (quiet_check _) fun old => ?_
  cases existing with
  | some node =>
    exact .bind (quiet_pure _) fun choice => .bind (quiet_check _) fun position =>
      .bind (quiet_check _) fun graph => .bind (quiet_throwAway _) fun _ =>
      .bind (quiet_modifyWorkflow _) fun _ => .bind (quiet_countBranch _) fun _ =>
      .map _ (.commit env)
  | none =>
    exact .bind (quiet_replacement env w old typeName) fun choice =>
      .bind (quiet_check _) fun position => .bind (quiet_check _) fun graph =>
      .bind (quiet_throwAway _) fun _ => .bind (quiet_modifyWorkflow _) fun _ =>
      .bind (quiet_countBranch _) fun _ => .map _ (.commit env)

/-- The node that comes back leaves the trash after the save. -/
theorem restoreReplaced_savesLast (trashed : NodeId) :
    SavesLast env (some trashed) (restoreReplaced env.unfailing n trashed)
      (restoreReplaced env n trashed) := by
  intro d
  unfold restoreReplaced
  rw [editor_bind, editor_bind]
  cases he : d.editor.trash.require trashed with
  | error f => exact .failed rfl
  | ok entry =>
    rw [check_ok_bind, check_ok_bind]
    have there := trashed_eq_ok.1 he
    have swap := replace_savesLast env n entry.node.typeName (some entry.node) none d
    have back : Alongside env (some trashed) d _ _ := alongside_bind swap
      (fun r => (quiet_takeBack trashed true).bind fun _ => quiet_pure r)
      fun {r d' d'' f} run refused => by
        have kept := get?_trash_of_replace env.accepting_unfailing run there
        refine ⟨r, takenBack d' trashed, by rw [takeBack_bind kept fun _ => rfl]; rfl,
          ⟨refused.fault, refused.store, refused.workflow, fun m => ?_, refused.nextId⟩⟩
        rw [refused.trash m, get?_takenBack]
        by_cases same : trashed = m
        · subst same
          simp [kept, there]
        · simp [same]
    cases entry.isManaged with
    | false =>
      simp only [Bool.not_false, if_true]
      exact .failed rfl
    | true =>
      simp only [Bool.not_true, Bool.false_eq_true, if_false]
      exact back

/-- A move saves what it has moved. -/
theorem move_savesLast (p : Position) :
    SavesLast env none (move env.unfailing n p) (move env n p) := by
  unfold move
  refine .bind quiet_workflow fun w => .bind (quiet_check _) fun node =>
    .bind (quiet_check _) fun type => .bind (quiet_check _) fun reference =>
    .bind (quiet_check _) fun _ => ?_
  have rest : SavesLast env none
      (check (w.checkMove type.kind node reference) >>= fun _ =>
        check (w.graph.position n) >>= fun origin => onGraph (Graph.move n p) >>= fun _ =>
        commit env.unfailing >>= fun _ => pure (MovedNode.mk n origin p))
      (check (w.checkMove type.kind node reference) >>= fun _ =>
        check (w.graph.position n) >>= fun origin => onGraph (Graph.move n p) >>= fun _ =>
        commit env >>= fun _ => pure (MovedNode.mk n origin p)) :=
    .bind (quiet_check _) fun _ => .bind (quiet_check _) fun origin =>
      .bind (quiet_onGraph _) fun _ => .map _ (.commit env)
  exact .ite (.bind (quiet_check _) fun _ => rest) rest

/-- An update saves nothing, so it cannot be refused. -/
theorem quiet_update (values : NodeValues) : Quiet (update env n values) := by
  unfold update
  refine quiet_workflow.bind fun w => (quiet_check _).bind fun node =>
    (quiet_check _).bind fun type => ?_
  cases values.service with
  | none =>
    exact (quiet_pure _).bind fun _ => (quiet_modifyWorkflow _).bind fun _ =>
      (quiet_forgetListing _).bind fun _ => quiet_pure _
  | some config =>
    exact (quiet_check _).bind fun service => (quiet_check _).bind fun _ =>
      (quiet_pure _).bind fun _ => (quiet_modifyWorkflow _).bind fun _ =>
      (quiet_forgetListing _).bind fun _ => quiet_pure _

theorem quiet_simulate (m : Option NodeId) : Quiet (simulate m) := by
  unfold simulate
  exact quiet_workflow.bind fun w => (quiet_check _).bind fun w => quiet_modifyWorkflow _

end Edits

end Edit

namespace Operation

/-- Everything that can be asked for saves last. -/
theorem savesLast (o : Operation) (env : Setup) :
    Edit.SavesLast env o.leftover (o.perform env.unfailing) (o.perform env) := by
  refine Operation.induct (P := fun leftover x => ∀ env : Setup,
    Edit.SavesLast env leftover (x env.unfailing) (x env)) ?_ ?_ ?_ ?_ ?_ ?_ ?_ ?_ ?_ ?_ ?_ o env
  · exact fun a env => .of_quiet (Edit.quiet_pure a)
  · exact fun g h env => .map g (h env)
  · exact fun typeName values p env => Edit.create_savesLast env typeName values p
  · exact fun n values env => .of_quiet (Edit.quiet_update env n values)
  · exact fun n actor env => Edit.delete_savesLast env n actor
  · exact fun n env => Edit.restore_savesLast env n
  · exact fun n env => Edit.duplicate_savesLast env n
  · exact fun n typeName actor env => Edit.replace_savesLast env n typeName none actor
  · exact fun n trashed env => Edit.restoreReplaced_savesLast env n trashed
  · exact fun n p env => Edit.move_savesLast env n p
  · exact fun m env => .of_quiet (Edit.quiet_simulate m)

/-- When the save is refused, an operation that would have succeeded fails with the failure of the
save. It leaves the workflow as its success would have left it and the store as it was before. So
it leaves the trash, but for a node that was to come out of it after the save. -/
theorem refused {env : Setup} {o : Operation} {d d' : Desk} {made : Option NodeId} {f : Failure}
    (done : o.perform env.unfailing d = .ok made d') (saves : d'.editor.store ≠ d.editor.store)
    (refusal : env.saveFault (d.editor.store.attempts + 1) = some f) :
    ∃ d'', o.perform env d = .error f d'' ∧ Desk.Refused env o.leftover d d' d'' f := by
  have runs := o.savesLast env d
  rw [done] at runs
  generalize o.perform env d = r at runs
  cases runs with
  | done quiet => exact absurd quiet saves
  | saved free =>
    rw [free] at refusal
    cases refusal
  | @refused _ _ d'' g h =>
    have same : some g = some f := h.fault.symm.trans refusal
    cases same
    exact ⟨d'', rfl, h⟩

/-- The builtin types, with the first save refused. -/
def refusing : Setup :=
  { Setup.builtin fun _ => "branch" with
    saveFault := fun n => if n = 1 then some (.configuration "save refused") else none }

/-- The trigger of an empty workflow is live although nothing was saved. -/
theorem refused_create : ∃ d'', (request (.create "periodic" {} .root)).perform refusing
      (.start true 1 "Main") = .error (.configuration "save refused") d'' ∧
    d''.workflow.nodes.ids = [1] ∧ d''.editor.store.blobs = .empty := by
  obtain ⟨d'', fails, h⟩ := @refused refusing (request (.create "periodic" {} .root))
    (.start true 1 "Main") _ _ _ rfl (fun e => absurd (congrArg Store.attempts e) (by decide)) rfl
  refine ⟨d'', fails, ?_, ?_⟩
  · rw [h.workflow]
    decide +kernel
  · rw [h.store]
    rfl

/-- The workflow is not as it was before, and the request is refused for another reason when saves
are accepted again. -/
theorem refused_create_again : ∃ d' d'', (request (.create "periodic" {} .root)).perform refusing
      (.start true 1 "Main") = .error (.configuration "save refused") d' ∧
    d'.workflow.nodes.ids ≠ (Desk.start true 1 "Main").workflow.nodes.ids ∧
    (request (.create "periodic" {} .root)).perform refusing d' =
      .error (.node .triggerAlreadyExists) d'' :=
  ⟨_, _, rfl, by decide +kernel, rfl⟩

end Operation

end Autoflow
