import Autoflow.Proofs.Editing.Copies

/-!
# Failures leave nothing behind

In every state that a session reaches, whatever was asked of it and whether saves were refused or
not, an operation that fails leaves nothing behind but the ids that it drew, and so does a copy
of a workflow. The only other failure is that of a save that was refused
(`Session.run_fails_cleanly`). What it takes is that all nodes are filed, which every step keeps.
-/

namespace Autoflow

open Desk

namespace Edit

/-- An edit that fails leaves nothing behind but the ids that it drew, unless its failure is that
of a save that was refused. -/
def FailsCleanly {α : Type} (env : Setup) (d : Desk) (x : Edit α) : Prop :=
  ∀ f d', x d = .error f d' → d.Drew d' ∨
    env.saveFault (d.editor.store.attempts + 1) = some f ∧
      d'.editor.store = d.editor.store.refuse

variable {α : Type} {env : Setup} {leftover : Option NodeId} {x y : Edit α} {d : Desk}

/-- An edit fails cleanly if it does so with every save accepted. -/
theorem SavesLast.failsCleanly (h : SavesLast env leftover x y)
    (clean : ∀ {f d'}, x d = .error f d' → d.Drew d') : FailsCleanly env d y := by
  intro f d' run
  have runs := h d
  rw [run] at runs
  generalize accepted : x d = r at runs
  cases runs with
  | failed quiet => exact Or.inl (clean accepted)
  | saved free => exact Or.inl (clean accepted)
  | refused h => exact Or.inr ⟨h.fault, h.store⟩

/-- What an edit keeps with every save accepted it keeps, too, if a refused save does. -/
theorem SavesLast.within {R : Desk → Desk → Prop} (h : SavesLast env leftover x y)
    (accepted : Within R x)
    (refused : ∀ {d d' d'' f}, R d d' → Refused env leftover d d' d'' f → R d d'') :
    Within R y where
  ok {d _ _} run := by
    have runs := h d
    rw [run] at runs
    generalize same : x d = r at runs
    cases runs with
    | done quiet => exact accepted.ok same
    | saved free => exact accepted.ok same
  error {d _ _} run := by
    have runs := h d
    rw [run] at runs
    generalize same : x d = r at runs
    cases runs with
    | failed quiet => exact accepted.error same
    | saved free => exact accepted.error same
    | refused h => exact refused (accepted.ok same) h

end Edit

namespace Desk

/-- If the nodes of a desk are filed, so are those of another one. -/
def KeepsFiled (d d' : Desk) : Prop := d.Filed → d'.Filed

variable {env : Setup} {leftover : Option NodeId} {d d' d'' : Desk} {f : Failure}

/-- Only the workflow and the trash decide whether nodes are filed. -/
theorem Filed.of_eq (filed : d.Filed) (workflow : d'.workflow = d.workflow)
    (trash : d'.editor.trash = d.editor.trash) : d'.Filed where
  workflow := by
    rw [workflow]
    exact filed.workflow
  trash hn := by
    rw [trash] at hn
    exact filed.trash hn

theorem Drew.keepsFiled (h : d.Drew d') : d.KeepsFiled d' := fun filed =>
  filed.of_eq h.workflow h.trash

theorem Refused.keepsFiled (h : Refused env leftover d d' d'' f) (accepted : d.KeepsFiled d') :
    d.KeepsFiled d'' := by
  intro filed
  refine ⟨?_, fun {n node} hn => ?_⟩
  · rw [h.workflow]
    exact (accepted filed).workflow
  · unfold Trash.node? at hn
    rw [h.trash n] at hn
    split at hn
    · exact filed.trash hn
    · exact (accepted filed).trash hn

end Desk

namespace Operation

/-- An operation that fails with every save accepted leaves nothing behind. -/
theorem idle_of_error (o : Operation) {env : Setup} (accepting : env.Accepting) {d d' : Desk}
    (filed : d.Filed) {f : Failure} (h : o.perform env d = .error f d') : d.Idle d' := by
  have held : ∀ r, r ∈ d.workflow.nodes.ids → r ∈ d.workflow.graph.ids := fun r =>
    (filed.workflow.ids r).2
  refine Operation.induct (P := fun _ x => ∀ f d', x env d = .error f d' → d.Idle d')
    ?_ ?_ ?_ ?_ ?_ ?_ ?_ ?_ ?_ ?_ ?_ o f d' h
  · exact fun a f d' h => absurd h Edit.pure_ne_error
  · exact fun g ih f d' h => ih f d' (Edit.map_eq_error.1 h)
  · exact fun _ _ _ _ _ h => Edit.create_error accepting h
  · exact fun _ _ _ _ h => Edit.update_error h
  · exact fun _ _ _ _ h => Edit.delete_error accepting h
  · exact fun _ _ _ h => Edit.restore_error accepting held h
  · exact fun _ _ _ h => Edit.duplicate_error accepting h
  · exact fun _ _ _ _ _ h => Edit.replace_error accepting h
  · exact fun _ _ _ _ h => Edit.restoreReplaced_error accepting h
  · exact fun _ _ _ _ h => Edit.move_error accepting h
  · exact fun _ _ _ h => Edit.simulate_error h

variable (o : Operation) (env : Setup) {d : Desk}

theorem failsCleanly (filed : d.Filed) : Edit.FailsCleanly env d (o.perform env) :=
  (o.savesLast env).failsCleanly fun h => (o.idle_of_error env.accepting_unfailing filed h).drew

/-- However an operation ends, nodes that are filed stay so. -/
theorem keepsFiled : Edit.Within KeepsFiled (o.perform env) := by
  refine (o.savesLast env).within ⟨fun run filed => ?_, fun run filed => ?_⟩
    fun accepted refused => refused.keepsFiled accepted
  · obtain ⟨_, _, _, exchange⟩ := o.exchange env.accepting_unfailing filed run
    exact exchange.filed filed
  · exact (o.idle_of_error env.accepting_unfailing filed run).drew.keepsFiled filed

end Operation

namespace Edit

variable (env : Setup) (id : WorkflowId) (name : String) {d : Desk}

theorem duplicateWorkflow_failsCleanly : FailsCleanly env d (duplicateWorkflow env id name) :=
  (duplicateWorkflow_savesLast env id name).failsCleanly
    fun h => (duplicateWorkflow_error env.accepting_unfailing h).drew

/-- A copy that was made is filed, too. -/
theorem duplicateWorkflow_filed {d d' : Desk} {w : Workflow} (filed : d.Filed)
    (h : duplicateWorkflow env id name d = .ok w d') : w.Filed := by
  have runs := duplicateWorkflow_savesLast env id name d
  rw [h] at runs
  generalize same : duplicateWorkflow env.unfailing id name d = r at runs
  cases runs with
  | done quiet => exact (duplicateWorkflow_ok filed.workflow same).1
  | saved free => exact (duplicateWorkflow_ok filed.workflow same).1

theorem duplicateWorkflow_keepsFiled : Within KeepsFiled (duplicateWorkflow env id name) := by
  refine (duplicateWorkflow_savesLast env id name).within
    ⟨fun {d _ d'} run filed => ?_, fun run filed => ?_⟩
    fun accepted refused => refused.keepsFiled accepted
  · obtain ⟨_, workflow, trash⟩ :=
      duplicateWorkflow_ok filed.workflow run
    exact filed.of_eq workflow trash
  · exact (duplicateWorkflow_error env.accepting_unfailing run).drew.keepsFiled filed

end Edit

namespace Session

/-- The nodes of all workflows and of the trash are kept under their ids. -/
structure Filed (s : Session) : Prop where
  workflows : ∀ {name w}, s.workflows.get? name = some w → w.Filed
  trash : ∀ {n node}, s.editor.trash.node? n = some node → node.id = n

variable {s s' : Session} {name : String} {d d' : Desk}

theorem Filed.desk (filed : s.Filed) (here : s.desk? name = some d) : d.Filed := by
  obtain ⟨hw, editor⟩ := desk?_eq_some.1 here
  exact ⟨filed.workflows hw, fun hn => filed.trash (editor ▸ hn)⟩

theorem Filed.keep (filed : s.Filed) (name : String) (h : d.Filed) : (s.keep name d).Filed where
  workflows {other w} hw := by
    rw [get?_keep] at hw
    split at hw
    · cases hw
      exact h.workflow
    · exact filed.workflows hw
  trash := h.trash

theorem Filed.put {w : Workflow} (filed : s.Filed) (name : String) (h : w.Filed) :
    (s.put name w).Filed where
  workflows {other w'} hw := by
    rw [get?_put] at hw
    split at hw
    · cases hw
      exact h
    · exact filed.workflows hw
  trash := filed.trash

theorem filed_opened (setup : Setup) (nodeCache : Bool)
    (shelf : List (String × WorkflowId × String)) : (opened setup nodeCache shelf).Filed where
  workflows hw := by
    obtain ⟨id, title, rfl⟩ := eq_of_opened hw
    exact ⟨nofun, fun n => Iff.rfl⟩
  trash := nofun

/-- The nodes stay filed in the session after an edit that keeps them so. -/
theorem Filed.edit {α : Type} {e : Edit α} {r : Except Failure α} (filed : s.Filed)
    (keeps : Edit.Within KeepsFiled e) (h : s.edit name e = some (r, s')) : s'.Filed := by
  obtain ⟨d, d', here, rfl, ⟨a, run, _⟩ | ⟨f, run, _⟩⟩ := edit_cases h
  · exact filed.keep name (keeps.ok run (filed.desk here))
  · exact filed.keep name (keeps.error run (filed.desk here))

theorem Filed.leave {α : Type} {e : Edit α} (filed : s.Filed) (name : String)
    (keeps : Edit.Within KeepsFiled e) : (s.leave name e).Filed := by
  unfold Session.leave
  cases h : s.edit name e with
  | none => exact filed
  | some result => exact filed.edit keeps h

theorem Filed.copy (filed : s.Filed) (name copyName : String) (id : WorkflowId) (title : String) :
    (s.copy name copyName id title).Filed := by
  unfold Session.copy
  cases h : s.duplicate name copyName id title with
  | none => exact filed
  | some result =>
    unfold duplicate at h
    obtain ⟨⟨r, s₁⟩, edited, h⟩ := Option.map_eq_some_iff.1 h
    have kept := filed.edit (Edit.duplicateWorkflow_keepsFiled s.setup id title) edited
    cases r with
    | error f =>
      cases h
      exact kept
    | ok w =>
      cases h
      obtain ⟨d, d', here, _, ⟨a, run, same⟩ | ⟨f, run, same⟩⟩ := edit_cases edited
      · cases same
        exact kept.put copyName (Edit.duplicateWorkflow_filed s.setup id title
          (filed.desk here) run)
      · cases same

/-- Every step keeps the nodes filed. -/
theorem Filed.after (filed : s.Filed) (step : Step) : (s.after step).Filed := by
  cases step with
  | operate name o => exact filed.leave name (o.keepsFiled s.setup)
  | copy name copyName id title => exact filed.copy name copyName id title
  | list name =>
    refine filed.leave name ⟨fun run filed => ?_, fun run => ?_⟩
    · cases run
      exact filed.of_eq rfl rfl
    · cases run
  | reserve name =>
    refine filed.leave name ⟨fun run filed => ?_, fun run => ?_⟩
    · cases run
      exact filed.of_eq rfl rfl
    · cases run

theorem Filed.run (filed : s.Filed) (steps : List Step) : (s.run steps).Filed := by
  induction steps generalizing s with
  | nil => exact filed
  | cons step steps ih => exact ih (filed.after step)

/-- In every state that a session reaches from empty workflows, an operation on one of them that
fails, and a copy of it that fails, leave nothing behind but the ids that were drawn, unless the
failure is that of a save that was refused. -/
theorem run_fails_cleanly (setup : Setup) (nodeCache : Bool)
    (shelf : List (String × WorkflowId × String)) (steps : List Step)
    (here : ((opened setup nodeCache shelf).run steps).desk? name = some d) :
    (∀ o : Operation, Edit.FailsCleanly setup d (o.perform setup)) ∧
      ∀ id title, Edit.FailsCleanly setup d (Edit.duplicateWorkflow setup id title) := by
  have filed := ((filed_opened setup nodeCache shelf).run steps).desk here
  exact ⟨fun o => o.failsCleanly setup filed, fun id title =>
    Edit.duplicateWorkflow_failsCleanly setup id title⟩

/-- A chain of three nodes of which the last two were deleted, in this order. -/
def emptied : List Step := [
  .operate "main" (.request (.create "periodic" {} .root)),
  .operate "main" (.request (.create "create_row" {} (.south 1 ""))),
  .operate "main" (.request (.create "create_row" {} (.south 2 ""))),
  .operate "main" (.request (.delete 3 none)), .operate "main" (.request (.delete 2 none))]

/-- The last node cannot come back without the one before it, and it stays in the trash. -/
theorem run_fails_cleanly_restore : ∃ d d',
    ((opened (.builtin fun _ => "branch") true [("main", 1, "Main")]).run emptied).desk? "main" =
      some d ∧
    (Operation.restore 3).perform (.builtin fun _ => "branch") d =
      .error (.trash (.restorationDisallowed
        "This automation node cannot be restored as its reference node has been deleted.")) d' ∧
    d.Drew d' := by
  have fails : (((opened (.builtin fun _ => "branch") true [("main", 1, "Main")]).run emptied).edit
      "main" ((Operation.restore 3).perform (.builtin fun _ => "branch"))).map Prod.fst =
        some (.error (.trash (.restorationDisallowed
          "This automation node cannot be restored as its reference node has been deleted."))) := by
    decide +kernel
  obtain ⟨⟨_, s'⟩, edited, rfl⟩ := Option.map_eq_some_iff.1 fails
  obtain ⟨d, d', here, _, ⟨a, _, same⟩ | ⟨f, run, same⟩⟩ := edit_cases edited
  · cases same
  · cases same
    refine ⟨d, d', here, run, ?_⟩
    rcases (run_fails_cleanly _ _ _ _ here).1 (.restore 3) _ _ run with drew | ⟨refused, _⟩
    · exact drew
    · cases refused

end Session

end Autoflow
