import Autoflow.Proofs.Editing.Belongings
import Autoflow.Proofs.Editing.Likenesses
import Autoflow.Proofs.Editing.Replicas

/-!
# Steps on one workflow

Each step of a session is an edit of one workflow (`Session.Step.edit`), whatever it asks for. On a
mirrored desk it succeeds or fails as it does on the desk and draws as many ids
(`Session.Step.mirrored`). The steps on one workflow can be taken out of the others and asked for
again, each under a setup that answers it as it was answered (`Session.share`).
-/

namespace Autoflow

/-- The setup that answers whatever is asked next as this one does. -/
def Setup.frozen (env : Setup) (e : Editor) : Setup where
  registry := env.registry
  branchUid _ := env.branchUid (e.branches + 1)
  saveFault _ := env.saveFault (e.store.attempts + 1)

namespace Session

namespace Step

open Desk Edit

/-- The workflow that is asked for something. -/
def subject : Step → String
  | operate name _ | copy name _ _ _ | list name | reserve name => name

/-- A step with other ids. -/
def relabel (f : NodeId → NodeId) : Step → Step
  | operate name o => operate name (o.relabel f)
  | copy name copyName id title => copy name copyName id title
  | list name => list name
  | reserve name => reserve name

/-- What a step does to its workflow. The result is the id of the node that was made. -/
def edit (env : Setup) : Step → Edit (Option NodeId)
  | operate _ o => o.perform env
  | copy _ _ id title => do
    let _ ← Edit.duplicateWorkflow env id title
    return none
  | list _ => do
    let _ ← Edit.listNodes
    return none
  | reserve _ => do
    let _ ← Edit.reserveIds
    return none

/-- A step on a live node meets no node of another workflow in the trash. -/
def Apart (d : Desk) : Step → Prop
  | operate _ o => o.Apart d
  | copy _ _ _ _ | list _ | reserve _ => True

/-- A step puts no copy in the place of a workflow or under its id. -/
def Spares (name : String) (id : WorkflowId) : Step → Prop
  | copy _ copyName copyId _ => copyName ≠ name ∧ copyId ≠ id
  | operate _ _ | list _ | reserve _ => True

instance (d : Desk) (step : Step) : Decidable (step.Apart d) :=
  match step with
  | operate _ o => inferInstanceAs (Decidable (o.Apart d))
  | copy _ _ _ _ | list _ | reserve _ => isTrue trivial

instance (name : String) (id : WorkflowId) (step : Step) : Decidable (step.Spares name id) :=
  match step with
  | copy _ copyName copyId _ => inferInstanceAs (Decidable (copyName ≠ name ∧ copyId ≠ id))
  | operate _ _ | list _ | reserve _ => isTrue trivial

variable {σ : Equiv.Perm NodeId} {env env' : Setup} {d d' : Desk} {step : Step}

@[simp] theorem subject_relabel (f : NodeId → NodeId) (step : Step) :
    (step.relabel f).subject = step.subject := by
  cases step <;> rfl

theorem spares_relabel (f : NodeId → NodeId) (step : Step) (name : String) (id : WorkflowId) :
    (step.relabel f).Spares name id ↔ step.Spares name id := by
  cases step <;> rfl

/-- A step minds the nodes of its workflow. -/
theorem minds (step : Step) (env : Setup) (filed : d.Filed) (apart : step.Apart d) :
    d.Minds ((step.edit env).left d) := by
  have still : ∀ {e : Desk}, Unmoved d e → d.Minds e := fun {e} kept =>
    ⟨by rw [kept.1], .of_eq kept.2, fun n mem => Or.inl (Or.inl (kept.1 ▸ mem))⟩
  cases step with
  | operate name o => exact o.minds env filed apart
  | copy name copyName id title =>
    change d.Minds (Edit.left (Edit.duplicateWorkflow env id title >>= fun _ => pure none) d)
    rw [left_map]
    exact still ((duplicateWorkflow_unmoved env id title).left d)
  | list name | reserve name => exact still ⟨rfl, rfl⟩

/-! ## Mirrored desks -/

/-- Ids below the next one are fewer than all. -/
theorem length_values_lt (keyed : d.workflow.Keyed)
    (below : ∀ n ∈ d.workflow.nodes.ids, n < d.editor.nextId) :
    d.workflow.nodes.values.length < UInt64.size := by
  have distinct : (d.workflow.nodes.ids.map NodeId.toNat).Nodup :=
    (NodeMap.nodup_keys d.workflow.nodes.sorted).map fun _ _ => NodeId.toNat_inj.1
  have within : d.workflow.nodes.ids.map NodeId.toNat ⊆ List.range d.editor.nextId.toNat := by
    intro k mem
    obtain ⟨n, live, rfl⟩ := List.mem_map.1 mem
    exact List.mem_range.2 (below n live)
  have few := (distinct.subperm within).length_le
  rw [List.length_map, List.length_range, ← keyed.map_id_values, List.length_map] at few
  exact Nat.lt_of_le_of_lt few d.editor.nextId.toNat_lt

theorem copyDraws_le (registry : Registry) (nodes : List Node) :
    copyDraws registry nodes ≤ nodes.length := by
  induction nodes with
  | nil => exact Nat.le_refl 0
  | cons node nodes ih =>
    rw [copyDraws, List.length_cons]
    split
    · exact Nat.zero_le _
    · split <;> omega

/-- What a step did to a desk and to its mirror image. -/
structure Mirrored (σ : Equiv.Perm NodeId) (x x' : Edit (Option NodeId)) (d d' : Desk) : Prop where
  outcome : x'.outcome d' = (x.outcome d).map (Option.map σ)
  mirrors : (x.left d).Mirrors σ (x'.left d')
  /-- As many ids were drawn. -/
  draws : ∃ k < UInt64.size, (x.left d).editor.nextId = NodeId.next^[k] d.editor.nextId ∧
    (x'.left d').editor.nextId = NodeId.next^[k] d'.editor.nextId

variable (alike : Alike env env' d d') (h : d.Mirrors σ d') (filed : d.Filed) (filed' : d'.Filed)

include alike h filed filed' in
theorem operate_mirrored {o : Operation} (apart : o.Apart d) (apart' : (o.relabel σ).Apart d')
    (fresh : ((o.perform env).left d).editor.nextId ≠ d.editor.nextId →
      σ d.editor.nextId = d'.editor.nextId) :
    Mirrored σ (o.perform env) ((o.relabel σ).perform env') d d' := by
  have draw : o.Draws env.registry d.workflow → σ d.editor.nextId = d'.editor.nextId := fun draws =>
    fresh fun same => next_ne _ (((o.drawsIf env d).1 draws).symm.trans same)
  obtain ⟨outcome, mirrors⟩ := Operation.mirrored alike h filed filed' apart apart' draw
  refine ⟨outcome, mirrors, ?_⟩
  have counts := o.drawsIf env d
  have counts' := (o.relabel σ).drawsIf env' d'
  rw [alike.registry, DrawsIf,
    Operation.draws_mirrors_iff h.workflow filed.workflow filed'.workflow] at counts'
  by_cases draws : o.Draws env.registry d.workflow
  · exact ⟨1, by decide, counts.1 draws, counts'.1 draws⟩
  · exact ⟨0, by decide, counts.2 draws, counts'.2 draws⟩

include alike h filed filed' in
theorem copy_mirrored {id : WorkflowId} {title : String}
    (rising : ∀ n ∈ d.workflow.nodes.ids, ∀ m ∈ d.workflow.nodes.ids, n < m → σ n < σ m)
    (below : ∀ n ∈ d.workflow.nodes.ids, n < d.editor.nextId) :
    Mirrored σ (Edit.duplicateWorkflow env id title >>= fun _ => pure none)
      (Edit.duplicateWorkflow env' id title >>= fun _ => pure none) d d' := by
  have values := h.workflow.values rising
  have kept := (duplicateWorkflow_unmoved env id title).left d
  have kept' := (duplicateWorkflow_unmoved env' id title).left d'
  refine ⟨?_, ?_, copyDraws env.registry d.workflow.nodes.values,
    Nat.lt_of_le_of_lt (copyDraws_le _ _) (length_values_lt filed.workflow.keyed below), ?_, ?_⟩
  · have same :=
      duplicateWorkflow_outcome id title alike h filed.workflow filed'.workflow values
    rw [outcome_map, outcome_map]
    generalize (Edit.duplicateWorkflow env' id title).outcome d' = r' at same ⊢
    generalize (Edit.duplicateWorkflow env id title).outcome d = r at same ⊢
    cases r <;> cases r' <;> simp_all
  · rw [left_map, left_map]
    exact h.of_eq kept.1 kept.2 kept'.1 kept'.2
  · rw [left_map, duplicateWorkflow_nextId]
  · rw [left_map, duplicateWorkflow_nextId, values, copyDraws_map, alike.registry]

variable (step) in
include alike h filed filed' in
/-- A step on a mirrored desk goes as that on the desk. -/
theorem mirrored (apart : step.Apart d) (apart' : (step.relabel σ).Apart d')
    (rising : ∀ n ∈ d.workflow.nodes.ids, ∀ m ∈ d.workflow.nodes.ids, n < m → σ n < σ m)
    (below : ∀ n ∈ d.workflow.nodes.ids, n < d.editor.nextId ∧ σ n < d'.editor.nextId)
    (fresh : ((step.edit env).left d).editor.nextId ≠ d.editor.nextId →
      σ d.editor.nextId = d'.editor.nextId) :
    Mirrored σ (step.edit env) ((step.relabel σ).edit env') d d' := by
  have low : ∀ n ∈ d.workflow.nodes.ids, n < d.editor.nextId := fun n live => (below n live).1
  cases step with
  | operate name o => exact operate_mirrored alike h filed filed' apart apart' fresh
  | copy name copyName id title => exact copy_mirrored alike h filed filed' rising low
  | list name => exact ⟨rfl, h.of_eq rfl rfl rfl rfl, 0, by decide, rfl, rfl⟩
  | reserve name =>
    have low' : ∀ n ∈ d'.workflow.nodes.ids, n < d'.editor.nextId := by
      intro n live
      have back := (below (σ.symm n) (h.workflow.mem_nodes.1 (by simpa using live))).2
      rwa [Equiv.apply_symm_apply] at back
    exact ⟨rfl, h.of_eq rfl rfl rfl rfl, 0, by decide,
      congrArg (·.editor.nextId) (reserved_eq filed.workflow low),
      congrArg (·.editor.nextId) (reserved_eq filed'.workflow low')⟩

end Step

/-! ## Sessions -/

/-- The result of a step, if it succeeds. -/
def outcome (s : Session) (step : Step) : Option (Option NodeId) :=
  (s.desk? step.subject).bind (step.edit s.setup).outcome

/-- The steps on one workflow, with other ids, each with a setup that answers it as it was
answered. -/
def share (s : Session) (name : String) (f : NodeId → NodeId) : List Step → List (Setup × Step)
  | [] => []
  | step :: steps =>
    if step.subject = name then
      (s.setup.frozen s.editor, step.relabel f) :: (s.after step).share name f steps
    else (s.after step).share name f steps

/-- A step meets no node of another workflow in the trash, and the counter of ids does not come
round. -/
structure StepApart (s : Session) (step : Step) : Prop where
  apart : ∀ d, s.desk? step.subject = some d → step.Apart d
  rises : ¬ (s.after step).editor.nextId < s.editor.nextId

instance (s : Session) (step : Step) : Decidable (s.StepApart step) :=
  decidable_of_iff ((∀ d ∈ s.desk? step.subject, step.Apart d) ∧
      ¬ (s.after step).editor.nextId < s.editor.nextId)
    ⟨fun h => ⟨h.1, h.2⟩, fun h => ⟨h.apart, h.rises⟩⟩

/-- So it is for every step of a run. -/
def Apart (s : Session) : List Step → Prop
  | [] => True
  | step :: steps => s.StepApart step ∧ (s.after step).Apart steps

instance decidableApart (s : Session) : (steps : List Step) → Decidable (s.Apart steps)
  | [] => isTrue trivial
  | step :: steps =>
    have := decidableApart (s.after step) steps
    inferInstanceAs (Decidable (s.StepApart step ∧ (s.after step).Apart steps))

/-- The session with another setup. -/
def under (s : Session) (env : Setup) : Session := { s with setup := env }

/-- The session after several steps, each under a setup of its own. -/
def replay (s : Session) (calls : List (Setup × Step)) : Session :=
  calls.foldl (fun s c => (s.under c.1).after c.2) s

variable {s : Session} {name other : String} {d : Desk} {step : Step} {id : WorkflowId}
  {w : Workflow}

theorem leave_eq {α : Type} (here : s.desk? name = some d) (e : Edit α) :
    s.leave name e = s.keep name (e.left d) := by
  obtain ⟨hw, editor⟩ := desk?_eq_some.1 here
  have start : Desk.mk s.editor d.workflow = d := by rw [← editor]
  unfold leave edit Edit.left
  rw [hw, Option.map_some, start]
  cases e d <;> rfl

/-- A step leaves its desk behind and may put a copy beside it. -/
theorem after_eq (filed : s.Filed) (here : s.desk? step.subject = some d) :
    s.after step = s.keep step.subject ((step.edit s.setup).left d) ∨
      ∃ name copyName id title w, step = .copy name copyName id title ∧ w.id = id ∧
        s.after step = (s.keep step.subject ((step.edit s.setup).left d)).put copyName w := by
  cases step with
  | operate name o | list name | reserve name => exact Or.inl (leave_eq here _)
  | copy name copyName id title =>
    have left : ((Step.copy name copyName id title).edit s.setup).left d =
        (Edit.duplicateWorkflow s.setup id title).left d := Edit.left_map _ _ d
    have there : s.workflows.get? name = some d.workflow := (desk?_eq_some.1 here).1
    rw [left, Edit.left]
    rcases copy_cases s name copyName id title with ⟨_, gone⟩ | ⟨d₀, e, here', outcome⟩
    · rw [there] at gone
      cases gone
    · obtain rfl : d = d₀ := Option.some.inj (here.symm.trans here')
      rcases outcome with ⟨w, run, after⟩ | ⟨f, run, after⟩
      · obtain ⟨acc, d₁, g, mark, copies, _, _, rfl, _⟩ := Edit.duplicateWorkflow_eq_ok.1 run
        have numbered := (Edit.numbered_values (filed.desk here).workflow.keyed copies).1
        rw [run]
        refine Or.inr ⟨name, copyName, id, title, _, rfl, ?_, after⟩
        exact numbered.workflow
      · rw [run]
        exact Or.inl after

/-- A step on a workflow that is not there does nothing. -/
theorem after_of_none (gone : s.desk? step.subject = none) : s.after step = s := by
  have none : s.workflows.get? step.subject = none := Option.map_eq_none_iff.1 gone
  cases step with
  | operate name o | list name | reserve name =>
    simp only [after, operate, leave, edit, Step.subject] at none ⊢
    rw [none]
    rfl
  | copy name copyName id title =>
    simp only [after, copy, duplicate, edit, Step.subject] at none ⊢
    rw [none]
    rfl

theorem desk?_keep (s : Session) (name : String) (d : Desk) :
    (s.keep name d).desk? name = some d :=
  desk?_eq_some.2 ⟨(get?_keep s name name d).trans (if_pos rfl), rfl⟩

section

variable (filed : s.Filed)

include filed

/-- What a step leaves is at hand after it. -/
theorem desk?_after (here : s.desk? step.subject = some d) (spares : step.Spares step.subject id) :
    (s.after step).desk? step.subject = some ((step.edit s.setup).left d) := by
  rcases after_eq filed here with after | ⟨_, copyName, _, _, w, rfl, _, after⟩
  · rw [after, desk?_keep]
  · obtain ⟨hw, editor⟩ := desk?_eq_some.1 (desk?_keep s (Step.subject _) _)
    rw [after]
    exact desk?_eq_some.2 ⟨(get?_put _ _ _ w).trans ((if_neg spares.1).trans hw), editor⟩

theorem editor_after (here : s.desk? step.subject = some d) :
    (s.after step).editor = ((step.edit s.setup).left d).editor := by
  rcases after_eq filed here with after | ⟨_, _, _, _, _, _, _, after⟩ <;> rw [after] <;> rfl

/-- A step on another workflow leaves a workflow alone. -/
theorem get?_after (other : step.subject ≠ name) (spares : step.Spares name id) :
    (s.after step).workflows.get? name = s.workflows.get? name := by
  cases here : s.desk? step.subject with
  | none => rw [after_of_none here]
  | some d =>
    rcases after_eq filed here with after | ⟨_, copyName, _, _, w, rfl, _, after⟩
    · rw [after, get?_keep, if_neg other]
    · rw [after, get?_put, if_neg spares.1, get?_keep, if_neg other]

/-- A workflow that is there after a step is the copy that was made or was there before. -/
theorem workflow_after {v : Workflow} (keeps : ∀ d, s.desk? step.subject = some d →
      ((step.edit s.setup).left d).workflow.id = d.workflow.id)
    (spares : step.Spares name id) (there : (s.after step).workflows.get? other = some v) :
    v.id ≠ id ∨ ∃ v', s.workflows.get? other = some v' ∧ v'.id = v.id := by
  have kept : ∀ {d v}, s.desk? step.subject = some d →
      (s.keep step.subject ((step.edit s.setup).left d)).workflows.get? other = some v →
      ∃ v', s.workflows.get? other = some v' ∧ v'.id = v.id := by
    intro d v here there
    rw [get?_keep] at there
    split at there
    · next same =>
      cases there
      exact ⟨d.workflow, same ▸ (desk?_eq_some.1 here).1, (keeps d here).symm⟩
    · exact ⟨v, there, rfl⟩
  cases here : s.desk? step.subject with
  | none =>
    rw [after_of_none here] at there
    exact Or.inr ⟨v, there, rfl⟩
  | some d =>
    rcases after_eq filed here with after | ⟨_, copyName, _, _, w, rfl, rfl, after⟩
    · rw [after] at there
      exact Or.inr (kept here there)
    · rw [after, get?_put] at there
      split at there
      · cases there
        exact Or.inl spares.2
      · exact Or.inr (kept here there)

end

end Session

end Autoflow
