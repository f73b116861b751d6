import Autoflow.Proofs.Editing.Drops
import Autoflow.Proofs.Editing.Replicas

/-!
# Branches in a session

As long as no operation of a session drops an output in use, all outputs in use are exposed in all
its workflows and in their copies, and every copy succeeds. In any session a copy succeeds exactly
if every output in use is exposed by one of the nodes (`Session.run_keeps_outputs`).
-/

namespace Autoflow

/-- All outputs in use are exposed, and every copy succeeds. -/
structure Desk.OutputsKept (env : Setup) (d : Desk) : Prop where
  outputs : ∀ n e outputs, d.workflow.graph.find? n = some e → e.next = some outputs →
    ∀ o ∈ outputs.keys, ∃ node, d.workflow.nodes.get? n = some node ∧ node.hasOutput o = true
  copies : ∀ id title, ∃ w d', Edit.duplicateWorkflow env id title d = .ok w d'

/-- Copies succeed exactly if every output in use is exposed somewhere, and once all are exposed where
they are used, the next operation changes that exactly if it drops one. -/
structure Desk.OutputsTraced (env : Setup) (d : Desk) : Prop where
  copies : ∀ id title, (∃ w d', Edit.duplicateWorkflow env id title d = .ok w d') ↔
    ∀ n, ∀ o ∈ d.workflow.graph.outputsInUse n, ∃ m, d.workflow.Exposes m o
  next : d.workflow.AllExposed → ∀ (o : Operation) made d', o.perform env d = .ok made d' →
    (d'.workflow.AllExposed ↔ o.drops env d = false)

namespace Session

/-- Whether a step is an operation that succeeds and drops an output in use. -/
def slips (s : Session) : Step → Bool
  | .operate name o => (s.desk? name).any fun d =>
      match o.perform s.setup d with
      | .ok _ _ => o.drops s.setup d
      | .error _ _ => false
  | .copy .. | .list _ | .reserve _ => false

/-- Whether none of several steps drops an output in use. -/
def careful (s : Session) : List Step → Bool
  | [] => true
  | step :: steps => !s.slips step && (s.after step).careful steps

/-- Regular workflows, and nodes in the trash that were built. -/
structure Regular (s : Session) : Prop where
  workflows : ∀ {name w}, s.workflows.get? name = some w → w.Regular s.setup.registry
  trash : ∀ {n node}, s.editor.trash.node? n = some node → node.Built s.setup.registry

/-- In every workflow all outputs in use are exposed. -/
def Exposed (s : Session) : Prop := ∀ name w, s.workflows.get? name = some w → w.AllExposed

variable {s s' : Session} {drawn : Nat} {name : String} {d d' : Desk}

theorem Regular.desk (regular : s.Regular) (settled : s.Settled drawn) (room : drawn < UInt64.size)
    (here : s.desk? name = some d) : d.Regular s.setup.registry := by
  obtain ⟨hw, editor⟩ := desk?_eq_some.1 here
  have live : ∀ n, s.node? (.live name) n = d.workflow.nodes.get? n := fun n =>
    (node?_of_desk here n).1
  refine ⟨regular.workflows hw, settled.filed.desk here, fun hn => ?_, fun known => ?_,
    fun {n} known => ?_⟩
  · exact regular.trash (editor ▸ hn)
  · refine NodeMap.get?_eq_none_iff.1 ?_ known
    rw [editor, ← live]
    exact settled.unknown_next room _
  · obtain ⟨node, hn⟩ := NodeMap.mem_ids_iff.1 known
    have off := settled.elsewhere ((live n).trans hn) (q := .trash) nofun
    exact Option.map_eq_none_iff.1 ((node?_of_desk here n).2.symm.trans off)

theorem Regular.keep (regular : s.Regular) (name : String)
    (workflow : d'.workflow.Regular s.setup.registry)
    (trash : ∀ {n node}, d'.editor.trash.node? n = some node → node.Built s.setup.registry) :
    (s.keep name d').Regular where
  workflows {other w} hw := by
    rw [get?_keep] at hw
    split at hw
    · cases hw
      exact workflow
    · exact regular.workflows hw
  trash := trash

theorem Exposed.keep (exposed : s.Exposed) (name : String) (workflow : d'.workflow.AllExposed) :
    (s.keep name d').Exposed := by
  intro other w hw
  rw [get?_keep] at hw
  split at hw
  · cases hw
    exact workflow
  · exact exposed other w hw

/-- What an edit makes of a session that leaves the workflow and the trash as they are. -/
theorem Regular.still (regular : s.Regular) (here : s.desk? name = some d)
    (workflow : d'.workflow = d.workflow) (trash : d'.editor.trash = d.editor.trash) :
    (s.keep name d').Regular ∧ (s.Exposed → (s.keep name d').Exposed) := by
  obtain ⟨hw, editor⟩ := desk?_eq_some.1 here
  refine ⟨regular.keep name (workflow ▸ regular.workflows hw) fun hn => ?_, fun exposed => ?_⟩
  · rw [trash, editor] at hn
    exact regular.trash hn
  · exact exposed.keep name (workflow ▸ exposed _ _ hw)

/-- A session is regular after a workflow was put under a name, and all outputs in use are exposed if
they are in the workflow. -/
theorem Regular.put (regular : s.Regular) (name : String) {w : Workflow}
    (workflow : w.Regular s.setup.registry) : (s.put name w).Regular ∧
      (w.AllExposed → s.Exposed → (s.put name w).Exposed) := by
  refine ⟨⟨fun {other w'} hw => ?_, regular.trash⟩, fun all exposed other w' hw => ?_⟩
  · rw [get?_put] at hw
    split at hw
    · cases hw
      exact workflow
    · exact regular.workflows hw
  · rw [get?_put] at hw
    split at hw
    · cases hw
      exact all
    · exact exposed other w' hw

/-- An operation keeps a session regular, and all outputs in use exposed unless it slips. -/
theorem Regular.operate (regular : s.Regular) (settled : s.Settled drawn)
    (room : drawn < UInt64.size) (accepting : s.setup.Accepting)
    (named : s.setup.registry.Named) (scripts : s.setup.registry.Scripts) (name : String)
    (o : Operation) : (s.operate name o).Regular ∧
      (s.slips (.operate name o) = false → s.Exposed → (s.operate name o).Exposed) := by
  unfold Session.operate leave
  cases h : s.edit name (o.perform s.setup) with
  | none => exact ⟨regular, fun _ => id⟩
  | some result =>
    obtain ⟨r, s'⟩ := result
    obtain ⟨d, d', here, rfl, ⟨made, run, _⟩ | ⟨f, run, _⟩⟩ := edit_cases h
    · have desk := regular.desk settled room here
      obtain ⟨workflow, iff⟩ := o.regular accepting named scripts desk run
      obtain ⟨_, _, _, exchange⟩ := o.exchange accepting desk.filed run
      refine ⟨regular.keep name workflow (desk.built_trash exchange), fun careful exposed => ?_⟩
      refine exposed.keep name ((iff (exposed _ _ (desk?_eq_some.1 here).1)).2 ?_)
      simpa [slips, here, run] using careful
    · have idle := (o.idle_of_error accepting (settled.filed.desk here) run).drew
      obtain ⟨kept, exposed⟩ := regular.still here idle.workflow idle.trash
      exact ⟨kept, fun _ => exposed⟩

/-- To copy a workflow keeps a session regular, and all outputs in use exposed. -/
theorem Regular.copy (regular : s.Regular) (settled : s.Settled drawn)
    (accepting : s.setup.Accepting) (named : s.setup.registry.Named)
    (scripts : s.setup.registry.Scripts) (name copyName : String) (id : WorkflowId)
    (title : String) (room : drawn + s.draws (.copy name copyName id title) < UInt64.size) :
    (s.copy name copyName id title).Regular ∧
      (s.Exposed → (s.copy name copyName id title).Exposed) := by
  rcases copy_cases s name copyName id title with ⟨same, _⟩ | ⟨d, d', here, outcome⟩
  · rw [same]
    exact ⟨regular, fun exposed => exposed⟩
  have workflow := (settled.filed.desk here).workflow
  obtain ⟨hw, _⟩ := desk?_eq_some.1 here
  rcases outcome with ⟨w, run, after⟩ | ⟨f, run, after⟩
  · rw [after]
    obtain ⟨_, same, trash⟩ := Edit.duplicateWorkflow_ok workflow run
    obtain ⟨copied, all⟩ := Edit.duplicateWorkflow_regular workflow
      (Nat.le_of_lt (draws_copy here ▸ room)) (settled.next_desk here) named scripts
      (regular.workflows hw) run
    obtain ⟨kept, exposed⟩ := regular.still here same trash
    obtain ⟨put, exposed'⟩ := kept.put copyName copied
    exact ⟨put, fun before => exposed' (all (before _ _ hw)) (exposed before)⟩
  · rw [after]
    have drew := (Edit.duplicateWorkflow_error accepting run).drew
    exact regular.still here drew.workflow drew.trash

/-- Every step keeps a session regular, and all outputs in use exposed unless it slips. -/
theorem Regular.after (regular : s.Regular) (settled : s.Settled drawn)
    (accepting : s.setup.Accepting) (named : s.setup.registry.Named)
    (scripts : s.setup.registry.Scripts) (step : Step)
    (room : drawn + s.draws step < UInt64.size) : (s.after step).Regular ∧
      (s.slips step = false → s.Exposed → (s.after step).Exposed) := by
  have idle : ∀ name, step = .list name ∨ step = .reserve name → drawn + 1 < UInt64.size →
      (s.after step).Regular ∧ (s.Exposed → (s.after step).Exposed) := by
    intro name idle room
    rcases settled.counted.idle room idle with same | ⟨d, d', here, still, same⟩
    · rw [same]
      exact ⟨regular, fun exposed => exposed⟩
    · rw [same]
      exact regular.still here still.workflow still.trash
  cases step with
  | operate name o =>
    exact regular.operate settled (Nat.lt_of_succ_lt room) accepting named scripts name o
  | copy name copyName id title =>
    obtain ⟨kept, exposed⟩ :=
      regular.copy settled accepting named scripts name copyName id title room
    exact ⟨kept, fun _ => exposed⟩
  | list name =>
    obtain ⟨kept, exposed⟩ := idle name (Or.inl rfl) room
    exact ⟨kept, fun _ => exposed⟩
  | reserve name =>
    obtain ⟨kept, exposed⟩ := idle name (Or.inr rfl) room
    exact ⟨kept, fun _ => exposed⟩

theorem regular_opened (setup : Setup) (nodeCache : Bool)
    (shelf : List (String × WorkflowId × String)) : (opened setup nodeCache shelf).Regular where
  workflows hw := by
    obtain ⟨id, title, rfl⟩ := eq_of_opened hw
    exact ⟨Graph.orderly_empty, Graph.pruned_empty, nofun, nofun⟩
  trash := nofun

theorem exposed_opened (setup : Setup) (nodeCache : Bool)
    (shelf : List (String × WorkflowId × String)) : (opened setup nodeCache shelf).Exposed := by
  intro name w hw n o used
  obtain ⟨id, title, rfl⟩ := eq_of_opened hw
  cases used

/-- After any steps a session is settled and regular, and all outputs in use are exposed if no step
slipped. -/
theorem Regular.run (regular : s.Regular) (settled : s.Settled drawn)
    (accepting : s.setup.Accepting) (named : s.setup.registry.Named)
    (scripts : s.setup.registry.Scripts) (steps : List Step)
    (room : drawn + s.demand steps < UInt64.size) :
    (∃ drawn' < UInt64.size, (s.run steps).Settled drawn') ∧ (s.run steps).Regular ∧
      (s.careful steps = true → s.Exposed → (s.run steps).Exposed) := by
  induction steps generalizing s drawn with
  | nil => exact ⟨⟨drawn, room, settled⟩, regular, fun _ exposed => exposed⟩
  | cons step steps ih =>
    rw [demand] at room
    have now : drawn + s.draws step < UInt64.size := by omega
    obtain ⟨drawn₁, le, settled₁⟩ := settled.after accepting step now
    obtain ⟨regular₁, kept₁⟩ := regular.after settled accepting named scripts step now
    have setup := setup_after s step
    obtain ⟨settled', regular', kept'⟩ := ih regular₁ settled₁ (setup ▸ accepting)
      (setup ▸ named) (setup ▸ scripts) (by omega)
    refine ⟨settled', regular', fun careful exposed => ?_⟩
    simp only [Session.careful, Bool.and_eq_true, Bool.not_eq_true'] at careful
    exact kept' careful.2 (kept₁ careful.1 exposed)

/-- In any session every workflow stays regular with the editor. -/
theorem regular_of_run (branchUid : Nat → String) (nodeCache : Bool)
    (shelf : List (String × WorkflowId × String)) (steps : List Step)
    (room : (opened (.builtin branchUid) nodeCache shelf).demand steps < UInt64.size)
    (here : ((opened (.builtin branchUid) nodeCache shelf).run steps).desk? name = some d) :
    d.Regular .builtin := by
  have accepting : (Setup.builtin branchUid).Accepting := fun _ => rfl
  obtain ⟨⟨drawn, room, settled⟩, regular, _⟩ :=
    (regular_opened (.builtin branchUid) nodeCache shelf).run
      (settled_opened (.builtin branchUid) nodeCache shelf) accepting Registry.named_builtin
      Registry.scripts_builtin steps (by omega)
  have desk := regular.desk settled room here
  rwa [setup_run] at desk

/-- However several workflows that were empty are edited and copied under one editor, all outputs in
use are exposed and every copy succeeds, as long as no operation that succeeds drops an output in
use. Routers are checked for that. Other nodes are not when they are updated or replaced, and none
is when a node that was replaced comes back, so an operation can still drop an output. Ids are
counted in 64 bits, so fewer must be drawn than there are. -/
theorem run_keeps_outputs (branchUid : Nat → String) (nodeCache : Bool)
    (shelf : List (String × WorkflowId × String)) (steps : List Step)
    (room : (opened (.builtin branchUid) nodeCache shelf).demand steps < UInt64.size)
    (here : ((opened (.builtin branchUid) nodeCache shelf).run steps).desk? name = some d) :
    ((opened (.builtin branchUid) nodeCache shelf).careful steps = true →
      d.OutputsKept (.builtin branchUid)) ∧ d.OutputsTraced (.builtin branchUid) := by
  have accepting : (Setup.builtin branchUid).Accepting := fun _ => rfl
  have named : (Setup.builtin branchUid).registry.Named := Registry.named_builtin
  have scripts : (Setup.builtin branchUid).registry.Scripts := Registry.scripts_builtin
  obtain ⟨⟨drawn, room, settled⟩, regular, kept⟩ :=
    (regular_opened (.builtin branchUid) nodeCache shelf).run
      (settled_opened (.builtin branchUid) nodeCache shelf) accepting named scripts steps (by omega)
  have desk := regular.desk settled room here
  rw [setup_run] at desk
  have copies := Edit.duplicateWorkflow_ok_iff accepting scripts desk.filed.workflow desk.workflow
  refine ⟨fun careful => ?_, copies, fun exposed o made d' run => ?_⟩
  · have exposed : d.workflow.AllExposed :=
      kept careful (exposed_opened _ _ _) name d.workflow (desk?_eq_some.1 here).1
    refine ⟨fun n e outputs he next o mem => ?_, fun id title => ?_⟩
    · exact exposed n o (Graph.outputsInUse_eq he next ▸ mem)
    · exact (copies id title).2 fun n o used => ⟨n, exposed n o used⟩
  · exact (o.regular accepting named scripts desk run).2 exposed

/-- A service with one branch. -/
def oneBranch (uid label : String) : NodeValues where
  service := some (.object [("edges", .array [Edge.toJson ⟨uid, label⟩])])

/-- An action and a router with a node behind a branch each. -/
def branching : List Step := [
  .operate "main" (.request (.create "periodic" {} .root)),
  .operate "main" (.request (.create "http_request" (oneBranch "x" "X") (.south 1 ""))),
  .operate "main" (.request (.create "smtp_email" {} (.south 2 "x"))),
  .operate "main" (.request (.create "router" (oneBranch "y" "Y") (.south 3 ""))),
  .operate "main" (.request (.create "smtp_email" {} (.south 4 "y")))]

/-- The session after steps that start with an empty workflow. -/
def stepped (steps : List Step) : Session :=
  (opened (.builtin fun _ => "branch") true [("main", 1, "Main")]).run steps

/-- In a copy the branch of the router stays, since an update that would drop it is refused. -/
theorem run_keeps_outputs_branching : ∃ d,
    (stepped (branching ++ [.copy "main" "copy" 2 "Copy",
      .operate "copy" (.request (.update 9 { service := some .null }))])).desk? "copy" = some d ∧
    d.workflow.graph.outputsInUse 9 = ["y"] ∧ d.OutputsKept (.builtin fun _ => "branch") ∧
    d.OutputsTraced (.builtin fun _ => "branch") := by
  have used : ((stepped (branching ++ [.copy "main" "copy" 2 "Copy",
      .operate "copy" (.request (.update 9 { service := some .null }))])).desk? "copy").map
        (fun d => d.workflow.graph.outputsInUse 9) = some ["y"] := by
    decide +kernel
  obtain ⟨d, here, used⟩ := Option.map_eq_some_iff.1 used
  obtain ⟨kept, traced⟩ := run_keeps_outputs _ _ _ _ (by decide +kernel) here
  exact ⟨d, here, used, kept (by decide +kernel), traced⟩

/-- A router that took the place of an action, with a node behind its branch. -/
def rerouted : List Step := [
  .operate "main" (.request (.create "periodic" {} .root)),
  .operate "main" (.request (.create "http_request" {} (.south 1 ""))),
  .operate "main" (.request (.replace 2 "router" none)),
  .operate "main" (.request (.create "smtp_email" {} (.south 3 "branch")))]

/-- Whether an operation succeeds. -/
def accepts (s : Session) (o : Operation) : Option Bool :=
  (s.edit "main" (o.perform s.setup)).map fun x => x.1.isOk

/-- The outputs of a node that are in use, and those it has. -/
def outlets (s : Session) (n : NodeId) : Option (List String × Option (List String)) :=
  (s.desk? "main").map fun d => (d.workflow.graph.outputsInUse n,
    (d.workflow.nodes.get? n).map fun node => node.service.edges.map Edge.uid)

/-- What a copy of the workflow ends in. -/
def copied (s : Session) : Option (Except Failure WorkflowId) :=
  (s.edit "main" (Edit.duplicateWorkflow s.setup 9 "Copy")).map fun x => x.1.map Workflow.id

/-- The same update drops the branch of the action. Its successor stays behind an output that is no
longer there, and the workflow can no longer be copied. So it goes with the branch of a router too
when the action comes back whose place it took, although replacing the router is refused. -/
theorem stepped_drops_branch :
    (let update : Operation := .request (.update 2 { service := some .null })
      let s := stepped (branching ++ [.operate "main" update])
      (stepped branching).accepts update = some true ∧ s.outlets 2 = some (["x"], some [""]) ∧
        s.copied = some (.error (.graph (.missingMapping .output "x")))) ∧
    (let replace : Operation := .request (.replace 3 "http_request" none)
      let s := stepped (rerouted ++ [.operate "main" (.restoreReplaced 3 2)])
      (stepped rerouted).accepts replace = some false ∧
        (stepped rerouted).accepts (.restoreReplaced 3 2) = some true ∧
        s.outlets 2 = some (["branch"], some [""]) ∧
        s.copied = some (.error (.graph (.missingMapping .output "branch")))) := by
  decide +kernel

end Session

end Autoflow
