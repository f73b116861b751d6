import Autoflow.Proofs.Editing.Branches
import Autoflow.Proofs.Editing.Fitness
import Autoflow.Proofs.Graph.Positions

/-!
# Nodes that come back from the trash

A node that was deleted can be restored as long as its slot is still there, whatever happened in
between. It stands in the slot that it had, in front of what is there now, and all other nodes stand
where they stood (`Session.run_recovers`). The checks of a restoration only look at the reference
and at the root. They are enough because the session is fit: what is in the trash comes from a live
node in a slot that suits its type, and types do not change.
-/

namespace Autoflow

open Workflow (IsTrigger)

/-- A slot that was recorded for a node is still there: its reference is live and exposes it, or it
is the root, which has to be free for a trigger. -/
def Workflow.StillHas (registry : Registry) (w : Workflow) (node : Node) (p : Position) : Prop :=
  (∃ r reference, p.reference = some r ∧ w.nodes.get? r = some reference ∧
    reference.hasOutput p.output = true) ∨
  p = .root ∧ (¬ IsTrigger registry node ∨ w.graph.root = none)

namespace Desk

/-- A node was deleted from the workflow at hand, and its slot is still there. -/
def Recoverable (registry : Registry) (d : Desk) (n : NodeId) : Prop :=
  ∃ entry p, d.editor.trash.get? n = some entry ∧ entry.reason = .deleted ∧
    entry.workflow = d.workflow.id ∧ entry.position = some p ∧
    d.workflow.StillHas registry entry.node p

/-- What the restoration of a node into a slot makes of a desk. -/
structure Recovered (d : Desk) (n : NodeId) (node : Node) (p : Position) (d' : Desk) : Prop where
  id : node.id = n
  nodes : ∀ m, d'.workflow.nodes.get? m = if n = m then some node else d.workflow.nodes.get? m
  trash : ∀ m, d'.editor.trash.get? m = if n = m then none else d.editor.trash.get? m
  position : d'.workflow.graph.position n = .ok p
  /-- What was in the slot follows the node on its default output, and nothing else does. -/
  behind : d'.workflow.graph.nextNodes n (some "") = .ok (d.workflow.graph.occupants p.slot)
  bare : ∀ t : Slot, t.owner? = some n → t ≠ .south n "" → d'.workflow.graph.occupants t = []
  displaced : ∀ m ∈ d.workflow.graph.occupants p.slot,
    d'.workflow.graph.position m = .ok (.south n "")
  others : ∀ m, m ≠ n → m ∉ d.workflow.graph.occupants p.slot →
    d'.workflow.graph.position m = d.workflow.graph.position m
  valid : d'.workflow.graph.validate = .ok ()

/-- When nodes can be restored, and what that makes of a desk. -/
structure Recovers (env : Setup) (d : Desk) : Prop where
  succeeds : ∀ n, (∃ node d', Edit.restore env n d = .ok node d') ↔ d.Recoverable env.registry n
  recovered : ∀ n node d', Edit.restore env n d = .ok node d' → ∃ entry p,
    d.editor.trash.get? n = some entry ∧ entry.position = some p ∧ node = entry.node ∧
      d.Recovered n node p d'

end Desk

theorem TrashEntry.isManaged_eq_false {entry : TrashEntry} :
    entry.isManaged = false ↔ entry.reason = .deleted := by
  unfold isManaged
  cases entry.reason <;> simp

namespace Edit

open Autoflow.Graph

variable {env : Setup} {d d' : Desk} {n : NodeId} {node : Node} {entry : TrashEntry} {t : Slot}

section Restored

variable (accepting : env.Accepting) (ready : d.Ready env.registry)
  (held : d.editor.trash.get? n = some entry) (recorded : entry.position = some t.position)
  (known : ∃ type, env.registry.get? entry.node.typeName = some type)

include ready held in
theorem not_mem_graph_of_trashed : n ∉ d.workflow.graph.ids :=
  fun mem => ready.not_mem_ids_of_trashed held ((ready.fits.ids n).1 mem)

include known in
/-- The check of a restoration passes exactly if the slot is still there. -/
theorem checkRestore_iff_stillHas :
    checkRestore env d.workflow entry t.position = .ok () ↔
      d.workflow.StillHas env.registry entry.node t.position := by
  obtain ⟨type, ht⟩ := known
  have root : t.position = .root ↔ t.position.reference = none := by
    rw [t.reference_position]
    refine ⟨fun top => ?_, fun top => Slot.eq_root_of_owner top ▸ rfl⟩
    rw [← t.reference_position, top]
    rfl
  rw [checkRestore_eq_ok, Workflow.StillHas, root, Workflow.isTrigger_iff ht]
  refine or_congr Iff.rfl (and_congr_right fun _ => ?_)
  simp [ht, imp_iff_not_or]

include accepting ready held recorded known in
/-- A node in the trash can be restored exactly if it was deleted from the workflow and its slot is
still there. -/
theorem restore_iff_recoverable :
    (∃ node d', restore env n d = .ok node d') ↔ d.Recoverable env.registry n := by
  constructor
  · rintro ⟨node, d', run⟩
    obtain ⟨e, p, _, he, hp, check, _⟩ := (restore_eq_ok accepting).1 run
    obtain rfl : entry = e := Option.some.inj (held.symm.trans he)
    obtain ⟨home, deleted, at_p⟩ := recordedPosition_eq_ok.1 hp
    obtain rfl : t.position = p := Option.some.inj (recorded.symm.trans at_p)
    exact ⟨entry, t.position, held, TrashEntry.isManaged_eq_false.1 deleted, home, recorded,
      (checkRestore_iff_stillHas known).1 check⟩
  · rintro ⟨e, p, he, deleted, home, at_p, still⟩
    obtain rfl : entry = e := Option.some.inj (held.symm.trans he)
    obtain rfl : t.position = p := Option.some.inj (recorded.symm.trans at_p)
    obtain ⟨g, put⟩ : ∃ g, Graph.insert n t.position d.workflow.graph = .ok () g := by
      refine insert_run fun r ref => ?_
      rcases still with ⟨r', reference, ref', live, _⟩ | ⟨top, _⟩
      · rw [ref] at ref'
        cases ref'
        exact ready.fits.mem_graph live
      · rw [top] at ref
        cases ref
    exact ⟨_, _, (restore_eq_ok accepting).2 ⟨entry, t.position, g, held,
      recordedPosition_eq_ok.2 ⟨home, TrashEntry.isManaged_eq_false.2 deleted, recorded⟩,
      (checkRestore_iff_stillHas known).2 still, put, rfl, rfl⟩⟩

include accepting ready held recorded in
/-- A node that is restored stands in its slot again, in front of what is there. -/
theorem recovered_of_restore (run : restore env n d = .ok node d') :
    node = entry.node ∧ d.Recovered n node t.position d' := by
  have new := not_mem_graph_of_trashed ready held
  have id : entry.node.id = n := ready.filed.trash (congrArg (Option.map _) held)
  have fits' : d'.workflow.Fits env.registry :=
    restore_fits accepting ready.fits (ready.not_mem_ids_of_trashed held)
      (fun entry => ready.awaits) run
  obtain ⟨e, p, g, he, hp, _, put, rfl, rfl⟩ := (restore_eq_ok accepting).1 run
  obtain rfl : entry = e := Option.some.inj (held.symm.trans he)
  obtain rfl : t.position = p :=
    Option.some.inj (recorded.symm.trans (recordedPosition_eq_ok.1 hp).2.2)
  have orderly : d.workflow.graph.Orderly := ready.fits.tree.toOrderly
  obtain ⟨layout, _⟩ := orderly.insert new put
  have own := owner_ne_of_insert new put
  refine ⟨rfl, id, Workflow.get?_addNode id _, get?_takenBack d n, ?_, ?_, fun s owner other => ?_,
    fun m => orderly.position_insert_displaced new put,
    fun m => orderly.position_insert_other new put, validate_eq_ok_iff.2 fits'.tree⟩
  · have at_t := orderly.position_insert new put
    rwa [t.slot_position] at at_t
  · have there : n ∈ g.ids := (mem_ids_insert put).2 (Or.inl rfl)
    refine (nextNodes_of_mem_ids there "").trans ?_
    rw [layout, Layout.plant_default own]
  · change g.occupants s = []
    rw [layout]
    cases s with
    | root => cases owner
    | south m o =>
      cases owner
      exact Layout.plant_branch own fun default => other (by rw [default])
    | child m =>
      cases owner
      rw [Layout.plant_child own]
      exact occupants_eq_nil new rfl

end Restored

end Edit

namespace Session

variable {name : String} {d : Desk}

/-- Nodes can be restored on every desk of a fit session. -/
theorem Fit.recovers {s : Session} {drawn : Nat} (fit : s.Fit) (settled : s.Settled drawn)
    (room : drawn < UInt64.size) (accepting : s.setup.Accepting) (here : s.desk? name = some d) :
    d.Recovers s.setup := by
  have ready := fit.ready settled room here
  have suits : ∀ {n entry}, d.editor.trash.get? n = some entry → s.Suits entry := by
    intro n entry held
    rw [(desk?_eq_some.1 here).2] at held
    exact fit.trash held
  constructor
  · intro n
    constructor
    · rintro ⟨node, d', run⟩
      obtain ⟨entry, _, _, held, _⟩ := (Edit.restore_eq_ok accepting).1 run
      obtain ⟨_, known, t, recorded, _⟩ := suits held
      exact (Edit.restore_iff_recoverable accepting ready held recorded known).1 ⟨node, d', run⟩
    · intro recoverable
      have ⟨entry, _, held, _⟩ := recoverable
      obtain ⟨_, known, t, recorded, _⟩ := suits held
      exact (Edit.restore_iff_recoverable accepting ready held recorded known).2 recoverable
  · intro n node d' run
    obtain ⟨entry, _, _, held, _⟩ := (Edit.restore_eq_ok accepting).1 run
    obtain ⟨_, _, t, recorded, _⟩ := suits held
    obtain ⟨same, recovered⟩ := Edit.recovered_of_restore accepting ready held recorded run
    exact ⟨entry, t.position, held, recorded, same, recovered⟩

/-- However several workflows that were empty are edited and copied under one editor, a node can be
restored exactly if it was deleted from the workflow and its slot is still there, and then it stands
in this slot again. It is the node that one step threw away, and it was in the trash ever since.
Nodes must not be put back in the place of their replacements, since that is not checked; nor is
there a step that replaces a node with an existing one, which is how they are put back. Fewer ids
must be drawn than there are. -/
theorem run_recovers (branchUid : Nat → String) (nodeCache : Bool)
    (shelf : List (String × WorkflowId × String)) (steps : List Step)
    (plain : ∀ step ∈ steps, step.swapsBack = false)
    (room : (opened (.builtin branchUid) nodeCache shelf).demand steps < UInt64.size)
    (here : ((opened (.builtin branchUid) nodeCache shelf).run steps).desk? name = some d) :
    d.Recovers (.builtin branchUid) ∧ ∀ n entry, d.editor.trash.get? n = some entry →
      (opened (.builtin branchUid) nodeCache shelf).Deposited steps n entry := by
  have accepting : (Setup.builtin branchUid).Accepting := fun _ => rfl
  obtain ⟨⟨drawn, room, settled⟩, fit⟩ := (fit_opened (.builtin branchUid) nodeCache shelf).run
    (settled_opened (.builtin branchUid) nodeCache shelf) accepting Registry.named_builtin steps
    plain (by omega)
  have setup := setup_run (opened (.builtin branchUid) nodeCache shelf) steps
  constructor
  · have recovers := fit.recovers settled room (setup ▸ accepting) here
    rwa [setup] at recovers
  · intro n entry held
    rw [(desk?_eq_some.1 here).2] at held
    exact opened_deposited (.builtin branchUid) accepting nodeCache shelf steps held

/-- The first of two nodes in a container is deleted. Another node is put in front of the second one
then, and the workflow is copied. -/
def resettled : List Step := [
  .operate "main" (.request (.create "periodic" {} .root)),
  .operate "main" (.request (.create "iterator" {} (.south 1 ""))),
  .operate "main" (.request (.create "create_row" {} (.child 2))),
  .operate "main" (.request (.create "smtp_email" {} (.south 3 ""))),
  .operate "main" (.request (.delete 3 none)),
  .operate "main" (.request (.create "http_request" {} (.child 2))),
  .copy "main" "copy" 2 "Copy"]

/-- The node is the first one in the container again, in front of the one that took its slot. -/
theorem run_recovers_resettled : ∃ d node d',
    (stepped resettled).desk? "main" = some d ∧
    Edit.restore (.builtin fun _ => "branch") 3 d = .ok node d' ∧
    d.Recovered 3 node (.child 2) d' ∧ d'.workflow.graph.nextNodes 3 (some "") = .ok [5] ∧
    d'.workflow.graph.position 4 = .ok (.south 5 "") := by
  have facts : ((stepped resettled).desk? "main").map (fun d =>
      ((d.editor.trash.get? 3).any fun e =>
          e.reason = .deleted && e.workflow = d.workflow.id && e.position = some (.child 2),
        (d.workflow.nodes.get? 2).any (·.hasOutput ""), d.workflow.graph.find? 2,
        d.workflow.graph.position 4)) =
      some (true, true, some ⟨none, some [5]⟩, .ok (.south 5 "")) := by
    decide +kernel
  obtain ⟨d, here, facts⟩ := Option.map_eq_some_iff.1 facts
  simp only [Prod.mk.injEq, Option.any_eq_true, Bool.and_eq_true, decide_eq_true_eq] at facts
  obtain ⟨⟨entry, held, ⟨deleted, home⟩, recorded⟩, ⟨reference, live, out⟩, inside, behind⟩ := facts
  obtain ⟨⟨succeeds, recovered⟩, _⟩ :=
    run_recovers _ _ _ resettled (by decide) (by decide +kernel) here
  obtain ⟨node, d', run⟩ := (succeeds 3).2 ⟨entry, .child 2, held, deleted, home, recorded,
    Or.inl ⟨2, reference, rfl, live, out⟩⟩
  obtain ⟨entry', p, held', recorded', _, back⟩ := recovered 3 node d' run
  obtain rfl : entry = entry' := Option.some.inj (held.symm.trans held')
  obtain rfl : Position.child 2 = p := Option.some.inj (recorded.symm.trans recorded')
  have there : d.workflow.graph.occupants (Position.child 2).slot = [5] :=
    Graph.occupants_child inside
  refine ⟨d, node, d', here, run, back, there ▸ back.behind, ?_⟩
  rw [back.others 4 (by decide) (by rw [there]; decide), behind]

end Session

end Autoflow
