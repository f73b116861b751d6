import Autoflow.Proofs.Editing.Branches
import Autoflow.Proofs.Graph.Positions

/-!
# Deletions and moves taken back

A node that was just deleted can be restored as long as its slot is still exposed, and a node that
was just moved can go back where a node of the workflow admits it. All nodes of the workflow are
live then as before. They stand where they stood exactly if the node was alone in its slot and only
its default output led anywhere (`Session.run_returns`), since only the slot of the node is kept:
a deletion or a move puts all its successors into that slot, and the way back puts them all
on its default output.
-/

namespace Autoflow

namespace Workflow

/-- A node that was deleted from a slot can come back: the reference still exposes the slot, and
none takes the place of a trigger at the root. -/
structure Readmits (registry : Registry) (w : Workflow) (n : NodeId) (s : Slot) : Prop where
  outlet : ∀ r, s.owner? = some r → w.Exposes r s.position.output
  top : s = .root → ∀ node, w.nodes.get? n = some node → IsTrigger registry node →
    w.graph.occupants (.child n) = []

/-- A slot of a node of the workflow that a node can be moved to. -/
def Admits (registry : Registry) (w : Workflow) (s : Slot) : Prop :=
  ∃ r reference, s.owner? = some r ∧ w.nodes.get? r = some reference ∧
    reference.workflow = w.id ∧ reference.hasOutput s.position.output = true ∧
      (s.position.placement = .child → IsContainer registry reference)

/-- The same nodes are live in two workflows. They stand where they stood exactly if one of them was
alone in its slot and had nothing on its branches. -/
structure Returned (n : NodeId) (s : Slot) (inside : Bool) (w w' : Workflow) : Prop where
  nodes : w'.nodes = w.nodes
  positions : (∀ m, w'.graph.position m = w.graph.position m) ↔ w.graph.occupants.Lone n s inside

end Workflow

namespace Desk

/-- How a node that was just deleted comes back. -/
structure Restores (env : Setup) (d d₁ : Desk) (n : NodeId) (s : Slot) : Prop where
  position : d.workflow.graph.position n = .ok s.position
  succeeds : (∃ node d₂, Edit.restore env n d₁ = .ok node d₂) ↔
    d.workflow.Readmits env.registry n s
  returned : ∀ node d₂, Edit.restore env n d₁ = .ok node d₂ →
    d.workflow.Returned n s false d₂.workflow

/-- How a node that was just moved goes back. In a graph that is not valid it can be refused as
well, since the slot that it left may be inside it. -/
structure GoesBack (env : Setup) (d d₁ : Desk) (n : NodeId) (s : Slot) : Prop where
  position : d.workflow.graph.position n = .ok s.position
  succeeds : d.workflow.graph.validate = .ok () →
    ((∃ moved d₂, Edit.move env n s.position d₁ = .ok moved d₂) ↔
      d.workflow.Admits env.registry s)
  returned : ∀ moved d₂, Edit.move env n s.position d₁ = .ok moved d₂ →
    d.workflow.Returned n s true d₂.workflow

end Desk

namespace Edit

open Autoflow.Graph Autoflow.Workflow

variable {env : Setup} {d d₁ : Desk} {n : NodeId} {node : Node} {s : Slot} {e : Entry}

/-! ## Deletions -/

/-- The desk after a node was deleted from a slot, given the graph that is left. -/
def deleted (d : Desk) (node : Node) (actor : Option String) (s : Slot) (g : Graph) : Desk :=
  (uprooted (thrownAway d (deletion d node actor s.position)) g node.id).saved

section Deleted

variable (accepting : env.Accepting) (regular : d.Regular env.registry) {g : Graph}
  {type : NodeType} {actor : Option String} (live : d.workflow.nodes.get? n = some node)
  (typed : env.registry.get? node.typeName = some type)
  (checked : d.workflow.checkDelete type.kind node = .ok ())
  (stands : d.workflow.graph.Stands n s e)
  (layout : g.occupants =
    d.workflow.graph.occupants.extract n s (closing s (leaving e false)) false)

include accepting in
theorem restore_deleted_eq_ok {node' : Node} {d₂ : Desk} :
    restore env node.id (deleted d node actor s g) = .ok node' d₂ ↔
      checkRestore env (deleted d node actor s g).workflow
        (deletion d node actor s.position) s.position = .ok () ∧
      ∃ g', Graph.insert node.id s.position g = .ok () g' ∧ node = node' ∧
        (planted (takenBack (deleted d node actor s g) node.id) g' node').saved = d₂ := by
  have trashed : (deleted d node actor s g).editor.trash.get? node.id =
      some (deletion d node actor s.position) :=
    (get?_thrownAway rfl d node.id).trans (if_pos rfl)
  have recorded : recordedPosition (deleted d node actor s g).workflow
      (deletion d node actor s.position) = .ok s.position :=
    recordedPosition_eq_ok.2 ⟨rfl, rfl, rfl⟩
  rw [restore_eq_ok accepting]
  constructor
  · rintro ⟨entry, p, g', held, at_p, check, put, same, done⟩
    obtain rfl : entry = deletion d node actor s.position :=
      Option.some.inj (held.symm.trans trashed)
    obtain rfl : p = s.position := Except.ok.inj (at_p.symm.trans recorded)
    exact ⟨check, g', put, same, done⟩
  · rintro ⟨check, g', put, same, done⟩
    exact ⟨_, _, g', trashed, recorded, check, put, same, done⟩

include regular live checked stands layout in
/-- The place of a trigger that was deleted is free unless there was a node inside the trigger. -/
theorem root_of_deleted (top : s = .root) (trigger : type.isTrigger = true) :
    g.root = none ↔ d.workflow.graph.occupants (.child n) = [] := by
  subst top
  have id : node.id = n := regular.filed.workflow.id live
  have there : node.id ∈ d.workflow.graph.ids := id ▸ mem_ids_of_find? stands.entry
  have none_follows : ∀ o, d.workflow.graph.occupants (.south n o) = [] := by
    have follow := ((checkDelete_eq_ok there).1 checked).1 (isTrigger_kind.1 trigger)
    rwa [id] at follow
  have left : leaving e false = d.workflow.graph.occupants (.child n) := by
    calc leaving e false
      _ = e.nextIds ++ e.childIds := rfl
      _ = d.workflow.graph.occupants (.south n "") ++ e.childIds := by
        rw [nextIds_eq stands.entry fun o _ => none_follows o]
      _ = d.workflow.graph.occupants (.child n) := by
        rw [none_follows, List.nil_append, occupants_child stands.entry]
  rw [root_of_left stands layout, left]

include regular live typed checked stands layout in
theorem checkRestore_deleted : checkRestore env (deleted d node actor s g).workflow
    (deletion d node actor s.position) s.position = .ok () ↔
      d.workflow.Readmits env.registry n s := by
  have id : node.id = n := regular.filed.workflow.id live
  have others : ∀ m, m ≠ n →
      (deleted d node actor s g).workflow.nodes.get? m = d.workflow.nodes.get? m := by
    intro m ne
    exact (get?_takeNode _ node.id m).trans (if_neg fun e => ne (e.symm.trans id))
  have apart : ∀ r, s.owner? = some r → r ≠ n := by
    rintro r owner rfl
    exact stands.own owner
  rw [checkRestore_eq_ok, s.reference_position]
  constructor
  · rintro (⟨r, reference, owner, held, out⟩ | ⟨owner, type', typed', free⟩)
    · refine ⟨fun r' owner' => ?_, fun top => ?_⟩
      · obtain rfl : r = r' := Option.some.inj (owner.symm.trans owner')
        rw [others r (apart r owner)] at held
        exact ⟨reference, held, out⟩
      · rw [top] at owner
        cases owner
    · have top := Slot.eq_root_of_owner owner
      refine ⟨fun r owner' => ?_, fun _ node' live' trigger => ?_⟩
      · rw [owner] at owner'
        cases owner'
      · obtain rfl : node = node' := Option.some.inj (live.symm.trans live')
        obtain rfl : type' = type := Option.some.inj (typed'.symm.trans typed)
        replace trigger := (isTrigger_iff typed).1 trigger
        exact (root_of_deleted regular live checked stands layout top trigger).1 (free trigger)
  · intro readmits
    cases owner : s.owner? with
    | some r =>
      obtain ⟨reference, held, out⟩ := readmits.outlet r owner
      exact Or.inl ⟨r, reference, rfl, (others r (apart r owner)).trans held, out⟩
    | none =>
      have top := Slot.eq_root_of_owner owner
      refine Or.inr ⟨rfl, type, typed, fun trigger => ?_⟩
      refine (root_of_deleted regular live checked stands layout top trigger).2 ?_
      exact readmits.top top node live ((isTrigger_iff typed).2 trigger)

end Deleted

/-- A node that was deleted is restored if its slot can have it again. -/
theorem delete_restores (accepting : env.Accepting) (regular : d.Regular env.registry)
    {actor : Option String} (run : delete env n actor d = .ok node d₁) :
    ∃ s, d.Restores env d₁ n s := by
  obtain ⟨type, p, g, live, typed, checked, at_p, removed, _, rfl⟩ :=
    (delete_eq_ok accepting).1 run
  obtain rfl : node.id = n := regular.filed.workflow.id live
  have there : node.id ∈ d.workflow.graph.ids :=
    (regular.filed.workflow.ids node.id).2 (NodeMap.mem_ids_of_get? live)
  obtain ⟨s, e, stands, layout, orderly⟩ := regular.workflow.orderly.remove there removed
  obtain rfl : p = s.position := Except.ok.inj (at_p.symm.trans stands.position)
  have gone : node.id ∉ g.ids := fun mem => ((mem_ids_remove removed).1 mem).1 rfl
  have readmits : checkRestore env (deleted d node actor s g).workflow
      (deletion d node actor s.position) s.position = .ok () ↔
        d.workflow.Readmits env.registry node.id s :=
    checkRestore_deleted regular live typed checked stands layout
  refine ⟨s, stands.position, ?_, ?_⟩
  · rw [← readmits]
    constructor
    · rintro ⟨node', d₂, restored⟩
      exact ((restore_deleted_eq_ok accepting).1 restored).1
    · intro check
      obtain ⟨g', put⟩ : ∃ g', Graph.insert node.id s.position g = .ok () g' := by
        apply insert_run
        intro r owner
        rw [s.reference_position] at owner
        refine (mem_ids_remove removed).2 ⟨fun e => stands.own (e ▸ owner), ?_⟩
        exact regular.workflow.orderly.owner_mem stands.mem owner
      exact ⟨node, _, (restore_deleted_eq_ok accepting).2 ⟨check, g', put, rfl, rfl⟩⟩
  · intro node' d₂ restored
    obtain ⟨_, g', put, rfl, rfl⟩ := (restore_deleted_eq_ok accepting).1 restored
    obtain ⟨layout', orderly'⟩ := orderly.insert gone put
    rw [s.slot_position, layout] at layout'
    refine ⟨NodeMap.ext_get? fun m => ?_, ?_⟩
    · refine (get?_addNode rfl _ m).trans ?_
      split
      · next same => rw [← same, live]
      · next other => exact (get?_takeNode _ node.id m).trans (if_neg other)
    · exact regular.workflow.orderly.returned_iff orderly' stands layout'

/-! ## Moves -/

/-- A move that succeeds goes to a slot of another node, and only the graph changes. -/
theorem exists_moved (accepting : env.Accepting) {p : Position} {moved : MovedNode}
    (run : move env n p d = .ok moved d₁) : ∃ r g, p.reference = some r ∧ r ≠ n ∧
      Graph.move n p d.workflow.graph = .ok () g ∧
      d₁ = ({ d with workflow := { d.workflow with graph := g } }).saved := by
  obtain ⟨node, type, reference, origin, g, _, _, resolved, _, apart, checked, _, hg, _, rfl⟩ :=
    (move_eq_ok accepting).1 run
  have low : p.reference.isSome = true :=
    (isSome_of_resolve resolved).symm.trans (isSome_of_checkMove checked)
  obtain ⟨r, ref⟩ := Option.isSome_iff_exists.1 low
  exact ⟨r, g, ref, fun same => apart (same ▸ ref), hg, rfl⟩

section Moved

variable (accepting : env.Accepting) (regular : d.Regular env.registry) {p : Position}
  {moved : MovedNode} {g : Graph} {r r' : NodeId}
  (stands : d.workflow.graph.Stands n s e) (ref : p.reference = some r) (ne : r ≠ n)
  (hg : Graph.move n p d.workflow.graph = .ok () g) (orderly : g.Orderly)
  (layout : g.occupants =
    (d.workflow.graph.occupants.extract n s (closing s (leaving e true)) true).plant p.slot n)

include regular stands ref ne hg orderly layout in
/-- A node that goes back is planted in its slot as if it had only been taken out. -/
theorem layout_of_back {g' : Graph} (owner : s.owner? = some r') (ne' : r' ≠ n)
    (back : Graph.move n s.position g = .ok () g') : g'.occupants =
      (d.workflow.graph.occupants.extract n s (closing s (leaving e true)) true).plant s n ∧
        g'.Orderly := by
  have there : n ∈ d.workflow.graph.ids := mem_ids_of_find? stands.entry
  have closes : ∀ x ∈ closing s (leaving e true),
      ∃ t, Layout.givenUp n true t ∧ x ∈ d.workflow.graph.occupants t := fun x mem =>
    (mem_nextIds_iff_givenUp stands.entry).1 ((closing_sublist s _).subset mem)
  obtain ⟨free, out⟩ :=
    Layout.Orderly.vacant_extract regular.workflow.orderly stands.mem stands.own closes
  exact orderly.move_again ((mem_ids_move hg there).2 there) layout
    ⟨out, fun o => free (.south n o) (by simp [Slot.isSouthOf])⟩ (p.owner_slot.trans ref) ne owner
    ne' back

variable {reference : Node} {type : NodeType} (tree : d.workflow.graph.IsTree)
  (live : d.workflow.nodes.get? n = some node)
  (typed : env.registry.get? node.typeName = some type)
  (checked : d.workflow.checkMove type.kind node (some reference) = .ok ())

include stands ref ne hg layout tree in
/-- The slot that a node has left is not inside the node, as long as the node was not moved to a
slot inside itself. -/
theorem not_inside_moved (hr : r ∈ d.workflow.graph.ids)
    (outside : ¬ d.workflow.graph.occupants.Inside n r) (owner : s.owner? = some r') :
    g.IsTree ∧ ¬ g.occupants.Inside n r' := by
  have low : s ≠ .root := by
    rintro rfl
    cases owner
  have left : closing s (leaving e true) = e.nextIds := if_neg low
  rw [left] at layout
  obtain ⟨g', run, _, _, tree'⟩ := tree.exists_move stands.mem stands.entry
    (fun top => absurd top low) ref hr ne outside
  rw [hg] at run
  cases run
  refine ⟨tree', ?_⟩
  unfold IsTree at tree'
  rw [layout] at tree' ⊢
  -- The node could be planted in the slot it left as well, so neither slot is inside it.
  have back := Layout.IsTree.replant tree stands.mem
    (fun x => mem_nextIds_iff_givenUp stands.entry) rfl (nodup_nextIds tree.toOrderly stands.entry)
    (fun top => absurd top low) owner (tree.toOrderly.owner_mem stands.mem owner)
    (fun e => stands.own (e ▸ owner)) fun below =>
      tree.not_reach_owner stands.mem owner below.reach
  exact Layout.not_inside_replanted tree' back owner

include accepting regular stands ref ne hg orderly layout tree live typed checked in
theorem back_iff_admits (held : d.workflow.nodes.get? r = some reference) :
    (∃ moved d₂, move env n s.position
      ({ d with workflow := { d.workflow with graph := g } }).saved = .ok moved d₂) ↔
      d.workflow.Admits env.registry s := by
  obtain rfl : node.id = n := regular.filed.workflow.id live
  have there : node.id ∈ d.workflow.graph.ids := mem_ids_of_find? stands.entry
  have ids : ∀ m, m ∈ g.ids ↔ m ∈ d.workflow.graph.ids := fun m => mem_ids_move hg there
  constructor
  · rintro ⟨moved, d₂, back⟩
    obtain ⟨_, _, reference', _, _, _, _, resolved, placed, _, checked', _, _, _, _⟩ :=
      (move_eq_ok accepting).1 back
    rcases resolve_eq_ok.1 resolved with ⟨_, rfl⟩ | ⟨r', x, ref', held', rfl⟩
    · exact absurd (isSome_of_checkMove checked') (by simp)
    · obtain ⟨home, _, out, inside⟩ := checkPosition_eq_ok.1 placed
      exact ⟨r', x, s.reference_position.symm.trans ref', held', home, out, inside⟩
  · rintro ⟨r', x, owner, held', home, out, inside⟩
    obtain rfl : x.id = r' := regular.filed.workflow.id held'
    obtain rfl : reference.id = r := regular.filed.workflow.id held
    have ref' : s.position.reference = some x.id := s.reference_position.trans owner
    have hx : x.id ∈ g.ids := (ids x.id).2 (tree.toOrderly.owner_mem stands.mem owner)
    have hr : reference.id ∈ d.workflow.graph.ids :=
      (regular.filed.workflow.ids _).2 (NodeMap.mem_ids_of_get? held)
    have own : p.slot.owner? ≠ some node.id := by
      rw [p.owner_slot, ref]
      exact fun e => ne (Option.some.inj e)
    obtain ⟨low, _, _, same, outside⟩ := (checkMove_eq_ok (fun _ => tree) there).1 checked
    cases same
    have moved : type.kind = .container → g.IsTree ∧ ¬ g.occupants.Inside node.id x.id :=
      fun container => not_inside_moved stands ref ne hg layout tree hr (outside container) owner
    have at_p : g.position node.id = .ok p.slot.position :=
      orderly.position_eq (layout ▸ Layout.mem_plant_self _ _ _) own
    obtain ⟨g', back⟩ : ∃ g', Graph.move node.id s.position g = .ok () g' := by
      apply move_run (q := p.slot.position)
      · intro r'' ref''
        rw [ref'] at ref''
        cases ref''
        exact hx
      · exact at_p
    refine ⟨_, _, (move_eq_ok accepting).2 ⟨node, type, some x, p.slot.position, g', live, typed,
      resolve_eq_ok.2 (Or.inr ⟨x.id, x, ref', held', rfl⟩),
      checkPosition_eq_ok.2 ⟨home, hx, out, inside⟩, ?_, ?_, at_p, back, rfl, rfl⟩⟩
    · rw [ref']
      exact fun e => stands.own (owner.trans e)
    · refine (checkMove_eq_ok (fun container => (moved container).1) ((ids _).2 there)).2
        ⟨low, fun _ edge _ branch => ?_, x, rfl, fun container => (moved container).2⟩
      exact (congrFun layout _).trans (Layout.plant_branch own branch)

end Moved

/-- A node that was moved goes back if the slot that it left admits it. -/
theorem move_goesBack (accepting : env.Accepting) (regular : d.Regular env.registry)
    {p : Position} {moved : MovedNode} (run : move env n p d = .ok moved d₁) :
    ∃ s, moved.origin = s.position ∧ d.GoesBack env d₁ n s := by
  obtain ⟨node, type, reference, origin, g, live, typed, resolved, placed, apart, checked, at_p,
    hg, rfl, rfl⟩ := (move_eq_ok accepting).1 run
  have there : n ∈ d.workflow.graph.ids :=
    (regular.filed.workflow.ids n).2 (NodeMap.mem_ids_of_get? live)
  obtain ⟨r, _, ref, ne, _, _⟩ := exists_moved accepting run
  obtain ⟨s, e, stands, layout, orderly⟩ := regular.workflow.orderly.move there ref ne hg
  refine ⟨s, Except.ok.inj (at_p.symm.trans stands.position), stands.position, ?_, ?_⟩
  · intro valid
    rcases resolve_eq_ok.1 resolved with ⟨top, _⟩ | ⟨r', x, ref', held, rfl⟩
    · rw [ref] at top
      cases top
    · obtain rfl : r = r' := Option.some.inj (ref.symm.trans ref')
      exact back_iff_admits accepting regular stands ref ne hg orderly layout
        (validate_eq_ok_iff.1 valid) live typed checked held
  · intro moved' d₂ back
    obtain ⟨r', g', ref', ne', hg', rfl⟩ := exists_moved accepting back
    obtain ⟨layout', orderly'⟩ := layout_of_back regular stands ref ne hg orderly layout
      (s.reference_position.symm.trans ref') ne' hg'
    exact ⟨rfl, regular.workflow.orderly.returned_iff orderly' stands layout'⟩

end Edit

/-- Every deletion and every move that succeeds can be taken back as far as the slot allows. -/
structure Desk.Reversible (env : Setup) (d : Desk) : Prop where
  deletions : ∀ n actor node d₁, Edit.delete env n actor d = .ok node d₁ →
    ∃ s, d.Restores env d₁ n s
  moves : ∀ n p moved d₁, Edit.move env n p d = .ok moved d₁ →
    ∃ s, moved.origin = s.position ∧ d.GoesBack env d₁ n s

namespace Session

variable {name : String} {d : Desk}

/-- In any session, what a deletion or a move has done can be taken back at once, as long as the
slot of the node is still there. Nothing is lost exactly if the node was alone in its slot, had nothing
on its branches and left nothing that was inside it. Ids are counted in 64 bits, so fewer must be
drawn than there are. -/
theorem run_returns (branchUid : Nat → String) (nodeCache : Bool)
    (shelf : List (String × WorkflowId × String)) (steps : List Step)
    (room : (opened (.builtin branchUid) nodeCache shelf).demand steps < UInt64.size)
    (here : ((opened (.builtin branchUid) nodeCache shelf).run steps).desk? name = some d) :
    d.Reversible (.builtin branchUid) := by
  have accepting : (Setup.builtin branchUid).Accepting := fun _ => rfl
  have regular : d.Regular (Setup.builtin branchUid).registry :=
    regular_of_run branchUid nodeCache shelf steps room here
  constructor
  · intro n actor node d₁ run
    exact Edit.delete_restores accepting regular run
  · intro n p moved d₁ run
    exact Edit.move_goesBack accepting regular run

/-- The node behind a branch leads on by its default output only, so after it has come back all
nodes stand where they stood. -/
theorem run_returns_branching : ∃ d node d₁ node' d₂,
    (stepped branching).desk? "main" = some d ∧
    Edit.delete (.builtin fun _ => "branch") 3 none d = .ok node d₁ ∧
    Edit.restore (.builtin fun _ => "branch") 3 d₁ = .ok node' d₂ ∧
    d₂.workflow.nodes = d.workflow.nodes ∧
    ∀ m, d₂.workflow.graph.position m = d.workflow.graph.position m := by
  have facts : ((stepped branching).desk? "main").map (fun d =>
      (d.workflow.graph.position 3, d.workflow.graph.find? 2, d.workflow.graph.find? 3,
        (d.workflow.nodes.get? 2).any (·.hasOutput "x"),
        Edit.succeeds (Edit.delete (.builtin fun _ => "branch") 3 none) d)) =
      some (.ok (.south 2 "x"), some ⟨some (.single "x" [3]), none⟩,
        some ⟨some (.single "" [4]), none⟩, true, true) := by
    decide +kernel
  obtain ⟨d, here, facts⟩ := Option.map_eq_some_iff.1 facts
  simp only [Prod.mk.injEq, Option.any_eq_true] at facts
  obtain ⟨at_x, router, entry, ⟨reference, live, out⟩, deletes⟩ := facts
  obtain ⟨node, d₁, run⟩ := Edit.exists_of_succeeds deletes
  obtain ⟨s, position, succeeds, returned⟩ :=
    (run_returns _ _ _ branching (by decide +kernel) here).deletions 3 none node d₁ run
  have slot : s = .south 2 "x" := by
    rw [at_x] at position
    calc s
      _ = s.position.slot := s.slot_position.symm
      _ = (Position.south 2 "x").slot := congrArg Position.slot (Except.ok.inj position).symm
  subst slot
  obtain ⟨node', d₂, restored⟩ := succeeds.2 ⟨fun r owner => by
    cases owner
    exact ⟨reference, live, out⟩, nofun⟩
  obtain ⟨nodes, positions⟩ := returned node' d₂ restored
  refine ⟨d, node, d₁, node', d₂, here, run, restored, nodes, positions.2 ?_⟩
  refine ⟨?_, ?_, ?_, nofun⟩
  · rw [Graph.occupants_south router]
    simp [Entry.nextOn]
  · intro o branch
    rw [Graph.occupants_south entry]
    simp [Entry.nextOn, Ne.symm branch]
  · intro _
    rw [Graph.occupants_child entry]
    rfl

/-- Where a node of a session stands. -/
def whereabouts (s : Session) (n : NodeId) : Option (Except GraphFault Position) :=
  (s.desk? "main").map fun d => d.workflow.graph.position n

/-- A node that is not a router is deleted and moved although there is a node on its branch. When it
is back, that node is on its default output. A node on a branch that was dropped is deleted as well
and does not come back at all. -/
theorem stepped_changes_output :
    (stepped branching).whereabouts 3 = some (.ok (.south 2 "x")) ∧
    (let delete : Operation := .request (.delete 2 none)
      let back : Operation := .restore 2
      (stepped branching).accepts delete = some true ∧
        (stepped (branching ++ [.operate "main" delete, .operate "main" back])).whereabouts 3
          = some (.ok (.south 2 ""))) ∧
    (let move : Operation := .request (.move 2 (.south 5 ""))
      let back : Operation := .request (.move 2 (.south 1 ""))
      (stepped branching).accepts move = some true ∧
        (stepped (branching ++ [.operate "main" move, .operate "main" back])).whereabouts 3
          = some (.ok (.south 2 ""))) ∧
    (let update : Operation := .request (.update 2 { service := some .null })
      let delete : Operation := .request (.delete 3 none)
      (stepped (branching ++ [.operate "main" update])).accepts delete = some true ∧
        (stepped (branching ++ [.operate "main" update, .operate "main" delete])).accepts
          (.restore 3) = some false) := by
  decide +kernel

end Session

end Autoflow
