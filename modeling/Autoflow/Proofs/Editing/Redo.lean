import Autoflow.Proofs.Editing.Neat
import Autoflow.Proofs.Editing.Soundness
import Autoflow.Proofs.Graph.Alike

/-!
# Doing an action again

To take an action back is to do its inverse again (`undo_eq_redo`). An action spans two
workflows if it goes from the one to the other, and its inverse spans them the other way
(`Spans.inverse`). As long as the trash keeps what the action takes out of it (`Kept`), the
action is done again from every desk whose workflow matches the first of the two, and the
workflow matches the second one then (`redo_did`).
-/

namespace Autoflow

open Workflow (Planted Swapped Updated Moved)

namespace Action

/-- The action that takes an action back. -/
def inverse : Action → Action
  | create n | duplicate _ n => delete n
  | update n before after => update n after before
  | delete n => create n
  | replace n typeName former formerType => replace former formerType n typeName
  | move n origin destination => move n destination origin

theorem undo_eq_redo (env : Setup) (a : Action) : a.undo env = a.inverse.redo env := by
  cases a <;> rfl

/-- The node that is taken out of the trash when an action is done again. -/
def wanted : Action → Option NodeId
  | create n | duplicate _ n | replace n _ _ _ => some n
  | update _ _ _ | delete _ | move _ _ _ => none

/-- An action goes from one workflow to another one. -/
def Spans (registry : Registry) (a : Action) (w w' : Workflow) : Prop :=
  match a with
  | create n | duplicate _ n => ∃ s node, Planted n s node w w'
  | update n before after =>
    ∃ old new, before = .ofNode old ∧ after = .ofNode new ∧ Updated n old new w w'
  | delete n => ∃ s node, Planted n s node w' w
  | replace n _ former _ => ∃ old new, Swapped former n old new w w'
  | move n origin destination => Moved registry n origin destination w w'

/-- The trash keeps what has to come out of it for an action to lead to a workflow: a deleted
node with the slot it has there, or a replaced one. -/
def Kept (a : Action) (w : Workflow) (trash : Trash) : Prop :=
  match a with
  | create n | duplicate _ n => ∃ entry s, trash.get? n = some entry ∧ entry.workflow = w.id ∧
      entry.isManaged = false ∧ w.nodes.get? n = some entry.node ∧
      entry.position = some (Slot.position s) ∧ n ∈ w.graph.occupants s
  | replace n _ _ _ => ∃ entry, trash.get? n = some entry ∧ entry.isManaged = true ∧
      w.nodes.get? n = some entry.node
  | update _ _ _ | delete _ | move _ _ _ => True

variable {registry : Registry} {a : Action} {w w' : Workflow} {trash trash' : Trash} {n : NodeId}

theorem Spans.inverse (h : a.Spans registry w w') : a.inverse.Spans registry w' w := by
  cases a with
  | create n => exact h
  | duplicate s n => exact h
  | delete n => exact h
  | update n before after =>
    obtain ⟨old, new, hb, ha, updated⟩ := h
    exact ⟨new, old, ha, hb, updated.symm⟩
  | replace n _ former _ =>
    obtain ⟨old, new, swapped⟩ := h
    exact ⟨new, old, swapped.symm⟩
  | move n origin destination => exact Moved.symm h

theorem Kept.congr (h : a.Kept w trash)
    (same : ∀ n, a.wanted = some n → trash'.get? n = trash.get? n) : a.Kept w trash' := by
  cases a with
  | create n | duplicate _ n =>
    obtain ⟨entry, s, he, rest⟩ := h
    exact ⟨entry, s, (same n rfl).trans he, rest⟩
  | replace n _ _ _ =>
    obtain ⟨entry, he, rest⟩ := h
    exact ⟨entry, (same n rfl).trans he, rest⟩
  | update _ _ _ | delete _ | move _ _ _ => trivial

theorem Kept.trashed (h : a.Kept w trash) (wanted : a.wanted = some n) : trash.get? n ≠ none := by
  cases a with
  | create n | duplicate _ n =>
    cases wanted
    obtain ⟨entry, s, he, _⟩ := h
    rw [he]
    exact nofun
  | replace n _ _ _ =>
    cases wanted
    obtain ⟨entry, he, _⟩ := h
    rw [he]
    exact nofun
  | update _ _ _ | delete _ | move _ _ _ => cases wanted

end Action

namespace Desk

/-- An action was done: the workflow on the desk is the one it leads to, and the trash keeps what
it takes to go back. -/
structure Did (registry : Registry) (drawn : Nat) (a : Action) (w w' : Workflow) (d d' : Desk) :
    Prop where
  tidy : d'.Tidy registry drawn
  reached : d'.workflow.Matches w'
  pruned : d.workflow.graph.Pruned → d'.workflow.graph.Pruned
  kept : a.inverse.Kept w d'.editor.trash
  trash : ∀ n, a.wanted ≠ some n → a.inverse.wanted ≠ some n →
    d'.editor.trash.get? n = d.editor.trash.get? n
  live : ∀ n, a.inverse.wanted = some n → n ∈ d.workflow.nodes.ids

section Redo

open Edit

variable {env : Setup} {drawn : Nat} {d : Desk} {w w' : Workflow} {n m : NodeId} {s : Slot}
  {node old new : Node} {origin destination : Position}
  (accepting : env.Accepting) (tidy : d.Tidy env.registry drawn) (here : d.workflow.Matches w)
  (neat : w.Neat env.registry) (neat' : w'.Neat env.registry)

include accepting tidy here neat' in
/-- A node in the trash goes back to the slot it had. -/
theorem restore_did (h : Planted n s node w w')
    (kept : (Action.create n).Kept w' d.editor.trash) :
    ∃ node d', restore env n d = .ok node d' ∧ Did env.registry drawn (.create n) w w' d d' := by
  obtain ⟨entry, t, he, home, managed, live, position, mem⟩ := kept
  obtain rfl : t = s := neat'.tree.slot_unique mem h.mem
  have housed := neat'.housed live
  have same : node = entry.node := Option.some.inj (h.live.symm.trans live)
  subst same
  have own := h.own neat'.toFits
  have outlet : ∀ r, t.owner? = some r → ∃ reference, d.workflow.nodes.get? r = some reference ∧
      reference.hasOutput t.position.output = true := by
    intro r owner
    obtain ⟨reference, hr, out, _⟩ := neat'.outlet h.mem owner
    refine ⟨reference, ?_, out⟩
    rw [here.nodes, ← h.other fun e => own (e ▸ owner)]
    exact hr
  have off : n ∉ d.workflow.graph.ids := tidy.fits.not_mem_graph (here.nodes ▸ h.new)
  obtain ⟨g, run, layout, _⟩ := tidy.fits.tree.exists_insert off (p := t.position) fun r ref => by
    rw [Slot.reference_position] at ref
    obtain ⟨reference, hr, _⟩ := outlet r ref
    exact tidy.fits.mem_graph hr
  have done := (restore_eq_ok accepting).2 ⟨entry, t.position, g, he,
    recordedPosition_eq_ok.2 ⟨home.trans (h.id.trans here.id.symm), managed, position⟩,
    checkRestore_eq_ok.2 (by
      rw [Slot.reference_position]
      cases owner : t.owner? with
      | some r =>
        obtain ⟨reference, hr, out⟩ := outlet r owner
        exact Or.inl ⟨r, reference, rfl, hr, out⟩
      | none =>
        obtain ⟨type, ht⟩ := housed.type
        have empty := h.first (Slot.eq_root_of_owner owner)
        rw [← here.layout] at empty
        exact Or.inr ⟨rfl, type, ht, fun _ => Graph.occupants_root_eq_nil.1 empty⟩),
    run, rfl, rfl⟩
  refine ⟨_, _, done, tidy.restored accepting done, ⟨here.id.trans h.id.symm, ?_, ?_⟩,
    fun pruned => pruned.insert run, trivial, fun k ne _ => ?_, by rintro k ⟨⟩⟩
  · show g.occupants = _
    rw [layout, Slot.slot_position, here.layout, h.layout]
  · refine NodeMap.ext_get? fun k => ?_
    rw [h.nodes k, ← here.nodes]
    exact Workflow.get?_addNode housed.id _ k
  · exact (get?_takenBack d n k).trans (if_neg fun e => ne (congrArg some e))

include accepting tidy here neat neat' in
/-- A node that was planted is deleted. -/
theorem delete_did (h : Planted n s node w' w) :
    ∃ node d', delete env n none d = .ok node d' ∧
      Did env.registry drawn (.delete n) w w' d d' := by
  have live : d.workflow.nodes.get? n = some node := here.nodes ▸ h.live
  have housed := tidy.fits.housed live
  obtain ⟨type, ht⟩ := housed.type
  have there := tidy.fits.mem_graph live
  have own := h.own neat.toFits
  have mem : n ∈ d.workflow.graph.occupants s := here.layout ▸ h.mem
  have behind : d.workflow.graph.occupants (.south n "") = w'.graph.occupants s := by
    rw [here.layout, h.layout, Layout.plant_default own]
  have branches : ∀ o, o ≠ "" → d.workflow.graph.occupants (.south n o) = [] := by
    intro o branch
    rw [here.layout, h.layout, Layout.plant_branch own branch]
  have bare : d.workflow.graph.occupants (.child n) = [] := by
    rw [here.layout, h.layout, Layout.plant_child own]
    exact Graph.occupants_eq_nil (neat'.not_mem_graph h.new) rfl
  obtain ⟨e, he⟩ := Graph.mem_ids_iff.1 there
  have successors := Graph.successors_eq he branches bare
  have legal : d.workflow.checkDelete type.kind node = .ok () := by
    rw [← housed.id] at there bare branches behind
    refine (Workflow.checkDelete_eq_ok there).2 ⟨fun trigger o => ?_, fun _ => bare,
      fun _ e _ branch => branches e.uid branch⟩
    by_cases branch : o = ""
    · have first := tidy.fits.tree.slot_unique mem ((tidy.fits.root_iff live ht).2 trigger)
      rw [branch, behind, first]
      exact h.first first
    · exact branches o branch
  obtain ⟨g, run, layout, _⟩ := tidy.fits.tree.exists_remove mem he fun top => by
    rw [successors, behind, top, h.first top]
    exact Nat.zero_le 1
  have new : d.editor.trash.get? node.id = none := housed.id ▸ tidy.not_trashed live
  have done : delete env n none d = .ok node _ := (delete_eq_ok accepting).2 ⟨type, s.position, g,
    live, ht, legal, tidy.fits.tree.position_eq mem, run, new, rfl⟩
  have trash : ∀ k, (thrownAway d (deletion d node none s.position)).editor.trash.get? k =
      if n = k then some (deletion d node none s.position) else d.editor.trash.get? k :=
    get?_thrownAway housed.id d
  refine ⟨_, _, done, tidy.deleted accepting done, ⟨here.id.trans h.id, ?_, ?_⟩,
    fun pruned => pruned.remove run,
    ⟨_, s, (trash n).trans (if_pos rfl), here.id, rfl, h.live, rfl, h.mem⟩,
    fun k _ ne => (trash k).trans (if_neg fun e => ne (congrArg some e)), ?_⟩
  · show g.occupants = _
    rw [layout, successors, behind, here.layout, h.layout]
    exact Layout.plant_extract (neat'.vacant h.new) fun _ =>
      Graph.occupants_eq_nil (neat'.not_mem_graph h.new) rfl
  · refine NodeMap.ext_get? fun k => (Workflow.get?_takeNode d.workflow n k).trans ?_
    by_cases e : n = k
    · rw [if_pos e, ← e, h.new]
    · rw [if_neg e, here.nodes, h.other e]
  · intro k e
    cases e
    exact NodeMap.mem_ids_of_get? live

include accepting tidy here neat neat' in
/-- A node in the trash takes the place back that another one has. -/
theorem restoreReplaced_did (h : Swapped n m old new w w') {typeName formerType : String}
    (kept : (Action.replace m typeName n formerType).Kept w' d.editor.trash) :
    ∃ r d', restoreReplaced env n m d = .ok r d' ∧
      Did env.registry drawn (.replace m typeName n formerType) w w' d d' := by
  obtain ⟨entry, he, managed, there⟩ := kept
  have same : new = entry.node := Option.some.inj (h.symm.live.symm.trans there)
  subst same
  have live : d.workflow.nodes.get? n = some old := here.nodes ▸ h.live
  have off : d.workflow.nodes.get? m = none := here.nodes ▸ h.off
  have id := (tidy.fits.housed live).id
  have housed := neat'.housed there
  have known : n ∈ d.workflow.nodes.ids := NodeMap.mem_ids_of_get? live
  obtain ⟨s, hs⟩ := tidy.fits.tree.exists_slot (tidy.fits.mem_graph live)
  obtain ⟨g, run, layout, _⟩ := tidy.fits.tree.exists_replace (tidy.fits.mem_graph live)
    (tidy.fits.not_mem_graph off)
  have position := tidy.fits.tree.position_eq hs
  have done : restoreReplaced env n m d = .ok _ _ := (restoreReplaced_eq_ok accepting).2
    ⟨entry, old, s.position, g, he, managed, live, position, housed.id ▸ run,
      id ▸ tidy.not_trashed live, rfl, rfl⟩
  have nodes : ∀ k, ((d.workflow.nodes.erase n).insert entry.node.id entry.node).get? k =
      if m = k then some entry.node else if n = k then none else d.workflow.nodes.get? k := by
    intro k
    rw [housed.id]
    exact (NodeMap.get?_insert _ _ _ _).trans
      (if_congr Iff.rfl rfl (Workflow.get?_takeNode d.workflow n k))
  have retired : (retirement d old none s.position).node.id = n := id
  have trash : ∀ k, (takenBack (thrownAway d (retirement d old none s.position))
      m).editor.trash.get? k = if m = k then none
        else if n = k then some (retirement d old none s.position)
        else d.editor.trash.get? k := by
    intro k
    rw [get?_takenBack, get?_thrownAway retired]
  have root : w'.graph.root = some m ↔ w.graph.root = some n := by
    rw [Graph.root_of_relabel h.layout, Equiv.swap_apply_right]
  refine ⟨_, _, done, ?_, ⟨here.id.trans h.id.symm, ?_, ?_⟩, fun pruned => pruned.replace run,
    ⟨_, (trash n).trans ((if_neg (Ne.symm h.ne)).trans (if_pos rfl)), rfl, h.live⟩,
    fun k ne ne' => (trash k).trans ((if_neg fun e => ne (congrArg some e)).trans
      (if_neg fun e => ne' (congrArg some e))), ?_⟩
  · refine tidy.swapped (m := m) (e := retirement d old none s.position) (Nat.le_refl _) rfl ?_
      nodes trash ?_ tidy.next (tidy.numbered m _ (Or.inr ⟨entry, he, rfl⟩)) live
      (NodeMap.get?_eq_none_iff.1 off) ?_ rfl ?_
    · refine tidy.fits.replaced rfl run nodes live (NodeMap.get?_eq_none_iff.1 off)
        ⟨housed.id, housed.workflow.trans (h.id.trans here.id.symm), housed.type⟩
        (here.layout ▸ h.bare) ?_
      rw [neat'.trigger there, root, neat.trigger h.live]
    · exact fun k hk => Workflow.simulateUntil_takeNode hk
    · intro e he'
      rw [he] at he'
      cases he'
      rfl
    · intro p hp
      cases hp
      exact position
  · show g.occupants = _
    rw [layout, here.layout, h.layout]
  · refine NodeMap.ext_get? fun k => (nodes k).trans ?_
    rw [h.nodes k, here.nodes]
  · intro k e
    cases e
    exact known

include tidy here neat' in
/-- A node gets its values of another time. -/
theorem update_did (scripts : env.registry.Scripts) (h : Updated n old new w w') :
    ∃ u d', update env n (.ofNode new) d = .ok u d' ∧
      Did env.registry drawn (.update n (.ofNode old) (.ofNode new)) w w' d d' := by
  have live : d.workflow.nodes.get? n = some old := here.nodes ▸ h.live
  have housed := tidy.fits.housed live
  have there := tidy.fits.mem_graph live
  obtain ⟨type, ht⟩ := housed.type
  obtain ⟨kind, scripted⟩ := scripts _ _ ht
  have build : type.build new.service.config = .ok new.service := by
    rw [scripted]
    exact NodeType.build_config (neat'.scripted h.symm.live)
  have legal : d.workflow.checkUpdate type.kind old new.service = .ok () := by
    rw [← housed.id] at there
    refine (Workflow.checkUpdate_eq_ok there).2 fun _ e _ _ gone => ?_
    by_contra used
    rw [housed.id, here.layout, ← h.layout] at used
    obtain ⟨node, hn, out⟩ := neat'.exposed used
    rw [h.symm.live] at hn
    cases hn
    rw [show new.hasOutput e.uid = false from gone] at out
    cases out
  have done : update env n (.ofNode new) d = .ok _ _ := update_eq_ok.2 ⟨old, type, new.service,
    live, ht, Or.inr ⟨_, rfl, build, legal⟩, rfl, rfl⟩
  refine ⟨_, _, done, tidy.updated done, ⟨here.id.trans h.id.symm, ?_, ?_⟩, fun pruned => pruned,
    trivial, fun k _ _ => rfl, nofun⟩
  · exact here.layout.trans h.layout.symm
  · refine NodeMap.ext_get? fun k => ?_
    have id : (updatedNode old (.ofNode new) new.service).id = n := housed.id
    have same : updatedNode old (.ofNode new) new.service = new := h.same.symm
    rw [h.nodes k, ← here.nodes]
    exact (Workflow.get?_addNode id d.workflow k).trans (by rw [same])

include accepting tidy here neat neat' in
/-- A node moves to a slot where it may stand. -/
theorem move_did (h : Moved env.registry n origin destination w w') :
    ∃ m d', move env n destination d = .ok m d' ∧
      Did env.registry drawn (.move n origin destination) w w' d d' := by
  obtain ⟨K, vacant, layout, layout'⟩ := h.layout
  have own := h.origin.own
  have mem : n ∈ d.workflow.graph.occupants origin.slot := here.layout ▸ h.mem
  obtain ⟨node, live⟩ := tidy.fits.exists_node (tidy.fits.tree.mem mem)
  have housed := tidy.fits.housed live
  have there := tidy.fits.mem_graph live
  obtain ⟨type, ht⟩ := housed.type
  obtain ⟨r, reference, ref, ne, hr, out, container⟩ := h.destination.outlet
  rw [← here.nodes] at hr
  have owner : destination.slot.owner? = some r := destination.owner_slot.trans ref
  have low : origin.slot ≠ .root := by
    obtain ⟨r', _, ref', _⟩ := h.origin.outlet
    intro top
    have owner' := origin.owner_slot
    rw [top, ref'] at owner'
    cases owner'
  have branches : ∀ o, o ≠ "" → d.workflow.graph.occupants (.south n o) = [] := by
    intro o branch
    rw [here.layout, layout, Layout.plant_branch own branch]
  have outside : ¬ d.workflow.graph.occupants.Inside n r := by
    have tree := neat.tree
    have tree' := neat'.tree
    unfold Graph.IsTree at tree tree'
    rw [layout] at tree
    rw [layout'] at tree'
    rw [here.layout, layout]
    exact Layout.not_inside_replanted tree tree' owner
  have legal : d.workflow.checkMove type.kind node (some reference) = .ok () := by
    have id := (tidy.fits.housed hr).id
    rw [← housed.id] at there branches outside
    refine (Workflow.checkMove_eq_ok (fun _ => tidy.fits.tree) there).2 ⟨fun trigger => ?_,
      fun _ e _ branch => branches e.uid branch, reference, rfl, fun _ => id ▸ outside⟩
    exact low (tidy.fits.tree.slot_unique mem ((tidy.fits.root_iff live ht).2 trigger))
  obtain ⟨e, he⟩ := Graph.mem_ids_iff.1 there
  obtain ⟨g, run, after, _⟩ := tidy.fits.tree.exists_move mem he (fun top => absurd top low) ref
    (tidy.fits.mem_graph hr) ne outside
  have placed : d.workflow.checkPosition env.registry (some reference) destination = .ok () :=
    Workflow.checkPosition_eq_ok.2 ⟨(tidy.fits.housed hr).workflow,
      (tidy.fits.housed hr).id ▸ tidy.fits.mem_graph hr, out, container⟩
  have done : move env n destination d = .ok _ _ := (move_eq_ok accepting).2 ⟨node, type,
    some reference, origin.slot.position, g, live, ht,
    Workflow.resolve_eq_ok.2 (Or.inr ⟨r, reference, ref, hr, rfl⟩), placed,
    fun e => ne (Option.some.inj (ref.symm.trans e)), legal, tidy.fits.tree.position_eq mem, run,
    rfl, rfl⟩
  refine ⟨_, _, done, tidy.moved accepting done, ⟨here.id.trans h.id.symm, ?_, ?_⟩,
    fun pruned => pruned.move run, trivial, fun k _ _ => rfl, nofun⟩
  · have behind : d.workflow.graph.occupants (.south n "") = K origin.slot := by
      rw [here.layout, layout, Layout.plant_default own]
    have back : (K.plant origin.slot n).extract n origin.slot (K origin.slot) true = K :=
      Layout.plant_extract vacant fun e => by cases e
    show g.occupants = _
    rw [after, Graph.nextIds_eq he branches, behind, here.layout, layout, back, layout']
  · exact here.nodes.trans h.nodes.symm

include accepting tidy here neat neat' in
/-- An action is done again wherever the workflow matches the one that it started from. -/
theorem redo_did (scripts : env.registry.Scripts) {a : Action} (h : a.Spans env.registry w w')
    (kept : a.Kept w' d.editor.trash) :
    ∃ d', a.redo env d = .ok () d' ∧ Did env.registry drawn a w w' d d' := by
  cases a with
  | create n =>
    obtain ⟨s, node, planted⟩ := h
    obtain ⟨_, d', run, did⟩ := restore_did accepting tidy here neat' planted kept
    exact ⟨d', bind_eq_ok.2 ⟨_, _, run, rfl⟩, did⟩
  | duplicate source n =>
    obtain ⟨s, node, planted⟩ := h
    obtain ⟨_, d', run, did⟩ := restore_did accepting tidy here neat' planted kept
    exact ⟨d', bind_eq_ok.2 ⟨_, _, run, rfl⟩, did.tidy, did.reached, did.pruned, did.kept,
      did.trash, did.live⟩
  | delete n =>
    obtain ⟨s, node, planted⟩ := h
    obtain ⟨_, d', run, did⟩ := delete_did accepting tidy here neat neat' planted
    exact ⟨d', bind_eq_ok.2 ⟨_, _, run, rfl⟩, did⟩
  | update n before after =>
    obtain ⟨old, new, rfl, rfl, updated⟩ := h
    obtain ⟨_, d', run, did⟩ := update_did tidy here neat' scripts updated
    exact ⟨d', bind_eq_ok.2 ⟨_, _, run, rfl⟩, did⟩
  | replace n typeName former formerType =>
    obtain ⟨old, new, swapped⟩ := h
    obtain ⟨_, d', run, did⟩ := restoreReplaced_did accepting tidy here neat neat' swapped kept
    exact ⟨d', bind_eq_ok.2 ⟨_, _, run, rfl⟩, did⟩
  | move n origin destination =>
    obtain ⟨_, d', run, did⟩ := move_did accepting tidy here neat neat' h
    exact ⟨d', bind_eq_ok.2 ⟨_, _, run, rfl⟩, did⟩

end Redo

end Desk

end Autoflow
