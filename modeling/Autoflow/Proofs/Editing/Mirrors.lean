import Autoflow.Proofs.Editing.Exchanges
import Autoflow.Proofs.Graph.Relabeling

/-!
# Mirrored workflows

A workflow is mirrored by one with other ids if a permutation takes the one to the other, and a
desk by one whose workflow is mirrored and whose trash holds the mirrored nodes of the workflow.
Nodes of other workflows may be in either trash. A check that a workflow passes is passed by its
mirror image, and what changes a desk and its mirror image alike leaves them mirrored.
-/

namespace Autoflow

/-- A node under another id. -/
def Node.relabel (f : NodeId → NodeId) (node : Node) : Node := { node with id := f node.id }

/-- A node in the trash under another id, with another name for the reference of its slot. -/
def TrashEntry.relabel (f : NodeId → NodeId) (e : TrashEntry) : TrashEntry :=
  { e with node := e.node.relabel f, position := e.position.map (Position.relabel f) }

@[simp] theorem TrashEntry.isManaged_relabel (f : NodeId → NodeId) (e : TrashEntry) :
    (e.relabel f).isManaged = e.isManaged := rfl

namespace Workflow

/-- A workflow is another one with its ids exchanged by a permutation. -/
structure Relabels (σ : Equiv.Perm NodeId) (w w' : Workflow) : Prop where
  graph : w'.graph = w.graph.relabel σ
  nodes : ∀ n, w'.nodes.get? (σ n) = (w.nodes.get? n).map (Node.relabel σ)
  marker : w'.simulateUntil = w.simulateUntil.map σ
  id : w'.id = w.id
  name : w'.name = w.name

namespace Relabels

variable {σ : Equiv.Perm NodeId} {w w' : Workflow} (h : w.Relabels σ w') {registry : Registry}
  {n : NodeId} {node : Node} {p : Position} {reference : Option Node} {kind : NodeKind}

include h

/-- A live node is live in the mirror image, under its other id. -/
theorem get? (hn : w.nodes.get? n = some node) :
    w'.nodes.get? (σ n) = some (node.relabel σ) := by
  rw [h.nodes n, hn]
  rfl

/-- The live nodes of the mirror image are the mirrored ones. -/
theorem mem_nodes : σ n ∈ w'.nodes.ids ↔ n ∈ w.nodes.ids := by
  rw [NodeMap.mem_ids_iff, NodeMap.mem_ids_iff, h.nodes n]
  simp

/-- So are the nodes of its graph. -/
theorem mem_ids : σ n ∈ w'.graph.ids ↔ n ∈ w.graph.ids := by
  rw [h.graph, Graph.ids_image, List.mem_map_of_injective σ.injective]

theorem root : w'.graph.root = w.graph.root.map σ := by
  rw [h.graph]
  rfl

/-- Each slot of the mirror image holds the mirrored nodes, in the same order. -/
theorem occupants (s : Slot) :
    w'.graph.occupants (s.rename σ) = (w.graph.occupants s).map σ := by
  rw [h.graph, Graph.occupants_image, Layout.relabel, Slot.rename_rename]
  simp

/-- So slots that are free are free in both. -/
theorem occupants_eq_nil (s : Slot) :
    w'.graph.occupants (s.rename σ) = [] ↔ w.graph.occupants s = [] := by
  rw [h.occupants, List.map_eq_nil_iff]

/-! ## Checks -/

/-- A position is resolved to the mirrored reference. -/
theorem resolve (hr : w.resolve p = .ok reference) :
    w'.resolve (p.relabel σ) = .ok (reference.map (Node.relabel σ)) := by
  rcases resolve_eq_ok.1 hr with ⟨ref, rfl⟩ | ⟨r, node, ref, hn, rfl⟩
  · exact resolve_eq_ok.2 (Or.inl ⟨by simp [Position.relabel, ref], rfl⟩)
  · exact resolve_eq_ok.2 (Or.inr ⟨σ r, _, by simp [Position.relabel, ref], h.get? hn, rfl⟩)

/-- Whether a reference exposes a slot depends on its type and outputs, which the mirrored one
shares. -/
theorem checkPosition (hp : w.checkPosition registry reference p = .ok ()) :
    w'.checkPosition registry (reference.map (Node.relabel σ)) (p.relabel σ) = .ok () := by
  cases reference with
  | none => rfl
  | some r =>
    obtain ⟨home, mem, out, inside⟩ := checkPosition_eq_ok.1 hp
    exact checkPosition_eq_ok.2 ⟨home.trans h.id.symm, h.mem_ids.2 mem, out, inside⟩

/-- What may be created at a slot may be created at the mirrored one. -/
theorem checkCreate (hc : w.checkCreate kind reference = .ok ()) :
    w'.checkCreate kind (reference.map (Node.relabel σ)) = .ok () := by
  refine checkCreate_eq_ok.2 ((checkCreate_eq_ok.1 hc).imp ?_ ?_)
  · rintro ⟨trigger, root, rfl⟩
    exact ⟨trigger, by rw [h.root, root]; rfl, rfl⟩
  · rintro ⟨other, some⟩
    exact ⟨other, by rw [Option.isSome_map, some]⟩

/-- Branches without nodes have none in the mirror image. -/
theorem bareBranches (bare : w.BareBranches node) : w'.BareBranches (node.relabel σ) :=
  fun e mem branch => (h.occupants_eq_nil (.south node.id e.uid)).2 (bare e mem branch)

/-- What may be deleted may be deleted in the mirror image. -/
theorem checkDelete (mem : node.id ∈ w.graph.ids) (hc : w.checkDelete kind node = .ok ()) :
    w'.checkDelete kind (node.relabel σ) = .ok () := by
  obtain ⟨trigger, container, router⟩ := (checkDelete_eq_ok mem).1 hc
  exact (checkDelete_eq_ok (h.mem_ids.2 mem)).2
    ⟨fun k o => (h.occupants_eq_nil (.south node.id o)).2 (trigger k o),
      fun k => (h.occupants_eq_nil (.child node.id)).2 (container k),
      fun k => h.bareBranches (router k)⟩

/-- What may be replaced may be replaced in the mirror image. -/
theorem checkReplace {old new : NodeType} (mem : node.id ∈ w.graph.ids)
    (hc : w.checkReplace old new node = .ok ()) :
    w'.checkReplace old new (node.relabel σ) = .ok () := by
  obtain ⟨container, router, kinds⟩ := (checkReplace_eq_ok mem).1 hc
  exact (checkReplace_eq_ok (h.mem_ids.2 mem)).2
    ⟨fun k => (h.occupants_eq_nil (.child node.id)).2 (container k),
      fun k => h.bareBranches (router k), kinds⟩

/-- The walk through the children of a container goes the same way in the mirror image, so what it
does not come to it does not come to there. -/
theorem liesInside {m : NodeId} (mem : n ∈ w.graph.ids)
    (outside : w.liesInside m n = .ok false) : w'.liesInside (σ m) (σ n) = .ok false := by
  have inside : w'.graph.reach (σ n) [] (w'.graph.occupants (.child (σ n))).reverse =
      (w.graph.reach n [] (w.graph.occupants (.child n)).reverse).map σ := by
    have behind : w'.graph.occupants (.child (σ n)) = (w.graph.occupants (.child n)).map σ :=
      h.occupants (.child n)
    rw [behind, ← List.map_reverse, h.graph]
    exact Graph.reach_image σ w.graph n [] _
  unfold Workflow.liesInside at *
  rw [Graph.descendants_eq (h.mem_ids.2 mem), inside]
  rw [Graph.descendants_eq mem] at outside
  simpa [Except.map, List.mem_map_of_injective σ.injective] using outside

/-- What may be moved may be moved in the mirror image. -/
theorem checkMove (mem : node.id ∈ w.graph.ids)
    (hc : w.checkMove kind node reference = .ok ()) :
    w'.checkMove kind (node.relabel σ) (reference.map (Node.relabel σ)) = .ok () := by
  unfold Workflow.checkMove at *
  cases kind with
  | trigger => cases hc
  | action =>
    cases reference <;> first | rfl | cases hc
  | router =>
    obtain ⟨bare, some⟩ := Except.bind_unit_eq_ok.1 hc
    replace bare := h.bareBranches ((hasNodeOnEdge_eq_false_iff mem).1 (refuseIf_eq_ok.1 bare))
    refine Except.bind_unit_eq_ok.2 ⟨refuseIf_eq_ok.2 ?_, ?_⟩
    · exact (hasNodeOnEdge_eq_false_iff (h.mem_ids.2 mem)).2 bare
    · cases reference <;> first | rfl | cases some
  | container =>
    cases reference with
    | none => cases hc
    | some r =>
      obtain ⟨outside, _⟩ := Except.bind_unit_eq_ok.1 hc
      refine Except.bind_unit_eq_ok.2 ⟨refuseIf_eq_ok.2 ?_, rfl⟩
      exact h.liesInside mem (refuseIf_eq_ok.1 outside)

/-- The branches that an update would drop are free in the mirror image if they are free. -/
theorem checkUpdate {service : Service} (mem : node.id ∈ w.graph.ids)
    (hc : w.checkUpdate kind node service = .ok ()) :
    w'.checkUpdate kind (node.relabel σ) service = .ok () :=
  (checkUpdate_eq_ok (h.mem_ids.2 mem)).2 fun k e edge branch gone =>
    (h.occupants_eq_nil (.south node.id e.uid)).2 ((checkUpdate_eq_ok mem).1 hc k e edge branch gone)

/-- A node stands in the mirrored slot. -/
theorem position (hp : w.graph.position n = .ok p) :
    w'.graph.position (σ n) = .ok (p.relabel σ) := by
  rw [h.graph]
  exact Graph.position_image σ hp

/-! ## Changes -/

/-- An insertion that succeeds does so in the mirror image and leaves it mirrored, and so do the
other edits of a graph. -/
theorem insert {g : Graph} (run : Graph.insert n p w.graph = .ok () g) :
    Graph.insert (σ n) (p.relabel σ) w'.graph = .ok () (g.relabel σ) := by
  rw [h.graph]
  exact Graph.insert_image σ run

theorem remove {g : Graph} (run : Graph.remove n false w.graph = .ok () g) :
    Graph.remove (σ n) false w'.graph = .ok () (g.relabel σ) := by
  rw [h.graph]
  exact Graph.remove_image σ run

theorem replace {g : Graph} {m : NodeId} (run : Graph.replace n m w.graph = .ok () g) :
    Graph.replace (σ n) (σ m) w'.graph = .ok () (g.relabel σ) := by
  rw [h.graph]
  exact Graph.replace_image σ run

theorem move {g : Graph} {q : Position} (held : ∀ r, p.reference = some r → r ∈ w.graph.ids)
    (hq : w.graph.position n = .ok q) (run : Graph.move n p w.graph = .ok () g) :
    Graph.move (σ n) (p.relabel σ) w'.graph = .ok () (g.relabel σ) := by
  rw [h.graph]
  exact Graph.move_image σ held hq run

theorem setGraph (g : Graph) :
    ({ w with graph := g } : Workflow).Relabels σ { w' with graph := g.relabel σ } :=
  ⟨rfl, h.nodes, h.marker, h.id, h.name⟩

/-- Adding a node and its mirror image under the other id leaves workflows mirrored. -/
theorem addNode (node : Node) : (w.addNode node).Relabels σ (w'.addNode (node.relabel σ)) where
  graph := h.graph
  nodes n := by
    refine (get?_addNode (n := σ node.id) rfl w' (σ n)).trans ?_
    rw [get?_addNode rfl]
    by_cases same : node.id = n
    · simp [same]
    · simp [same, h.nodes]
  marker := h.marker
  id := h.id
  name := h.name

/-- So does taking both out, also if one was the last node of a simulation. -/
theorem takeNode (n : NodeId) : (w.takeNode n).Relabels σ (w'.takeNode (σ n)) where
  graph := h.graph
  nodes m := by
    rw [get?_takeNode, get?_takeNode]
    by_cases same : n = m
    · simp [same]
    · simp [same, h.nodes]
  marker := by
    simp only [Workflow.takeNode, h.marker]
    cases w.simulateUntil with
    | none => rfl
    | some m => by_cases same : m = n <;> simp [same]
  id := h.id
  name := h.name

/-- A workflow is the mirror image of its own mirror image. -/
theorem symm : w'.Relabels σ.symm w where
  graph := by
    rw [h.graph]
    exact (Graph.image_image_symm σ w.graph).symm
  nodes n := by
    have look := h.nodes (σ.symm n)
    rw [Equiv.apply_symm_apply] at look
    rw [look, Option.map_map]
    cases w.nodes.get? (σ.symm n) with
    | none => rfl
    | some node => simp [Node.relabel]
  marker := by
    rw [h.marker, Option.map_map]
    simp
  id := h.id.symm
  name := h.name.symm

end Relabels

end Workflow

namespace Trash

variable {t : Trash} {w : WorkflowId} {n m : NodeId} {entry : TrashEntry}

/-- What the trash keeps of a workflow under an id. -/
def own? (t : Trash) (w : WorkflowId) (n : NodeId) : Option TrashEntry :=
  (t.get? n).filter fun e => e.workflow = w

/-- What the trash keeps of a workflow is what it keeps under the id, if that belongs to the
workflow. -/
theorem own?_eq_some : t.own? w n = some entry ↔ t.get? n = some entry ∧ entry.workflow = w := by
  simp [own?, Option.filter_eq_some_iff]

/-- Where nothing belongs to another workflow this makes no difference. -/
theorem own?_of_get? (home : ∀ e, t.get? n = some e → e.workflow = w) : t.own? w n = t.get? n := by
  unfold own?
  cases held : t.get? n with
  | none => rfl
  | some entry => simp [home entry held]

/-- An entry of the workflow is kept under the id of its node. -/
theorem own?_insert (home : entry.workflow = w) :
    (Trash.mk (t.entries.insert entry.node.id entry)).own? w n =
      if entry.node.id = n then some entry else t.own? w n := by
  have look : (Trash.mk (t.entries.insert entry.node.id entry)).get? n =
      if entry.node.id = n then some entry else t.get? n := NodeMap.get?_insert ..
  unfold own?
  rw [look]
  split
  · simp [home]
  · rfl

/-- What is taken out of the trash is no longer kept, whichever workflow it belonged to. -/
theorem own?_erase :
    (Trash.mk (t.entries.erase m)).own? w n = if m = n then none else t.own? w n := by
  have look : (Trash.mk (t.entries.erase m)).get? n = if m = n then none else t.get? n :=
    NodeMap.get?_erase ..
  unfold own?
  rw [look]
  split <;> rfl

end Trash

namespace Desk

/-- What the trash keeps of the workflow at hand under an id. -/
abbrev own (d : Desk) (n : NodeId) : Option TrashEntry := d.editor.trash.own? d.workflow.id n

/-- The trash keeps no node of another workflow under some ids. -/
def Clear (d : Desk) (ids : List NodeId) : Prop :=
  ∀ n ∈ ids, ∀ e, d.editor.trash.get? n = some e → e.workflow = d.workflow.id

/-- The workflow of a desk and its nodes in the trash are those of another desk with the ids
exchanged. -/
structure Mirrors (σ : Equiv.Perm NodeId) (d d' : Desk) : Prop where
  workflow : d.workflow.Relabels σ d'.workflow
  trash : ∀ n, d'.own (σ n) = (d.own n).map (TrashEntry.relabel σ)

variable {σ : Equiv.Perm NodeId} {d d' e e' : Desk} {n : NodeId} {entry : TrashEntry}

/-- If no other workflow has the id in the trash, the entry under it is one of the workflow at
hand. -/
theorem Clear.own_eq (clear : d.Clear [n]) : d.own n = d.editor.trash.get? n :=
  Trash.own?_of_get? (clear n List.mem_cons_self)

namespace Mirrors

/-- Only the workflows and the trashes of two desks count. -/
theorem of_eq (h : d.Mirrors σ d') (workflow : e.workflow = d.workflow)
    (trash : e.editor.trash = d.editor.trash) (workflow' : e'.workflow = d'.workflow)
    (trash' : e'.editor.trash = d'.editor.trash) : e.Mirrors σ e' where
  workflow := by
    rw [workflow, workflow']
    exact h.workflow
  trash n := by
    rw [own, own, workflow, workflow', trash, trash']
    exact h.trash n

/-- A desk mirrors those that mirror it. -/
theorem symm (h : d.Mirrors σ d') : d'.Mirrors σ.symm d where
  workflow := h.workflow.symm
  trash n := by
    have look := h.trash (σ.symm n)
    rw [Equiv.apply_symm_apply] at look
    rw [look]
    cases d.own (σ.symm n) with
    | none => rfl
    | some entry =>
      have back : entry.position.map (Position.relabel σ.symm ∘ Position.relabel σ) =
          entry.position := by
        cases entry.position with
        | none => rfl
        | some p => simp [Position.relabel, Option.map_map]
      simp [TrashEntry.relabel, Node.relabel, back]

variable (h : d.Mirrors σ d')

include h

theorem drawn : d.drawn.Mirrors σ d'.drawn := h.of_eq rfl rfl rfl rfl

theorem counted (needed : Bool) : (d.counted needed).Mirrors σ (d'.counted needed) := by
  refine h.of_eq rfl ?_ rfl ?_ <;> cases needed <;> rfl

theorem unlisted : d.unlisted.Mirrors σ d'.unlisted := h.of_eq rfl rfl rfl rfl

theorem saved : d.saved.Mirrors σ d'.saved := h.of_eq rfl rfl rfl rfl

/-- The workflow was changed on both desks. -/
theorem setWorkflow {w w' : Workflow} (same : w.id = d.workflow.id) (hw : w.Relabels σ w') :
    ({ d with workflow := w } : Desk).Mirrors σ { d' with workflow := w' } where
  workflow := hw
  trash n := by
    have same' : w'.id = d'.workflow.id := (hw.id.trans same).trans h.workflow.id.symm
    simp only [own, same, same']
    exact h.trash n

/-- To plant a node on one desk and its mirror image on the other leaves them mirrored. -/
theorem planted (g : Graph) (node : Node) :
    (Edit.planted d g node).Mirrors σ (Edit.planted d' (g.relabel σ) (node.relabel σ)) :=
  h.setWorkflow rfl ((h.workflow.setGraph g).addNode node)

/-- So does uprooting both. -/
theorem uprooted (g : Graph) (n : NodeId) :
    (Edit.uprooted d g n).Mirrors σ (Edit.uprooted d' (g.relabel σ) (σ n)) :=
  h.setWorkflow rfl ((h.workflow.setGraph g).takeNode n)

/-- A node that is thrown away on both desks is mirrored in the trash. -/
theorem thrownAway (entry : TrashEntry) (home : entry.workflow = d.workflow.id) :
    (Edit.thrownAway d entry).Mirrors σ (Edit.thrownAway d' (entry.relabel σ)) where
  workflow := h.workflow
  trash n := by
    have home' : (entry.relabel σ).workflow = d'.workflow.id := home.trans h.workflow.id.symm
    refine (Trash.own?_insert home').trans ?_
    refine Eq.trans ?_ (congrArg (Option.map (TrashEntry.relabel σ)) (Trash.own?_insert home)).symm
    change (if σ entry.node.id = σ n then _ else d'.own (σ n)) = _
    by_cases same : entry.node.id = n
    · simp [same]
    · simp [same, h.trash]

/-- A node that is taken back on both desks is in neither trash. -/
theorem takenBack (n : NodeId) :
    (Edit.takenBack d n).Mirrors σ (Edit.takenBack d' (σ n)) where
  workflow := h.workflow
  trash m := by
    refine Trash.own?_erase.trans ?_
    refine Eq.trans ?_ (congrArg (Option.map (TrashEntry.relabel σ)) Trash.own?_erase).symm
    by_cases same : n = m
    · simp [same]
    · simp only [same, σ.injective.eq_iff, if_false]
      exact h.trash m

/-- A node of the workflow in the trash is there on the other desk, too. -/
theorem get?_trash (hn : d.own n = some entry) :
    d'.editor.trash.get? (σ n) = some (entry.relabel σ) := by
  have there := h.trash n
  rw [hn] at there
  exact (Trash.own?_eq_some.1 there).1

/-- An id that is free in the trash is free on the other desk unless another workflow has it. -/
theorem trash_eq_none (clear : d'.Clear [σ n]) (free : d.editor.trash.get? n = none) :
    d'.editor.trash.get? (σ n) = none := by
  have none_own : d.own n = none := by rw [own, Trash.own?, free, Option.filter_none]
  rw [← clear.own_eq, h.trash n, none_own, Option.map_none]

/-- The entry for a deletion on one desk is mirrored by that on the other. -/
theorem deletion (node : Node) (actor : Option String) (p : Position) :
    (Edit.deletion d node actor p).relabel σ =
      Edit.deletion d' (node.relabel σ) actor (p.relabel σ) := by
  simp [Edit.deletion, TrashEntry.relabel, h.workflow.id]

/-- So is the entry for a node that was replaced. -/
theorem retirement (node : Node) (actor : Option String) (p : Position) :
    (Edit.retirement d node actor p).relabel σ =
      Edit.retirement d' (node.relabel σ) actor (p.relabel σ) := by
  simp [Edit.retirement, TrashEntry.relabel, h.workflow.id]

end Mirrors

/-- The environment answers the next edit on one desk as that on the other one. -/
structure Alike (env env' : Setup) (d d' : Desk) : Prop where
  registry : env'.registry = env.registry
  branch : env'.branchUid (d'.editor.branches + 1) = env.branchUid (d.editor.branches + 1)
  save : env'.saveFault (d'.editor.store.attempts + 1) =
    env.saveFault (d.editor.store.attempts + 1)

end Desk

end Autoflow
