import Autoflow.Proofs.Editing.Outcomes
import Autoflow.Proofs.Graph.Edits

/-!
# Workflows whose parts fit

In a workflow that fits, the graph is a tree of the live nodes, the trigger stands at its root
and only containers have nodes inside. Each way to rewire the graph and to change the table of
nodes along with it keeps this, under what the checks of the edits grant: planting a node that
is new (`Fits.planted`), taking one out (`Fits.uprooted`), putting a new one in the place of
another (`Fits.replaced`) and moving one (`Fits.moved`).
-/

namespace Autoflow

open Workflow (IsContainer IsTrigger)

/-- Types are known by their own names. -/
def Registry.Named (registry : Registry) : Prop :=
  ∀ name type, registry.get? name = some type → type.name = name

theorem Registry.named_builtin : Registry.builtin.Named := by
  intro name type h
  rcases mem_of_get?_registerAll h with ⟨_, named⟩ | h
  · exact named
  · cases h

namespace Workflow

/-- A node of a workflow under an id, of a type that is known. -/
structure Housed (registry : Registry) (w : Workflow) (n : NodeId) (node : Node) : Prop where
  id : node.id = n
  workflow : node.workflow = w.id
  type : ∃ type, registry.get? node.typeName = some type

/-- The graph and the table of nodes of a workflow fit. -/
structure Fits (registry : Registry) (w : Workflow) : Prop where
  tree : w.graph.IsTree
  ids : ∀ n, n ∈ w.graph.ids ↔ n ∈ w.nodes.ids
  housed : ∀ {n node}, w.nodes.get? n = some node → Housed registry w n node
  /-- The node at the root is the one of a trigger type. -/
  trigger : ∀ {n node}, w.nodes.get? n = some node →
    (IsTrigger registry node ↔ w.graph.root = some n)
  /-- Only containers have nodes inside. -/
  container : ∀ {n}, w.graph.occupants (.child n) ≠ [] →
    ∃ node, w.nodes.get? n = some node ∧ IsContainer registry node

variable {registry : Registry} {w w' : Workflow} {n : NodeId} {node : Node} {type : NodeType}
  {p : Position}

theorem isTrigger_iff (ht : registry.get? node.typeName = some type) :
    IsTrigger registry node ↔ type.isTrigger = true := by
  unfold IsTrigger
  rw [ht]
  simp

theorem isContainer_iff (ht : registry.get? node.typeName = some type) :
    IsContainer registry node ↔ type.isContainer = true := by
  unfold IsContainer
  rw [ht]
  simp

theorem isTrigger_kind : type.isTrigger = true ↔ type.kind = .trigger := by
  unfold NodeType.isTrigger
  exact decide_eq_true_iff

theorem isContainer_kind : type.isContainer = true ↔ type.kind = .container := by
  unfold NodeType.isContainer
  exact decide_eq_true_iff

theorem Housed.of_id (h : Housed registry w n node) (id : w'.id = w.id) :
    Housed registry w' n node :=
  ⟨h.id, h.workflow.trans id.symm, h.type⟩

namespace Fits

theorem mem_graph (fits : w.Fits registry) (hn : w.nodes.get? n = some node) : n ∈ w.graph.ids :=
  (fits.ids n).2 (NodeMap.mem_ids_of_get? hn)

theorem exists_node (fits : w.Fits registry) (h : n ∈ w.graph.ids) :
    ∃ node, w.nodes.get? n = some node :=
  NodeMap.mem_ids_iff.1 ((fits.ids n).1 h)

theorem root_iff (fits : w.Fits registry) (hn : w.nodes.get? n = some node)
    (ht : registry.get? node.typeName = some type) :
    n ∈ w.graph.occupants .root ↔ type.kind = .trigger := by
  rw [Graph.mem_occupants_root, ← fits.trigger hn, isTrigger_iff ht, isTrigger_kind]

/-- There is nothing inside a node that is no container. -/
theorem no_children (fits : w.Fits registry) (hn : w.nodes.get? n = some node)
    (off : ¬ IsContainer registry node) : w.graph.occupants (.child n) = [] := by
  by_contra some_inside
  obtain ⟨node', hn', c⟩ := fits.container some_inside
  rw [hn] at hn'
  cases hn'
  exact off c

/-- A node that may be deleted has nothing inside. -/
theorem bare_of_checkDelete (fits : w.Fits registry) (hn : w.nodes.get? n = some node)
    (ht : registry.get? node.typeName = some type) (hc : w.checkDelete type.kind node = .ok ()) :
    w.graph.occupants (.child n) = [] := by
  have id := (fits.housed hn).id
  have there := fits.mem_graph hn
  rw [← id] at there
  by_cases c : IsContainer registry node
  · rw [← id]
    exact ((checkDelete_eq_ok there).1 hc).2.1 (isContainer_kind.1 ((isContainer_iff ht).1 c))
  · exact fits.no_children hn c

/-- A node that may be replaced has nothing inside. -/
theorem bare_of_checkReplace (fits : w.Fits registry) {new : NodeType}
    (hn : w.nodes.get? n = some node) (ht : registry.get? node.typeName = some type)
    (hc : w.checkReplace type new node = .ok ()) : w.graph.occupants (.child n) = [] := by
  have id := (fits.housed hn).id
  have there := fits.mem_graph hn
  rw [← id] at there
  by_cases c : IsContainer registry node
  · rw [← id]
    exact ((checkReplace_eq_ok there).1 hc).1 (isContainer_kind.1 ((isContainer_iff ht).1 c))
  · exact fits.no_children hn c

/-- A node that may be moved is not moved into itself. -/
theorem outside_of_checkMove (fits : w.Fits registry) {reference : Node} {r : NodeId}
    (hn : w.nodes.get? n = some node) (ht : registry.get? node.typeName = some type)
    (hr : w.nodes.get? r = some reference)
    (hc : w.checkMove type.kind node (some reference) = .ok ()) :
    ¬ w.graph.occupants.Inside n r := by
  have id := (fits.housed hn).id
  have there := fits.mem_graph hn
  rw [← id] at there
  by_cases c : IsContainer registry node
  · obtain ⟨_, _, _, e, outside⟩ := (checkMove_eq_ok (fun _ => fits.tree) there).1 hc
    cases e
    rw [id, (fits.housed hr).id] at outside
    exact outside (isContainer_kind.1 ((isContainer_iff ht).1 c))
  · rintro ⟨d, hd, _⟩
    rw [fits.no_children hn c] at hd
    cases hd

/-- The reference of a position that was checked is live and exposes the output, and it is a
container if the position is inside it. -/
theorem held (fits : w.Fits registry) {reference : Option Node}
    (hr : w.resolve p = .ok reference) (hp : w.checkPosition registry reference p = .ok ())
    {r : NodeId} (ref : p.reference = some r) :
    r ∈ w.graph.ids ∧ ∃ node, w.nodes.get? r = some node ∧ reference = some node ∧
      node.hasOutput p.output = true ∧ (p.placement = .child → IsContainer registry node) := by
  rcases resolve_eq_ok.1 hr with ⟨e, _⟩ | ⟨r', node, e, hn, rfl⟩
  · rw [ref] at e
    cases e
  · rw [ref] at e
    cases e
    obtain ⟨_, mem, out, inside⟩ := checkPosition_eq_ok.1 hp
    exact ⟨fits.mem_graph hn, node, hn, rfl, out, inside⟩

/-- A new node can be planted into a slot that is there; a trigger, and nothing else, at the
root of an empty graph. -/
theorem planted (fits : w.Fits registry) (id : w'.id = w.id)
    (graph : Graph.insert n p w.graph = .ok () w'.graph)
    (nodes : ∀ m, w'.nodes.get? m = if n = m then some node else w.nodes.get? m)
    (new : n ∉ w.nodes.ids) (housed : Housed registry w n node)
    (held : ∀ r, p.reference = some r → r ∈ w.graph.ids)
    (trigger : IsTrigger registry node ↔ p.reference = none)
    (empty : p.reference = none → w.graph.root = none)
    (inside : ∀ r, p.reference = some r → p.placement = .child →
      ∃ node, w.nodes.get? r = some node ∧ IsContainer registry node) :
    w'.Fits registry := by
  have fresh : n ∉ w.graph.ids := fun mem => new ((fits.ids n).1 mem)
  obtain ⟨g, run, layout, ids, tree⟩ := fits.tree.exists_insert fresh held
  rw [graph] at run
  cases run
  have old : ∀ {m node'}, w.nodes.get? m = some node' → n ≠ m := by
    rintro m node' hm rfl
    exact new (NodeMap.mem_ids_of_get? hm)
  have root := Graph.root_of_plant layout
  refine ⟨tree, fun m => ?_, fun {m node'} hm => ?_, fun {m node'} hm => ?_,
    fun {m} some_inside => ?_⟩
  · rw [ids m, fits.ids m, NodeMap.mem_ids_of_insert nodes m]
  · rw [nodes m] at hm
    split at hm
    · next e =>
      cases hm
      subst e
      exact housed.of_id id
    · exact (fits.housed hm).of_id id
  · rw [nodes m] at hm
    rw [root m]
    split at hm
    · next e =>
      cases hm
      subst e
      have off : w.graph.root ≠ some n := fun e => fresh (fits.tree.root_mem e)
      rw [trigger]
      by_cases top : p.reference = none
      · simp [top]
      · simp [top, off]
    · next ne =>
      rw [fits.trigger hm]
      by_cases top : p.reference = none
      · simp [top, empty top, Ne.symm ne]
      · simp [top]
  · rw [layout] at some_inside
    have container : ∃ node', w.nodes.get? m = some node' ∧ IsContainer registry node' := by
      by_cases here : Slot.child m = p.slot
      · obtain ⟨ref, place⟩ := Position.slot_eq_child here.symm
        exact inside m ref place
      · refine fits.container ?_
        simpa [Layout.plant, here, Slot.isSouthOf] using some_inside
    obtain ⟨node', hm, c⟩ := container
    exact ⟨node', by rw [nodes m, if_neg (old hm), hm], c⟩

/-- A node can be taken out if it has nothing inside, the trigger only if nothing follows it. -/
theorem uprooted (fits : w.Fits registry) (id : w'.id = w.id)
    (graph : Graph.remove n false w.graph = .ok () w'.graph)
    (nodes : ∀ m, w'.nodes.get? m = if n = m then none else w.nodes.get? m)
    (hn : w.nodes.get? n = some node) (bare : w.graph.occupants (.child n) = [])
    (last : IsTrigger registry node → ∀ o, w.graph.occupants (.south n o) = []) :
    w'.Fits registry := by
  obtain ⟨s, hs⟩ := fits.tree.exists_slot (fits.mem_graph hn)
  obtain ⟨e, he⟩ := Graph.mem_ids_iff.1 (fits.mem_graph hn)
  have alone : s = .root → e.successors = [] := by
    intro top
    rw [top] at hs
    have none_behind := last ((fits.trigger hn).2 (Graph.mem_occupants_root.1 hs))
    refine List.eq_nil_iff_forall_not_mem.2 fun x hx => ?_
    rcases Entry.mem_successors_iff.1 hx with ⟨o, hx⟩ | hx
    · rw [← Graph.occupants_south he, none_behind o] at hx
      cases hx
    · rw [← Graph.occupants_child he, bare] at hx
      cases hx
  obtain ⟨g, run, layout, ids, tree⟩ :=
    fits.tree.exists_remove hs he fun top => by rw [alone top]; exact Nat.zero_le 1
  rw [graph] at run
  cases run
  have root := Graph.root_of_extract fits.tree hs alone layout
  refine ⟨tree, fun m => ?_, fun {m node'} hm => ?_, fun {m node'} hm => ?_,
    fun {m} some_inside => ?_⟩
  · rw [ids m, fits.ids m, NodeMap.mem_ids_of_erase nodes m]
  · rw [nodes m] at hm
    split at hm
    · cases hm
    · exact (fits.housed hm).of_id id
  · rw [nodes m] at hm
    split at hm
    · cases hm
    · next ne => rw [root m, fits.trigger hm, and_iff_right (Ne.symm ne)]
  · rw [layout] at some_inside
    have ne : n ≠ m := by
      rintro rfl
      simp [Layout.extract, Layout.givenUp] at some_inside
    have before : w.graph.occupants (.child m) ≠ [] := by
      intro none_inside
      by_cases here : Slot.child m = s
      · rw [← here, none_inside] at hs
        cases hs
      · simp [Layout.extract, Layout.givenUp, here, none_inside] at some_inside
    obtain ⟨node', hm, c⟩ := fits.container before
    exact ⟨node', by rw [nodes m, if_neg ne, hm], c⟩

/-- A node with nothing inside can be replaced with a new one, a trigger only with a trigger. -/
theorem replaced (fits : w.Fits registry) (id : w'.id = w.id) {new : NodeId} {fresh : Node}
    (graph : Graph.replace n new w.graph = .ok () w'.graph)
    (nodes : ∀ m, w'.nodes.get? m =
      if new = m then some fresh else if n = m then none else w.nodes.get? m)
    (hn : w.nodes.get? n = some node) (off : new ∉ w.nodes.ids)
    (housed : Housed registry w new fresh) (bare : w.graph.occupants (.child n) = [])
    (trigger : IsTrigger registry fresh ↔ IsTrigger registry node) : w'.Fits registry := by
  have there := fits.mem_graph hn
  have away : new ∉ w.graph.ids := fun mem => off ((fits.ids new).1 mem)
  obtain ⟨g, run, layout, ids, tree⟩ := fits.tree.exists_replace there away
  rw [graph] at run
  cases run
  have ne : new ≠ n := fun e => away (e ▸ there)
  have old : ∀ {m node'}, w.nodes.get? m = some node' → new ≠ m := by
    rintro m node' hm rfl
    exact off (NodeMap.mem_ids_of_get? hm)
  have root := Graph.root_of_relabel layout
  refine ⟨tree, fun m => ?_, fun {m node'} hm => ?_, fun {m node'} hm => ?_,
    fun {m} some_inside => ?_⟩
  · rw [ids m, NodeMap.mem_ids_iff, nodes m]
    by_cases e : new = m
    · subst e
      simp [there]
    · by_cases e' : n = m
      · subst e'
        simp [e, away]
      · rw [Equiv.swap_apply_of_ne_of_ne (Ne.symm e') (Ne.symm e), fits.ids m, NodeMap.mem_ids_iff]
        simp [e, e']
  · rw [nodes m] at hm
    split at hm
    · next e =>
      cases hm
      subst e
      exact housed.of_id id
    · split at hm
      · cases hm
      · exact (fits.housed hm).of_id id
  · rw [nodes m] at hm
    rw [root m]
    split at hm
    · next e =>
      cases hm
      subst e
      rw [Equiv.swap_apply_right, trigger, fits.trigger hn]
    · next off =>
      split at hm
      · cases hm
      · next other =>
        rw [Equiv.swap_apply_of_ne_of_ne (Ne.symm other) (Ne.symm off), fits.trigger hm]
  · obtain ⟨x, hx⟩ := List.exists_mem_of_ne_nil _ some_inside
    rw [layout, Layout.mem_relabel_iff] at hx
    have before : w.graph.occupants (.child (Equiv.swap n new m)) ≠ [] := by
      intro none_inside
      simp [Slot.rename, none_inside] at hx
    by_cases e : new = m
    · subst e
      rw [Equiv.swap_apply_right] at before
      exact absurd bare before
    · by_cases e' : n = m
      · subst e'
        rw [Equiv.swap_apply_left] at before
        exact absurd (Graph.occupants_eq_nil away rfl) before
      · rw [Equiv.swap_apply_of_ne_of_ne (Ne.symm e') (Ne.symm e)] at before
        obtain ⟨node', hm, c⟩ := fits.container before
        exact ⟨node', by rw [nodes m, if_neg e, if_neg e', hm], c⟩

/-- A node other than the trigger can be moved to a slot that is there and not inside it. -/
theorem moved (fits : w.Fits registry) (id : w'.id = w.id)
    (graph : Graph.move n p w.graph = .ok () w'.graph) (nodes : w'.nodes = w.nodes)
    (hn : w.nodes.get? n = some node) (off : ¬ IsTrigger registry node)
    {r : NodeId} (ref : p.reference = some r) (held : r ∈ w.graph.ids) (ne : r ≠ n)
    (outside : ¬ w.graph.occupants.Inside n r)
    (inside : p.placement = .child →
      ∃ node, w.nodes.get? r = some node ∧ IsContainer registry node) : w'.Fits registry := by
  obtain ⟨s, hs⟩ := fits.tree.exists_slot (fits.mem_graph hn)
  obtain ⟨e, he⟩ := Graph.mem_ids_iff.1 (fits.mem_graph hn)
  have low : s ≠ .root := by
    rintro rfl
    exact off ((fits.trigger hn).2 (Graph.mem_occupants_root.1 hs))
  obtain ⟨g, run, layout, ids, tree⟩ :=
    fits.tree.exists_move hs he (fun top => absurd top low) ref held ne outside
  rw [graph] at run
  cases run
  have owner : p.slot.owner? = some r := p.owner_slot.trans ref
  have root : w'.graph.root = w.graph.root := by
    have up : ¬ Slot.root = s := fun e => low e.symm
    have away : ¬ Slot.root = p.slot := fun e => by rw [← e] at owner; cases owner
    refine Graph.root_of_occupants ?_
    rw [layout]
    simp [Layout.plant, Layout.extract, Layout.givenUp, Slot.isSouthOf, up, away]
  refine ⟨tree, fun m => ?_, fun {m node'} hm => ?_, fun {m node'} hm => ?_,
    fun {m} some_inside => ?_⟩
  · rw [ids m, fits.ids m, nodes]
  · rw [nodes] at hm
    exact (fits.housed hm).of_id id
  · rw [nodes] at hm
    rw [root, fits.trigger hm]
  · rw [nodes]
    rw [layout] at some_inside
    by_cases here : Slot.child m = p.slot
    · obtain ⟨ref', place⟩ := Position.slot_eq_child here.symm
      cases ref.symm.trans ref'
      exact inside place
    · refine fits.container fun none_inside => some_inside ?_
      have left : ¬ Slot.child m = s := fun e => by rw [← e, none_inside] at hs; cases hs
      simp [Layout.plant, Layout.extract, Layout.givenUp, Slot.isSouthOf, here, left, none_inside]

/-- A node can get another label and another service. -/
theorem updated (fits : w.Fits registry) (id : w'.id = w.id) (graph : w'.graph = w.graph)
    {fresh : Node} (nodes : ∀ m, w'.nodes.get? m = if n = m then some fresh else w.nodes.get? m)
    (hn : w.nodes.get? n = some node) (same : fresh.id = node.id)
    (home : fresh.workflow = node.workflow) (type : fresh.typeName = node.typeName) :
    w'.Fits registry := by
  have trigger : IsTrigger registry fresh ↔ IsTrigger registry node := by
    unfold IsTrigger
    rw [type]
  refine ⟨graph ▸ fits.tree, fun m => ?_, fun {m node'} hm => ?_, fun {m node'} hm => ?_,
    fun {m} some_inside => ?_⟩
  · rw [graph, fits.ids m, NodeMap.mem_ids_of_insert nodes m]
    exact (or_iff_right_of_imp fun e => e ▸ NodeMap.mem_ids_of_get? hn).symm
  · rw [nodes m] at hm
    split at hm
    · next e =>
      cases hm
      subst e
      have h := fits.housed hn
      exact ⟨same.trans h.id, home.trans (h.workflow.trans id.symm), type ▸ h.type⟩
    · exact (fits.housed hm).of_id id
  · rw [nodes m] at hm
    rw [graph]
    split at hm
    · next e =>
      cases hm
      subst e
      rw [trigger, fits.trigger hn]
    · exact fits.trigger hm
  · rw [graph] at some_inside
    obtain ⟨node', hm, c⟩ := fits.container some_inside
    by_cases e : n = m
    · subst e
      rw [hn] at hm
      cases hm
      refine ⟨fresh, by rw [nodes, if_pos rfl], ?_⟩
      unfold IsContainer at c ⊢
      rwa [type]
    · exact ⟨node', by rw [nodes m, if_neg e, hm], c⟩

end Fits

end Workflow

end Autoflow
