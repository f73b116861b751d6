import Autoflow.Proofs.Editing.Legality
import Autoflow.Proofs.Editing.Steps

/-!
# What a successful edit does

For each edit of a workflow: under which checks it succeeds and what it leaves on the desk,
provided that saves are not refused.
-/

namespace Autoflow.Edit

open Workflow (require_eq_ok node_eq_ok)

variable {env : Setup} {d d' : Desk} {n : NodeId} {p : Position} {node : Node}

/-- An edit of a graph succeeds with the graph that it leaves. -/
theorem edited_eq_ok {g g' : Graph} {e : Graph.Edit Unit} :
    g.edited e = .ok g' ↔ e g = .ok () g' := by
  unfold Graph.edited
  cases e g <;> simp

/-- The desk after a node was put into the graph and the table of nodes. -/
def planted (d : Desk) (g : Graph) (node : Node) : Desk :=
  { d with workflow := { d.workflow with graph := g }.addNode node }

/-- The desk after a node was taken out of the graph and the table of nodes. -/
def uprooted (d : Desk) (g : Graph) (n : NodeId) : Desk :=
  { d with workflow := { d.workflow with graph := g }.takeNode n }

/-- Exactly when a creation succeeds if saves are accepted, and what it makes of the desk: every
check that it makes, in order, and nothing else. -/
theorem create_eq_ok (accepting : env.Accepting) {typeName : String} {values : NodeValues} :
    create env typeName values p d = .ok node d' ↔ ∃ type reference service g,
      env.registry.get? typeName = some type ∧ d.workflow.resolve p = .ok reference ∧
      d.workflow.checkPosition env.registry reference p = .ok () ∧
      d.workflow.checkCreate type.kind reference = .ok () ∧
      type.build (type.prepare (env.branchUid (d.editor.branches + 1))
        (values.service.getD .null)) = .ok service ∧
      Graph.insert d.editor.nextId p d.workflow.graph = .ok () g ∧
      freshNode d type (values.label.getD "") d.workflow.id service = node ∧
      ((planted d.drawn g node).counted (type.needsBranch (values.service.getD .null))).saved
        = d' := by
  simp only [create, workflow_bind, check_bind_ok, require_eq_ok, nextBranch_bind,
    newNode_bind_ok, onGraph_bind_ok, modifyWorkflow_bind, countBranch_bind,
    commit_bind accepting, pure_eq_ok]
  constructor
  · rintro ⟨type, ht, reference, hr, _, hp, _, hc, service, hs, g, hg, rfl, rfl⟩
    exact ⟨type, reference, service, g, ht, hr, hp, hc, hs, hg, rfl, rfl⟩
  · rintro ⟨type, reference, service, g, ht, hr, hp, hc, hs, hg, rfl, rfl⟩
    exact ⟨type, ht, reference, hr, (), hp, (), hc, service, hs, g, hg, rfl, rfl⟩

/-- The node that an update makes of a node. -/
def updatedNode (node : Node) (values : NodeValues) (service : Service) : Node :=
  { node with label := values.label.getD node.label, service }

/-- An update keeps the service if it names no configuration. Otherwise the new service is built and
must not drop a branch in use. -/
theorem update_eq_ok {values : NodeValues} {u : UpdatedNode} :
    update env n values d = .ok u d' ↔ ∃ node type service,
      d.workflow.nodes.get? n = some node ∧ env.registry.get? node.typeName = some type ∧
      ((values.service = none ∧ service = node.service) ∨ ∃ config,
        values.service = some config ∧ type.build config = .ok service ∧
          d.workflow.checkUpdate type.kind node service = .ok ()) ∧
      UpdatedNode.mk (updatedNode node values service) (.ofNode node)
        (.ofNode (updatedNode node values service)) = u ∧
      ({ d with workflow := d.workflow.addNode (updatedNode node values service) }).unlisted
        = d' := by
  simp only [update, workflow_bind, check_bind_ok, node_eq_ok, require_eq_ok]
  cases values.service with
  | none =>
    constructor
    · rintro ⟨node, hn, type, ht, h⟩
      cases h
      exact ⟨node, type, node.service, hn, ht, Or.inl ⟨rfl, rfl⟩, rfl, rfl⟩
    · rintro ⟨node, type, service, hn, ht, ⟨_, rfl⟩ | ⟨config, e, _⟩, rfl, rfl⟩
      · exact ⟨node, hn, type, ht, rfl⟩
      · cases e
  | some config =>
    simp only [check_bind_ok]
    constructor
    · rintro ⟨node, hn, type, ht, service, hs, _, hu, h⟩
      cases h
      exact ⟨node, type, service, hn, ht, Or.inr ⟨config, rfl, hs, hu⟩, rfl, rfl⟩
    · rintro ⟨node, type, service, hn, ht, ⟨e, _⟩ | ⟨config, e, hs, hu⟩, rfl, rfl⟩
      · cases e
      · cases e
        exact ⟨node, hn, type, ht, service, hs, (), hu, rfl⟩

/-- The trash entry of a node that is deleted. -/
def deletion (d : Desk) (node : Node) (actor : Option String) (p : Position) : TrashEntry :=
  { node, workflow := d.workflow.id, trashedBy := actor, position := some p }

/-- A deletion needs a live node of a known type that may go, and there must be none of its id in
the trash. The entry records the slot that it had. -/
theorem delete_eq_ok (accepting : env.Accepting) {actor : Option String} :
    delete env n actor d = .ok node d' ↔ ∃ type p g,
      d.workflow.nodes.get? n = some node ∧ env.registry.get? node.typeName = some type ∧
      d.workflow.checkDelete type.kind node = .ok () ∧ d.workflow.graph.position n = .ok p ∧
      Graph.remove n false d.workflow.graph = .ok () g ∧
      d.editor.trash.get? node.id = none ∧
      (uprooted (thrownAway d (deletion d node actor p)) g n).saved = d' := by
  simp only [delete, workflow_bind, check_bind_ok, node_eq_ok, require_eq_ok, edited_eq_ok,
    throwAway_bind_ok, modifyWorkflow_bind, commit_bind accepting, pure_eq_ok]
  constructor
  · rintro ⟨node, hn, type, ht, _, hc, p, hp, g, hg, new, rfl, rfl⟩
    exact ⟨type, p, g, hn, ht, hc, hp, hg, new, rfl⟩
  · rintro ⟨type, p, g, hn, ht, hc, hp, hg, new, rfl⟩
    exact ⟨node, hn, type, ht, (), hc, p, hp, g, hg, new, rfl, rfl⟩

/-- A copy is built from the configuration that the source exports and stands behind it. -/
theorem duplicate_eq_ok (accepting : env.Accepting) :
    duplicate env n d = .ok node d' ↔ ∃ source type service g,
      d.workflow.nodes.get? n = some source ∧ env.registry.get? source.typeName = some type ∧
      d.workflow.checkCreate type.kind (some source) = .ok () ∧
      type.build source.service.config = .ok service ∧
      Graph.insert d.editor.nextId (.south source.id "") d.workflow.graph = .ok () g ∧
      freshNode d type source.label d.workflow.id service = node ∧
      (planted d.drawn g node).saved = d' := by
  simp only [duplicate, workflow_bind, check_bind_ok, node_eq_ok, require_eq_ok, newNode_bind_ok,
    onGraph_bind_ok, modifyWorkflow_bind, commit_bind accepting, pure_eq_ok]
  constructor
  · rintro ⟨source, hn, type, ht, _, hc, service, hs, g, hg, rfl, rfl⟩
    exact ⟨source, type, service, g, hn, ht, hc, hs, hg, rfl, rfl⟩
  · rintro ⟨source, type, service, g, hn, ht, hc, hs, hg, rfl, rfl⟩
    exact ⟨source, hn, type, ht, (), hc, service, hs, g, hg, rfl, rfl⟩

/-- The trash entry of a node that is replaced. -/
def retirement (d : Desk) (node : Node) (actor : Option String) (p : Position) : TrashEntry :=
  { node, workflow := d.workflow.id, trashedBy := actor, reason := .replaced, position := some p }

/-- A replacement makes a new node, throws the old one away with its slot and has the new one take
over the entry. -/
theorem replace_eq_ok (accepting : env.Accepting) {typeName : String} {actor : Option String}
    {r : ReplacedNode} : replace env n typeName none actor d = .ok r d' ↔
      ∃ old oldType type service p g, d.workflow.nodes.get? n = some old ∧
        env.registry.get? old.typeName = some oldType ∧ env.registry.get? typeName = some type ∧
        d.workflow.checkReplace oldType type old = .ok () ∧
        type.build (type.prepare (env.branchUid (d.editor.branches + 1)) .null) = .ok service ∧
        d.workflow.graph.position n = .ok p ∧
        Graph.replace n d.editor.nextId d.workflow.graph = .ok () g ∧
        d.editor.trash.get? old.id = none ∧
        ReplacedNode.mk (freshNode d type "" d.workflow.id service) n old.typeName = r ∧
        ((planted (uprooted (thrownAway d.drawn (retirement d old actor p)) g n) g r.node).counted
          (type.needsBranch .null)).saved = d' := by
  simp only [replace, replacement, workflow_bind, bind_assoc, pure_bind, check_bind_ok,
    node_eq_ok, require_eq_ok, nextBranch_bind, newNode_bind_ok, edited_eq_ok,
    throwAway_bind_ok, modifyWorkflow_bind, countBranch_bind, commit_bind accepting, pure_eq_ok]
  constructor
  · rintro ⟨old, hn, oldType, ho, type, ht, _, hc, service, hs, p, hp, g, hg, new, rfl, rfl⟩
    exact ⟨old, oldType, type, service, p, g, hn, ho, ht, hc, hs, hp, hg, new, rfl, rfl⟩
  · rintro ⟨old, oldType, type, service, p, g, hn, ho, ht, hc, hs, hp, hg, new, rfl, rfl⟩
    exact ⟨old, hn, oldType, ho, type, ht, (), hc, service, hs, p, hp, g, hg, new, rfl, rfl⟩

/-- A move needs a slot that is exposed by another node than the one that is moved. -/
theorem move_eq_ok (accepting : env.Accepting) {m : MovedNode} :
    move env n p d = .ok m d' ↔ ∃ node type reference origin g,
      d.workflow.nodes.get? n = some node ∧ env.registry.get? node.typeName = some type ∧
      d.workflow.resolve p = .ok reference ∧
      d.workflow.checkPosition env.registry reference p = .ok () ∧
      p.reference ≠ some n ∧ d.workflow.checkMove type.kind node reference = .ok () ∧
      d.workflow.graph.position n = .ok origin ∧
      Graph.move n p d.workflow.graph = .ok () g ∧ MovedNode.mk n origin p = m ∧
      ({ d with workflow := { d.workflow with graph := g } }).saved = d' := by
  simp only [move, workflow_bind, check_bind_ok, node_eq_ok, require_eq_ok]
  by_cases same : p.reference = some n
  · simp only [same, if_true, ne_eq, not_true_eq_false, false_and, and_false, exists_false,
      iff_false]
    rintro ⟨_, _, _, _, _, _, _, _, h⟩
    obtain ⟨_, e, _⟩ := check_bind_ok.1 h
    cases e
  · simp only [same, if_false, check_bind_ok, onGraph_bind_ok, commit_bind accepting,
      pure_eq_ok]
    constructor
    · rintro ⟨node, hn, type, ht, reference, hr, _, hp, _, hc, origin, ho, g, hg, rfl, rfl⟩
      exact ⟨node, type, reference, origin, g, hn, ht, hr, hp, same, hc, ho, hg, rfl, rfl⟩
    · rintro ⟨node, type, reference, origin, g, hn, ht, hr, hp, _, hc, ho, hg, rfl, rfl⟩
      exact ⟨node, hn, type, ht, reference, hr, (), hp, (), hc, origin, ho, g, hg, rfl, rfl⟩

/-- What is asked for in the trash has to be there. -/
theorem trashed_eq_ok {t : Trash} {entry : TrashEntry} :
    t.require n = .ok entry ↔ t.get? n = some entry := by
  unfold Trash.require
  cases t.get? n <;> simp

/-- The slot of an entry is used only if it was deleted from this workflow and not replaced. -/
theorem recordedPosition_eq_ok {w : Workflow} {entry : TrashEntry} :
    recordedPosition w entry = .ok p ↔
      entry.workflow = w.id ∧ entry.isManaged = false ∧ entry.position = some p := by
  unfold recordedPosition
  by_cases home : entry.workflow = w.id
  · by_cases m : entry.isManaged = true
    · simp [home, m]
    · cases entry.position <;> simp [home, m]
  · simp [home]

/-- All that a restoration checks: that the reference is live and has the output, or that a trigger
finds the root free. -/
theorem checkRestore_eq_ok {w : Workflow} {entry : TrashEntry} :
    checkRestore env w entry p = .ok () ↔
      (∃ r reference, p.reference = some r ∧ w.nodes.get? r = some reference ∧
        reference.hasOutput p.output = true) ∨
      (p.reference = none ∧ ∃ type, env.registry.get? entry.node.typeName = some type ∧
        (type.isTrigger = true → w.graph.root = none)) := by
  unfold checkRestore
  cases p.reference with
  | some r =>
    cases hr : w.nodes.get? r with
    | none => simp [hr]
    | some reference => by_cases out : reference.hasOutput p.output = true <;> simp [hr, out]
  | none =>
    simp only [reduceCtorEq, false_and, exists_false, false_or, true_and]
    cases ht : env.registry.get? entry.node.typeName with
    | none => simp [Registry.require, ht]
    | some type =>
      cases trigger : type.isTrigger <;> cases root : w.graph.root <;>
        simp [Registry.require, ht, trigger]

/-- A restored node is the one of the entry, and neither its type nor the kind of its slot is
checked again. -/
theorem restore_eq_ok (accepting : env.Accepting) :
    restore env n d = .ok node d' ↔ ∃ entry p g,
      d.editor.trash.get? n = some entry ∧ recordedPosition d.workflow entry = .ok p ∧
      checkRestore env d.workflow entry p = .ok () ∧
      Graph.insert n p d.workflow.graph = .ok () g ∧ entry.node = node ∧
      (planted (takenBack d n) g node).saved = d' := by
  simp only [restore, workflow_bind, editor_bind, check_bind_ok, trashed_eq_ok]
  have back : ∀ {entry p} {k : TrashEntry → Edit Node}, d.editor.trash.get? n = some entry →
      recordedPosition d.workflow entry = .ok p → (takeBack n false >>= k) d =
        k entry (takenBack d n) := by
    intro entry p k he hp
    refine takeBack_bind he fun m => ?_
    rw [(recordedPosition_eq_ok.1 hp).2.1] at m
    cases m
  constructor
  · rintro ⟨entry, he, p, hp, _, hc, h⟩
    rw [back he hp, onGraph_bind_ok] at h
    obtain ⟨g, hg, h⟩ := h
    rw [modifyWorkflow_bind, commit_bind accepting, pure_eq_ok] at h
    obtain ⟨rfl, rfl⟩ := h
    exact ⟨entry, p, g, he, hp, hc, hg, rfl, rfl⟩
  · rintro ⟨entry, p, g, he, hp, hc, hg, rfl, rfl⟩
    refine ⟨entry, he, p, hp, (), hc, ?_⟩
    rw [back he hp, onGraph_bind_ok]
    exact ⟨g, hg, by rw [modifyWorkflow_bind, commit_bind accepting, pure_eq_ok]; exact ⟨rfl, rfl⟩⟩

/-- A node that exists takes a place without any check of types, and also if it belongs to another
workflow. -/
theorem replace_existing_eq_ok (accepting : env.Accepting) (typeName : String)
    (actor : Option String) {r : ReplacedNode} :
    replace env n typeName (some node) actor d = .ok r d' ↔
      ∃ old p g, d.workflow.nodes.get? n = some old ∧ d.workflow.graph.position n = .ok p ∧
        Graph.replace n node.id d.workflow.graph = .ok () g ∧
        d.editor.trash.get? old.id = none ∧ ReplacedNode.mk node n old.typeName = r ∧
        ((planted (uprooted (thrownAway d (retirement d old actor p)) g n) g node).counted
          false).saved = d' := by
  simp only [replace, workflow_bind, pure_bind, check_bind_ok, node_eq_ok, edited_eq_ok,
    throwAway_bind_ok, modifyWorkflow_bind, countBranch_bind, commit_bind accepting, pure_eq_ok]
  constructor
  · rintro ⟨old, hn, p, hp, g, hg, new, rfl, rfl⟩
    exact ⟨old, p, g, hn, hp, hg, new, rfl, rfl⟩
  · rintro ⟨old, p, g, hn, hp, hg, new, rfl, rfl⟩
    exact ⟨old, hn, p, hp, g, hg, new, rfl, rfl⟩

/-- What was in the trash is still there after another node was replaced. -/
theorem get?_trash_of_replace (accepting : env.Accepting) {typeName : String}
    {actor : Option String} {r : ReplacedNode} {trashed : NodeId} {entry : TrashEntry}
    (run : replace env n typeName (some node) actor d = .ok r d')
    (he : d.editor.trash.get? trashed = some entry) :
    d'.editor.trash.get? trashed = some entry := by
  obtain ⟨old, p, g, _, _, _, new, _, rfl⟩ := (replace_existing_eq_ok accepting _ _).1 run
  have ne : old.id ≠ trashed := by
    rintro rfl
    rw [new] at he
    cases he
  exact (NodeMap.get?_insert _ _ _ _).trans ((if_neg ne).trans he)

/-- To put a node back in the place of another one is to replace that with it and to take it out of
the trash. The entry must come from a replacement. -/
theorem restoreReplaced_eq_ok (accepting : env.Accepting) {trashed : NodeId} {r : ReplacedNode} :
    restoreReplaced env n trashed d = .ok r d' ↔ ∃ entry old p g,
      d.editor.trash.get? trashed = some entry ∧ entry.isManaged = true ∧
      d.workflow.nodes.get? n = some old ∧ d.workflow.graph.position n = .ok p ∧
      Graph.replace n entry.node.id d.workflow.graph = .ok () g ∧
      d.editor.trash.get? old.id = none ∧ ReplacedNode.mk entry.node n old.typeName = r ∧
      takenBack ((planted (uprooted (thrownAway d (retirement d old none p)) g n) g
        entry.node).counted false).saved trashed = d' := by
  simp only [restoreReplaced, editor_bind, check_bind_ok, trashed_eq_ok]
  constructor
  · rintro ⟨entry, he, h⟩
    cases managed : entry.isManaged with
    | false =>
      simp only [managed, Bool.not_false, if_true] at h
      obtain ⟨_, e, _⟩ := check_bind_ok.1 h
      cases e
    | true =>
      simp only [managed, Bool.not_true, Bool.false_eq_true, if_false] at h
      obtain ⟨r', d₁, run, h⟩ := bind_eq_ok.1 h
      rw [takeBack_bind (get?_trash_of_replace accepting run he) fun _ => rfl, pure_eq_ok] at h
      obtain ⟨rfl, rfl⟩ := h
      obtain ⟨old, p, g, hn, hp, hg, new, rfl, rfl⟩ := (replace_existing_eq_ok accepting _ _).1 run
      exact ⟨entry, old, p, g, he, managed, hn, hp, hg, new, rfl, rfl⟩
  · rintro ⟨entry, old, p, g, he, managed, hn, hp, hg, new, rfl, rfl⟩
    refine ⟨entry, he, ?_⟩
    simp only [managed, Bool.not_true, Bool.false_eq_true, if_false]
    have run := (replace_existing_eq_ok accepting entry.node.typeName none).2
      ⟨old, p, g, hn, hp, hg, new, rfl, rfl⟩
    refine bind_eq_ok.2 ⟨_, _, run, ?_⟩
    rw [takeBack_bind (get?_trash_of_replace accepting run he) fun _ => rfl, pure_eq_ok]
    exact ⟨rfl, rfl⟩

/-- The marker can be cleared or set to a live node. -/
theorem setSimulateUntil_eq_ok {w w' : Workflow} {m : Option NodeId} :
    w.setSimulateUntil m = .ok w' ↔
      (∀ n, m = some n → n ∈ w.nodes.ids) ∧ { w with simulateUntil := m } = w' := by
  unfold Workflow.setSimulateUntil
  cases m with
  | none => simp
  | some n => by_cases live : n ∈ w.nodes.ids <;> simp [live, NodeMap.contains_iff]

theorem simulate_eq_ok {m : Option NodeId} {u : Unit} : simulate m d = .ok u d' ↔
    (∀ n, m = some n → n ∈ d.workflow.nodes.ids) ∧
      { d with workflow := { d.workflow with simulateUntil := m } } = d' := by
  simp only [simulate, workflow_bind, check_bind_ok, setSimulateUntil_eq_ok]
  constructor
  · rintro ⟨w, ⟨live, rfl⟩, h⟩
    cases h
    exact ⟨live, rfl⟩
  · rintro ⟨live, rfl⟩
    exact ⟨_, ⟨live, rfl⟩, rfl⟩

end Autoflow.Edit
