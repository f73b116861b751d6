import Mathlib.Data.List.Induction
import Autoflow.Proofs.Editing.Fit
import Autoflow.Workflow.Fixture

/-!
# Which fixtures are built

`Fixture.Acceptable` lists what a fixture needs for a workflow to be built from it, and
`Fixture.Describes` what the workflow then is. Each part of the build has one lemma that says
when it succeeds and with what; `build_ok_iff` puts them together.
-/

namespace Autoflow

open Workflow (IsTrigger isTrigger_iff)

/-- A type that is registered is known by its own name. -/
theorem Registry.named_registerAll (types : List NodeType) : (empty.registerAll types).Named := by
  intro name type h
  rcases mem_of_get?_registerAll h with ⟨_, named⟩ | h
  · exact named
  · cases h

/-- The first value with a property is the one of the lowest id that has it. -/
theorem NodeMap.find?_values_eq_some {ν : Type} {m : NodeMap ν} {p : ν → Bool} {v : ν}
    (h : m.values.find? p = some v) : ∃ n, m.get? n = some v ∧ p v = true ∧
      ∀ k u, m.get? k = some u → p u = true → ¬ k < n := by
  rw [values, List.find?_map] at h
  obtain ⟨⟨n, u⟩, first, rfl⟩ := Option.map_eq_some_iff.1 h
  obtain ⟨holds, before, after, split, none⟩ := List.find?_eq_some_iff_append.1 first
  have mem : (n, u) ∈ m.toList := by rw [split]; simp
  refine ⟨n, (Assoc.mem_iff_find? (nodup_keys m.sorted)).1 mem, holds, fun k t hk ht lt => ?_⟩
  have later : (k, t) ∈ m.toList := (Assoc.mem_iff_find? (nodup_keys m.sorted)).2 hk
  rw [split] at later
  rcases List.mem_append.1 later with early | late
  · simpa [ht] using none _ early
  · have sorted := m.sorted
    rw [split] at sorted
    obtain ⟨_, sorted, _⟩ := List.pairwise_append.1 sorted
    rcases List.mem_cons.1 late with same | late
    · cases same
      exact NodeId.lt_irrefl _ lt
    · exact NodeId.lt_irrefl _ (NodeId.lt_trans lt ((List.pairwise_cons.1 sorted).1 _ late))

namespace Fixture

/-- A node that an exported one is built into. -/
def Builds (registry : Registry) (id : WorkflowId) (e : NodeExport) (node : Node) : Prop :=
  ∃ type service, registry.get? e.typeName = some type ∧ type.build e.service = .ok service ∧
    node = { id := e.id, workflow := id, typeName := e.typeName, label := e.label, service }

/-- The last listing of an id. -/
def listing? (f : Fixture) (n : NodeId) : Option NodeExport := f.nodes.reverse.find? (·.id = n)

/-- A node that is built from the last listing of its id. -/
def Live (registry : Registry) (f : Fixture) (n : NodeId) (node : Node) : Prop :=
  ∃ e, f.listing? n = some e ∧ Builds registry f.id e node

/-- What a fixture needs to be built, with the graph that it holds. -/
structure Acceptable (registry : Registry) (f : Fixture) (g : Graph) : Prop where
  /-- Every listed node has a known type that takes its configuration. -/
  nodes : ∀ e ∈ f.nodes, ∃ node, Builds registry f.id e node
  blob : Graph.ofBlob f.graph = .ok g
  valid : g.validate = .ok ()
  ids : ∀ n, n ∈ g.ids ↔ n ∈ f.nodes.map NodeExport.id
  root : ∀ r, g.root = some r → ∃ node, Live registry f r node ∧ IsTrigger registry node
  label : ∀ label, f.simulateUntil = some label →
    ∃ n node, Live registry f n node ∧ node.displayLabel = label

/-- What the workflow of a fixture is. -/
structure Describes (registry : Registry) (f : Fixture) (w : Workflow) : Prop where
  id : w.id = f.id
  name : w.name = f.name
  graph : Graph.ofBlob f.graph = .ok w.graph
  nodes : ∀ n node, w.nodes.get? n = some node ↔ Live registry f n node
  unmarked : f.simulateUntil = none → w.simulateUntil = none
  /-- The marker is on the lowest id with the label. -/
  marked : ∀ label, f.simulateUntil = some label → ∃ n node, w.simulateUntil = some n ∧
    w.nodes.get? n = some node ∧ node.displayLabel = label ∧
    ∀ m other, w.nodes.get? m = some other → other.displayLabel = label → ¬ m < n

variable {registry : Registry} {f : Fixture} {w w' : Workflow} {g : Graph} {id : WorkflowId}
  {e : NodeExport} {node : Node} {n : NodeId} {label : String}

/-- A listing is built exactly if its type is known and takes its configuration. -/
theorem buildNode_eq_ok (named : registry.Named) :
    buildNode registry id e = .ok node ↔ Builds registry id e node := by
  unfold buildNode Registry.require Builds
  cases ht : registry.get? e.typeName with
  | none => simp [bind, Except.bind]
  | some type =>
    have := named e.typeName type ht
    cases hs : type.build e.service <;>
      simp [bind, Except.bind, pure, Except.pure, hs, this, eq_comm]

/-- The node has the id of the listing. -/
theorem Builds.id_eq (h : Builds registry id e node) : node.id = e.id := by
  obtain ⟨_, _, _, _, rfl⟩ := h
  rfl

/-- There is one such node at most. -/
theorem Builds.unique {other : Node} (h : Builds registry id e node)
    (h' : Builds registry id e other) : node = other := by
  obtain ⟨type, service, ht, hs, rfl⟩ := h
  obtain ⟨type', service', ht', hs', rfl⟩ := h'
  cases ht.symm.trans ht'
  cases hs.symm.trans hs'
  rfl

/-- To add what is built is to build it first. -/
theorem map_addNode_eq_ok (named : registry.Named) :
    (buildNode registry id e).map w.addNode = .ok w' ↔
      ∃ node, Builds registry id e node ∧ w' = w.addNode node := by
  simp only [← buildNode_eq_ok named]
  cases buildNode registry id e <;> simp [Except.map, eq_comm]

/-- The last listing of an id is a listing of that id. -/
theorem listing?_id (h : f.listing? n = some e) : e ∈ f.nodes ∧ e.id = n :=
  ⟨List.mem_reverse.1 (List.mem_of_find?_eq_some h), by simpa using List.find?_some h⟩

/-- Every id that is listed has a last listing. -/
theorem exists_listing? (h : e ∈ f.nodes) : ∃ e', f.listing? e.id = some e' :=
  Option.isSome_iff_exists.1 (List.find?_isSome.2 ⟨e, List.mem_reverse.2 h, by simp⟩)

/-- Adding nodes one after the other leaves under each id the last one. -/
theorem addNodes_eq_ok (named : registry.Named) {name : String} {l : List NodeExport}
    (h : l.foldlM (fun w e => (buildNode registry id e).map w.addNode)
      { id := id, name := name } = .ok w) :
    w = { id := id, name := name, nodes := w.nodes } ∧ ∀ n node, w.nodes.get? n = some node ↔
      ∃ e, l.reverse.find? (·.id = n) = some e ∧ Builds registry id e node := by
  induction l using List.reverseRecOn generalizing w with
  | nil =>
    cases h
    simp
  | append_singleton l e ih =>
    rw [List.foldlM_append] at h
    obtain ⟨before, earlier, last⟩ := Except.bind_eq_ok.1 h
    obtain ⟨rest, nodes⟩ := ih earlier
    rw [List.foldlM_cons] at last
    obtain ⟨_, added, same⟩ := Except.bind_eq_ok.1 last
    cases same
    obtain ⟨node, builds, rfl⟩ := (map_addNode_eq_ok named).1 added
    refine ⟨by rw [Workflow.addNode, rest], fun n other => ?_⟩
    rw [Workflow.get?_addNode builds.id_eq, List.reverse_append]
    by_cases at_ : e.id = n
    · simp only [at_, if_true, List.reverse_singleton, List.singleton_append, List.find?_cons,
        decide_true]
      constructor
      · rintro ⟨⟩
        exact ⟨e, rfl, builds⟩
      · rintro ⟨_, ⟨⟩, builds'⟩
        exact congrArg some (builds.unique builds')
    · simpa [at_] using nodes n other

/-- What the listings build, one after the other, is a workflow with the last one of each id. -/
theorem buildNodes_eq_ok (named : registry.Named) (h : f.buildNodes registry = .ok w) :
    w = { id := f.id, name := f.name, nodes := w.nodes } ∧
      ∀ n node, w.nodes.get? n = some node ↔ Live registry f n node :=
  addNodes_eq_ok named h

/-- It can be done if each listing can be built, -/
theorem exists_buildNodes (named : registry.Named)
    (h : ∀ e ∈ f.nodes, ∃ node, Builds registry f.id e node) : ∃ w, f.buildNodes registry = .ok w := by
  refine Except.exists_foldlM (fun e he w => ?_) _
  obtain ⟨node, builds⟩ := h e he
  exact ⟨w.addNode node, by rw [(buildNode_eq_ok named).2 builds]; rfl⟩

/-- and only then. -/
theorem builds_of_buildNodes (named : registry.Named) (h : f.buildNodes registry = .ok w) :
    ∀ e ∈ f.nodes, ∃ node, Builds registry f.id e node := by
  intro e he
  obtain ⟨_, _, added⟩ := Except.step_of_foldlM h e he
  obtain ⟨node, builds, -⟩ := (map_addNode_eq_ok named).1 added
  exact ⟨node, builds⟩

/-- The graph passes if it is valid and has entries for the live nodes only, and for all of them. -/
theorem checkGraph_eq_ok :
    checkGraph w g = .ok () ↔ g.validate = .ok () ∧ ∀ n, n ∈ g.ids ↔ n ∈ w.nodes.ids := by
  unfold checkGraph
  rw [Except.bind_unit_eq_ok]
  refine and_congr_right fun _ => ?_
  cases missing : g.ids.find? fun n => !w.nodes.contains n with
  | some n =>
    have off : n ∉ w.nodes.ids := by simpa [← NodeMap.contains_iff] using List.find?_some missing
    exact iff_of_false nofun fun same =>
      off ((same n).1 (List.mem_of_find?_eq_some missing))
  | none =>
    cases orphan : w.nodes.ids.find? fun n => !g.contains n with
    | some n =>
      have off : n ∉ g.ids := by simpa [← Graph.contains_iff] using List.find?_some orphan
      exact iff_of_false nofun fun same =>
        off ((same n).2 (List.mem_of_find?_eq_some orphan))
    | none =>
      refine iff_of_true rfl fun n => ⟨fun mem => ?_, fun mem => ?_⟩
      · simpa [NodeMap.contains_iff] using List.find?_eq_none.1 missing n mem
      · simpa [Graph.contains_iff] using List.find?_eq_none.1 orphan n mem

/-- The root passes if it is a trigger or there is none. -/
theorem checkRoot_eq_ok : checkRoot registry w g = .ok () ↔
    ∀ r, g.root = some r → ∃ node, w.nodes.get? r = some node ∧ IsTrigger registry node := by
  unfold checkRoot
  cases g.root with
  | none => simp
  | some r =>
    simp only [Option.some.injEq, forall_eq']
    unfold Workflow.node IsTrigger Registry.require
    cases w.nodes.get? r with
    | none => simp [bind, Except.bind]
    | some node =>
      cases ht : registry.get? node.typeName with
      | none => simp [bind, Except.bind, ht]
      | some type => simp [bind, Except.bind, ht]

/-- A label marks the node that is found by it. -/
theorem markLabel_eq_ok : markLabel w label = .ok w' ↔
    ∃ node, w.findByLabel? label = some node ∧ w' = { w with simulateUntil := some node.id } := by
  unfold markLabel
  cases w.findByLabel? label <;> simp [eq_comm]

/-- Marking the node for which the fixture asks, if it asks for one. -/
def mark (f : Fixture) (w : Workflow) : Except Failure Workflow :=
  match f.simulateUntil with
  | none => .ok w
  | some label => markLabel w label

/-- The workflow can be marked if some node shows the label. -/
theorem exists_mark (h : ∀ label, f.simulateUntil = some label →
    ∃ n node, w.nodes.get? n = some node ∧ node.displayLabel = label) :
    ∃ w', f.mark w = .ok w' := by
  unfold mark
  cases asked : f.simulateUntil with
  | none => exact ⟨w, rfl⟩
  | some label =>
    obtain ⟨n, node, live, shown⟩ := h label asked
    obtain ⟨first, found⟩ : ∃ first, w.findByLabel? label = some first :=
      Option.isSome_iff_exists.1
        (List.find?_isSome.2 ⟨node, NodeMap.mem_values_iff.2 ⟨n, live⟩, by simp [shown]⟩)
    exact ⟨_, markLabel_eq_ok.2 ⟨first, found, rfl⟩⟩

/-- Marking changes the marker only. -/
theorem mark_shape (h : f.mark w = .ok w') : w' = { w with simulateUntil := w'.simulateUntil } := by
  unfold mark at h
  split at h
  · cases h
    rfl
  · obtain ⟨_, _, rfl⟩ := markLabel_eq_ok.1 h
    rfl

/-- The marker comes to stand on the lowest id with the label. -/
theorem mark_first (keyed : ∀ n node, w.nodes.get? n = some node → node.id = n)
    (h : f.mark w = .ok w') (asked : f.simulateUntil = some label) :
    ∃ n node, w'.simulateUntil = some n ∧ w.nodes.get? n = some node ∧ node.displayLabel = label ∧
      ∀ m other, w.nodes.get? m = some other → other.displayLabel = label → ¬ m < n := by
  simp only [mark, asked] at h
  obtain ⟨first, found, rfl⟩ := markLabel_eq_ok.1 h
  obtain ⟨n, live, shown, least⟩ := NodeMap.find?_values_eq_some found
  exact ⟨n, first, congrArg some (keyed n first live), live, beq_iff_eq.1 shown,
    fun m other hm shown => least m other hm (beq_iff_eq.2 shown)⟩

/-- A workflow is built if each part of the build succeeds. -/
theorem build_eq_ok : f.build registry = .ok w' ↔ ∃ w g, f.buildNodes registry = .ok w ∧
    Graph.ofBlob f.graph = .ok g ∧ checkGraph w g = .ok () ∧ checkRoot registry w g = .ok () ∧
    f.mark { w with graph := g } = .ok w' := by
  unfold build mark
  cases f.buildNodes registry with
  | error fault => simp
  | ok w =>
    cases Graph.ofBlob f.graph with
    | error fault => simp
    | ok g =>
      cases hg : checkGraph w g with
      | error fault => simp [hg]
      | ok u =>
        cases hr : checkRoot registry w g with
        | error fault => simp [hg, hr]
        | ok u => cases f.simulateUntil <;> simp [hg, hr]

/-- The live nodes are the listed ones. -/
theorem mem_ids_iff (live : ∀ n node, w.nodes.get? n = some node ↔ Live registry f n node)
    (all : ∀ e ∈ f.nodes, ∃ node, Builds registry f.id e node) :
    n ∈ w.nodes.ids ↔ n ∈ f.nodes.map NodeExport.id := by
  rw [NodeMap.mem_ids_iff, List.mem_map]
  constructor
  · rintro ⟨node, h⟩
    obtain ⟨e, last, -⟩ := (live n node).1 h
    exact ⟨e, listing?_id last⟩
  · rintro ⟨e, he, rfl⟩
    obtain ⟨e', last⟩ := exists_listing? he
    obtain ⟨node, builds⟩ := all e' (listing?_id last).1
    exact ⟨node, (live _ node).2 ⟨e', last, builds⟩⟩

/-- A live node has the id under which it is kept. -/
theorem Live.id_eq (h : Live registry f n node) : node.id = n := by
  obtain ⟨e, last, builds⟩ := h
  exact builds.id_eq.trans (listing?_id last).2

/-- An acceptable fixture is built, -/
theorem build_of_acceptable (named : registry.Named) (h : f.Acceptable registry g) :
    ∃ w, f.build registry = .ok w := by
  obtain ⟨w, built⟩ := exists_buildNodes named h.nodes
  obtain ⟨_, live⟩ := buildNodes_eq_ok named built
  have graph : checkGraph w g = .ok () :=
    checkGraph_eq_ok.2 ⟨h.valid, fun n => (h.ids n).trans (mem_ids_iff live h.nodes).symm⟩
  have root : checkRoot registry w g = .ok () := checkRoot_eq_ok.2 fun r hr => by
    obtain ⟨node, there, trigger⟩ := h.root r hr
    exact ⟨node, (live r node).2 there, trigger⟩
  have shows (label : String) (asked : f.simulateUntil = some label) :
      ∃ n node, w.nodes.get? n = some node ∧ node.displayLabel = label := by
    obtain ⟨n, node, there, shown⟩ := h.label label asked
    exact ⟨n, node, (live n node).2 there, shown⟩
  obtain ⟨w', marked⟩ := exists_mark (w := { w with graph := g }) shows
  exact ⟨w', build_eq_ok.2 ⟨w, g, built, h.blob, graph, root, marked⟩⟩

/-- and what is built was acceptable and is described by it. -/
theorem acceptable_of_build (named : registry.Named) (h : f.build registry = .ok w') :
    f.Acceptable registry w'.graph ∧ f.Describes registry w' := by
  obtain ⟨w, g, built, blob, graph, root, marked⟩ := build_eq_ok.1 h
  obtain ⟨shape, live⟩ := buildNodes_eq_ok named built
  have all := builds_of_buildNodes named built
  obtain ⟨valid, ids⟩ := checkGraph_eq_ok.1 graph
  have marks {label : String} (asked : f.simulateUntil = some label) :=
    mark_first (w := { w with graph := g }) (fun n node h => ((live n node).1 h).id_eq) marked asked
  have same := mark_shape marked
  have sameGraph : w'.graph = g := by rw [same]
  have sameNodes : w'.nodes = w.nodes := by rw [same]
  constructor
  · exact {
      nodes := all
      blob := sameGraph ▸ blob
      valid := sameGraph ▸ valid
      ids := fun n => by rw [sameGraph, ids, mem_ids_iff live all]
      root := fun r hr => by
        obtain ⟨node, there, trigger⟩ := checkRoot_eq_ok.1 root r (sameGraph ▸ hr)
        exact ⟨node, (live r node).1 there, trigger⟩
      label := fun label asked => by
        obtain ⟨n, node, _, there, shown, _⟩ := marks asked
        exact ⟨n, node, (live n node).1 there, shown⟩ }
  · exact {
      id := by rw [same, shape]
      name := by rw [same, shape]
      graph := sameGraph ▸ blob
      nodes := sameNodes ▸ live
      unmarked := fun none => by
        simp only [mark, none] at marked
        cases marked
        rw [shape]
      marked := fun label asked => sameNodes ▸ marks asked }

/-- A fixture is built exactly if it is acceptable, and into the workflow that it describes. -/
theorem build_ok_iff (types : List NodeType) (f : Fixture) :
    ((∃ w, f.build (Registry.empty.registerAll types) = .ok w) ↔
      ∃ g, f.Acceptable (Registry.empty.registerAll types) g) ∧
    ∀ w, f.build (Registry.empty.registerAll types) = .ok w →
      f.Describes (Registry.empty.registerAll types) w := by
  have named := Registry.named_registerAll types
  refine ⟨⟨?_, ?_⟩, fun w h => (acceptable_of_build named h).2⟩
  · rintro ⟨w, h⟩
    exact ⟨w.graph, (acceptable_of_build named h).1⟩
  · rintro ⟨g, h⟩
    exact build_of_acceptable named h

end Fixture

end Autoflow
