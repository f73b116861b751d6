import Autoflow.Proofs.Editing.Copies
import Autoflow.Proofs.Editing.Requests
import Autoflow.Proofs.Graph.Renamings

/-!
# Outputs in use

The outputs of a node live in two places: its service exposes them, and its entry lists successors
under them. Inserting, removing and moving a node keeps every output in use exposed, whatever the
graph looks like otherwise. Where a node gets another service, or another node takes its place,
it depends on whether the new service has the outputs in use (`Regular.updated`,
`Regular.replaced`). A copy of the workflow succeeds as long as each of them is exposed somewhere
(`duplicateWorkflow_ok_iff`).
-/

namespace Autoflow

/-- A node of a known type with a scripted service. -/
structure Node.Built (registry : Registry) (node : Node) : Prop where
  type : ∃ type, registry.get? node.typeName = some type
  scripted : node.service.IsScripted

/-- What a known type has built is built. -/
theorem Node.built_of_build {env : Setup} (named : env.registry.Named)
    (scripts : env.registry.Scripts) {name : String} {type : NodeType}
    (ht : env.registry.get? name = some type) {config : Json} {node : Node}
    (same : node.typeName = type.name) (build : type.build config = .ok node.service) :
    node.Built env.registry where
  type := ⟨type, same ▸ named.get?_name ht⟩
  scripted := Desk.isScripted_of_build scripts ht build

/-- The type of a node that was built builds its service from its configuration again. -/
theorem Node.Built.rebuilds {registry : Registry} (scripts : registry.Scripts) {node : Node}
    (built : node.Built registry) : ∃ type, registry.get? node.typeName = some type ∧
      type.build node.service.config = .ok node.service := by
  obtain ⟨type, ht⟩ := built.type
  obtain ⟨kind, scripted⟩ := scripts _ _ ht
  refine ⟨type, ht, ?_⟩
  rw [scripted]
  exact NodeType.build_config built.scripted

namespace Workflow

/-- Every output under which the entry of a node lists successors is one that the node has. -/
def AllExposed (w : Workflow) : Prop := ∀ n, ∀ o ∈ w.graph.outputsInUse n, w.Exposes n o

/-- Whether a service is without one of the outputs of a node that are in use. -/
def lacks (w : Workflow) (n : NodeId) (s : Service) : Bool :=
  (w.graph.outputsInUse n).any fun o => !s.hasOutput o

/-- An orderly graph without empty lists, nodes that were built, and the marker on one of them. -/
structure Regular (registry : Registry) (w : Workflow) : Prop where
  orderly : w.graph.Orderly
  pruned : w.graph.Pruned
  built : ∀ {n node}, w.nodes.get? n = some node → node.Built registry
  marker : ∀ n, w.simulateUntil = some n → n ∈ w.nodes.ids

variable {registry : Registry} {w w' : Workflow} {n m r : NodeId} {node old new : Node}
  {s : Service} {p : Position} {o : String}

theorem allExposed_iff (pruned : w.graph.Pruned) :
    w.AllExposed ↔ ∀ n o, w.graph.occupants (.south n o) ≠ [] → w.Exposes n o :=
  forall_congr' fun _ => forall_congr' fun _ => imp_congr_left pruned.mem_outputsInUse

theorem lacks_eq_false (pruned : w.graph.Pruned) :
    w.lacks n s = false ↔ ∀ o, w.graph.occupants (.south n o) ≠ [] → s.hasOutput o = true := by
  unfold lacks
  simp only [List.any_eq_false, pruned.mem_outputsInUse, Bool.not_eq_true', Bool.not_eq_false]

/-- Nothing that is in use is missing from a service if only the default output is in use. -/
theorem lacks_of_bare (pruned : w.graph.Pruned) (scripted : s.IsScripted)
    (bare : ∀ o, o ≠ "" → w.graph.occupants (.south n o) = []) : w.lacks n s = false := by
  refine (lacks_eq_false pruned).2 fun o used => ?_
  by_cases default : o = ""
  · subst default
    exact scripted.hasOutput_default
  · exact absurd (bare o default) used

namespace Regular

variable (h : w.Regular registry) (ids : ∀ n, n ∈ w.graph.ids ↔ n ∈ w.nodes.ids)

include h ids in
/-- A new node is planted, in a slot that its reference exposes. -/
theorem planted (graph : Graph.insert n p w.graph = .ok () w'.graph)
    (nodes : ∀ m, w'.nodes.get? m = if n = m then some node else w.nodes.get? m)
    (marker : w'.simulateUntil = w.simulateUntil) (fresh : n ∉ w.nodes.ids)
    (built : node.Built registry) (outlet : ∀ r, p.reference = some r → w.Exposes r p.output) :
    w'.Regular registry ∧ (w.AllExposed → w'.AllExposed) := by
  have off : n ∉ w.graph.ids := fun mem => fresh ((ids n).1 mem)
  obtain ⟨layout, orderly⟩ := h.orderly.insert off graph
  have pruned := h.pruned.insert graph
  have own : p.slot.owner? ≠ some n := fun owner =>
    off (Graph.reference_of_insert graph (p.owner_slot ▸ owner))
  have still : ∀ {m o}, w.Exposes m o → w'.Exposes m o := by
    rintro m o ⟨node', hm, out⟩
    refine ⟨node', ?_, out⟩
    rw [nodes m, if_neg, hm]
    rintro rfl
    exact fresh (NodeMap.mem_ids_of_get? hm)
  refine ⟨⟨orderly, pruned, fun {m node'} hm => ?_, fun m hm => ?_⟩, fun exposed => ?_⟩
  · rw [nodes m] at hm
    split at hm
    · cases hm
      exact built
    · exact h.built hm
  · exact (NodeMap.mem_ids_of_insert nodes m).2 (Or.inr (h.marker m (marker ▸ hm)))
  · refine (allExposed_iff pruned).2 fun m o used => ?_
    rw [layout] at used
    rcases Layout.plant_in_use own used with here | ⟨rfl, rfl⟩ | ⟨_, before⟩
    · obtain ⟨ref, _, rfl⟩ := Position.slot_eq_south here.symm
      exact still (outlet m ref)
    · exact ⟨node, by rw [nodes, if_pos rfl], built.scripted.hasOutput_default⟩
    · exact still ((allExposed_iff h.pruned).1 exposed m o before)

include h ids in
/-- A node is taken out. -/
theorem uprooted (graph : Graph.remove n false w.graph = .ok () w'.graph)
    (nodes : ∀ m, w'.nodes.get? m = if n = m then none else w.nodes.get? m)
    (marker : ∀ m, w'.simulateUntil = some m → m ≠ n ∧ w.simulateUntil = some m)
    (live : n ∈ w.nodes.ids) : w'.Regular registry ∧ (w.AllExposed → w'.AllExposed) := by
  obtain ⟨s, e, stands, layout, orderly⟩ := h.orderly.remove ((ids n).2 live) graph
  have pruned := h.pruned.remove graph
  refine ⟨⟨orderly, pruned, fun {m node'} hm => ?_, fun m hm => ?_⟩, fun exposed => ?_⟩
  · rw [nodes m] at hm
    split at hm
    · cases hm
    · exact h.built hm
  · obtain ⟨ne, before⟩ := marker m hm
    exact (NodeMap.mem_ids_of_erase nodes m).2 ⟨ne, h.marker m before⟩
  · refine (allExposed_iff pruned).2 fun m o used => ?_
    rw [layout] at used
    obtain ⟨ne, before⟩ := Layout.extract_in_use stands.mem used
    obtain ⟨node', hm, out⟩ := (allExposed_iff h.pruned).1 exposed m o before
    exact ⟨node', by rw [nodes, if_neg (Ne.symm ne), hm], out⟩

include h ids in
/-- A node that was not live takes the place of another one. -/
theorem replaced (w' : Workflow) (graph : Graph.replace n m w.graph = .ok () w'.graph)
    (nodes : ∀ k, w'.nodes.get? k =
      if m = k then some new else if n = k then none else w.nodes.get? k)
    (marker : ∀ k, w'.simulateUntil = some k → k ≠ n ∧ w.simulateUntil = some k)
    (fresh : m ∉ w.nodes.ids) (built : new.Built registry) :
    w'.Regular registry ∧
      (w.AllExposed → (w'.AllExposed ↔ w.lacks n new.service = false)) := by
  have off : m ∉ w.graph.ids := fun mem => fresh ((ids m).1 mem)
  obtain ⟨layout, orderly⟩ := h.orderly.replace off graph
  have pruned := h.pruned.replace graph
  have used_iff : ∀ k o, w'.graph.occupants (.south k o) ≠ [] ↔
      w.graph.occupants (.south (Equiv.swap n m k) o) ≠ [] := fun k o => by
    rw [layout]
    exact Layout.relabel_in_use
  refine ⟨⟨orderly, pruned, fun {k node'} hk => ?_, fun k hk => ?_⟩, fun exposed => ?_⟩
  · rw [nodes k] at hk
    split at hk
    · cases hk
      exact built
    · split at hk
      · cases hk
      · exact h.built hk
  · obtain ⟨ne, before⟩ := marker k hk
    obtain ⟨node', hk⟩ := NodeMap.mem_ids_iff.1 (h.marker k before)
    refine NodeMap.mem_ids_iff.2 ⟨node', ?_⟩
    rw [nodes k, if_neg, if_neg (Ne.symm ne), hk]
    rintro rfl
    exact fresh (NodeMap.mem_ids_of_get? hk)
  · rw [allExposed_iff pruned, lacks_eq_false h.pruned]
    constructor
    · intro exposed' o used
      obtain ⟨node', hm, out⟩ := exposed' m o ((used_iff m o).2 (by rwa [Equiv.swap_apply_right]))
      rw [nodes, if_pos rfl] at hm
      cases hm
      exact out
    · intro has k o used
      replace used := (used_iff k o).1 used
      by_cases taken : m = k
      · subst taken
        rw [Equiv.swap_apply_right] at used
        exact ⟨new, by rw [nodes, if_pos rfl], has o used⟩
      · by_cases gone : n = k
        · subst gone
          rw [Equiv.swap_apply_left] at used
          exact absurd (Graph.occupants_eq_nil off rfl) used
        · rw [Equiv.swap_apply_of_ne_of_ne (Ne.symm gone) (Ne.symm taken)] at used
          obtain ⟨node', hk, out⟩ := (allExposed_iff h.pruned).1 exposed k o used
          exact ⟨node', by rw [nodes, if_neg taken, if_neg gone, hk], out⟩

include h ids in
/-- A node is moved to a slot of another node that exposes it. -/
theorem moved (graph : Graph.move n p w.graph = .ok () w'.graph) (nodes : w'.nodes = w.nodes)
    (marker : w'.simulateUntil = w.simulateUntil) (live : w.nodes.get? n = some node)
    (ref : p.reference = some r) (ne : r ≠ n) (outlet : w.Exposes r p.output) :
    w'.Regular registry ∧ (w.AllExposed → w'.AllExposed) := by
  have there := (ids n).2 (NodeMap.mem_ids_of_get? live)
  obtain ⟨s, e, stands, layout, orderly⟩ := h.orderly.move there ref ne graph
  have pruned := h.pruned.move graph
  have own : p.slot.owner? ≠ some n := by
    rw [p.owner_slot, ref]
    exact fun owner => ne (Option.some.inj owner)
  have still : ∀ {m o}, w.Exposes m o → w'.Exposes m o := by
    rintro m o ⟨node', hm, out⟩
    exact ⟨node', nodes ▸ hm, out⟩
  refine ⟨⟨orderly, pruned, fun hm => h.built (nodes ▸ hm), fun m hm => ?_⟩, fun exposed => ?_⟩
  · rw [nodes]
    exact h.marker m (marker ▸ hm)
  · refine (allExposed_iff pruned).2 fun m o used => ?_
    rw [layout] at used
    rcases Layout.plant_in_use own used with here | ⟨rfl, rfl⟩ | ⟨_, left⟩
    · obtain ⟨ref', _, rfl⟩ := Position.slot_eq_south here.symm
      rw [ref] at ref'
      cases ref'
      exact still outlet
    · exact still ⟨node, live, (h.built live).scripted.hasOutput_default⟩
    · have before := (Layout.extract_in_use stands.mem left).2
      exact still ((allExposed_iff h.pruned).1 exposed m o before)

include h in
/-- A node gets other values. -/
theorem updated (w' : Workflow) (graph : w'.graph = w.graph)
    (nodes : ∀ m, w'.nodes.get? m = if n = m then some new else w.nodes.get? m)
    (marker : w'.simulateUntil = w.simulateUntil) (built : new.Built registry) :
    w'.Regular registry ∧
      (w.AllExposed → (w'.AllExposed ↔ w.lacks n new.service = false)) := by
  have pruned : w'.graph.Pruned := graph ▸ h.pruned
  refine ⟨⟨graph ▸ h.orderly, pruned, fun {m node'} hm => ?_, fun m hm => ?_⟩, fun exposed => ?_⟩
  · rw [nodes m] at hm
    split at hm
    · cases hm
      exact built
    · exact h.built hm
  · exact (NodeMap.mem_ids_of_insert nodes m).2 (Or.inr (h.marker m (marker ▸ hm)))
  · rw [allExposed_iff pruned, lacks_eq_false h.pruned, graph]
    constructor
    · intro exposed' o used
      obtain ⟨node', hn, out⟩ := exposed' n o used
      rw [nodes, if_pos rfl] at hn
      cases hn
      exact out
    · intro has m o used
      by_cases same : n = m
      · subst same
        exact ⟨new, by rw [nodes, if_pos rfl], has o used⟩
      · obtain ⟨node', hm, out⟩ := (allExposed_iff h.pruned).1 exposed m o used
        exact ⟨node', by rw [nodes, if_neg same, hm], out⟩

/-- The marker is set to a live node or taken away. -/
theorem marked (h : w.Regular registry) (mark : Option NodeId)
    (live : ∀ n, mark = some n → n ∈ w.nodes.ids) :
    ({ w with simulateUntil := mark } : Workflow).Regular registry :=
  ⟨h.orderly, h.pruned, h.built, live⟩

end Regular

end Workflow

/-! ## Copies -/

namespace Edit

variable {env : Setup} {d : Desk} {done : List Node} {acc : Workflow × Renaming}

/-- A node that was built can be built again. -/
theorem copyNode_run (scripts : env.registry.Scripts) {node : Node} (built : node.Built env.registry)
    (acc : Workflow × Renaming) (d : Desk) : ∃ acc' d', copyNode env acc node d = .ok acc' d' := by
  obtain ⟨type, ht, again⟩ := built.rebuilds scripts
  exact ⟨_, _, copyNode_eq_ok.2 ⟨type, _, ht, again, rfl, rfl⟩⟩

theorem copies_run (scripts : env.registry.Scripts) {nodes : List Node}
    (built : ∀ node ∈ nodes, node.Built env.registry) (acc : Workflow × Renaming) (d : Desk) :
    ∃ acc' d', nodes.foldlM (copyNode env) acc d = .ok acc' d' := by
  induction nodes generalizing acc d with
  | nil => exact ⟨acc, d, rfl⟩
  | cons node nodes ih =>
    obtain ⟨next, d₁, first⟩ := copyNode_run scripts (built node List.mem_cons_self) acc d
    obtain ⟨last, d', rest⟩ := ih (fun x mem => built x (List.mem_cons_of_mem node mem)) next d₁
    exact ⟨last, d', by rw [List.foldlM_cons]; exact bind_eq_ok.2 ⟨next, d₁, first, rest⟩⟩

/-- The renaming knows every node of a filed workflow that was copied. -/
theorem Copied.knows {w : Workflow} (copied : Copied w.nodes.values acc) (filed : w.Filed)
    {n : NodeId} (live : n ∈ w.nodes.ids) :
    ∃ m, acc.2.node n = .ok m ∧ m ∈ acc.1.nodes.ids := by
  have key : n ∈ acc.2.nodes.keys := by
    rw [copied.keys, filed.keyed.map_id_values]
    exact live
  obtain ⟨m, hm⟩ := OrderedMap.mem_keys_iff.1 key
  exact ⟨m, Renaming.node_eq_ok.2 hm, (copied.images m).2 ⟨n, hm⟩⟩

/-- A copy succeeds exactly if every output in use is exposed by some node, be it another one than
the node it is used at. -/
theorem duplicateWorkflow_ok_iff (accepting : env.Accepting) (scripts : env.registry.Scripts)
    (filed : d.workflow.Filed) (regular : d.workflow.Regular env.registry) (id : WorkflowId)
    (name : String) : (∃ w d', duplicateWorkflow env id name d = .ok w d') ↔
      ∀ n, ∀ o ∈ d.workflow.graph.outputsInUse n, ∃ m, d.workflow.Exposes m o := by
  have built : ∀ node ∈ d.workflow.nodes.values, node.Built env.registry := by
    intro node mem
    obtain ⟨n, hn⟩ := NodeMap.mem_values_iff.1 mem
    exact regular.built hn
  constructor
  · rintro ⟨w, d', run⟩ n o used
    obtain ⟨acc, d₁, g, _, copies, renamed, _⟩ := duplicateWorkflow_eq_ok.1 run
    obtain ⟨o', output⟩ := Graph.output_of_rename renamed n o used
    rcases Renaming.output_eq_ok.1 output with ⟨rfl, _⟩ | ⟨_, known⟩
    · -- No node needs to have been copied for the default output, but this one is live.
      have live := (filed.ids n).1 (Graph.mem_ids_of_outputsInUse used)
      obtain ⟨node, hn⟩ := NodeMap.mem_ids_iff.1 live
      exact ⟨n, node, hn, (regular.built hn).scripted.hasOutput_default⟩
    · obtain ⟨_, node, mem, out⟩ := (copied_values filed.keyed copies).exposed known
      obtain ⟨m, hm⟩ := NodeMap.mem_values_iff.1 mem
      exact ⟨m, node, hm, out⟩
  · intro exposed
    obtain ⟨acc, d₁, copies⟩ := copies_run scripts built ({ id, name }, {}) d
    have copied := copied_values filed.keyed copies
    obtain ⟨g, renamed⟩ : ∃ g, d.workflow.graph.rename acc.2 = .ok g := by
      refine regular.orderly.exists_rename (fun n mem => ?_) fun n o used => ⟨o, ?_⟩
      · obtain ⟨m, named, _⟩ := copied.knows filed ((filed.ids n).1 mem)
        exact ⟨m, named⟩
      · obtain ⟨m, node, hm, out⟩ := exposed n o used
        exact copied.outputs (NodeMap.mem_values_iff.2 ⟨m, hm⟩) out
    obtain ⟨mark, marked⟩ : ∃ mark, MarkerCopied d.workflow acc mark := by
      unfold MarkerCopied
      cases marker : d.workflow.simulateUntil with
      | none => exact ⟨_, rfl⟩
      | some n =>
        obtain ⟨m, named, live⟩ := copied.knows filed (regular.marker n marker)
        exact ⟨some m, m, named, live, rfl⟩
    exact ⟨_, _, duplicateWorkflow_eq_ok.2
      ⟨acc, d₁, g, mark, copies, renamed, marked, rfl, accepting _, rfl⟩⟩

end Edit

end Autoflow
