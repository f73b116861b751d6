import Autoflow.Proofs.Editing.Branches
import Autoflow.Proofs.Graph.Labels

/-!
# A copy and its source

A copy of a valid workflow is the workflow over again under other ids: one permutation of the ids
takes the nodes, the graph and the marker to those of the copy, so both have the same labeled form
(`Edit.duplicateWorkflow_twin`). The ids are those that the counter draws next. The counter was set
above the ids of the workflow, but it comes round after the last id of 64 bits, so a copy can take
an id of its source. The theorem says when none is taken.
-/

namespace Autoflow

namespace Edit

open Desk

variable {d d' : Desk}

/-- Once ids are reserved for a workflow, fresh ones are past an id of it exactly if they were so
before or the workflow does not have the last id of 64 bits. -/
theorem lt_of_reserveIds (filed : d'.workflow.Filed) (h : reserveIds d = .ok () d') :
    d'.workflow = d.workflow ∧ ∀ n ∈ d'.workflow.nodes.ids, n < d'.editor.nextId ↔
      n < d.editor.nextId ∨ ∀ m ∈ d'.workflow.nodes.ids, m.toNat + 1 < UInt64.size := by
  rw [reserveIds_run] at h
  cases h
  exact ⟨rfl, fun n live => lt_reserved_iff filed live⟩

end Edit

/-- Twins have the same labels. -/
theorem Workflow.translates_of_twins {w copy : Workflow} {id : WorkflowId}
    {σ : Equiv.Perm NodeId} (nodes : ∀ n, copy.nodes.get? (σ n) =
      (w.nodes.get? n).map fun node => node.twin (σ n) id) :
    w.labels.Translates σ copy.labels where
  inj := σ.injective
  node n := by
    simp only [labels, nodes n, Option.map_map]
    rfl
  output n o := by
    simp only [labels, nodes n, Option.bind_map]
    rfl

/-- A copy with the same nodes, the same graph and the same marker under ids that were drawn one
after the other. None of them is an id of the source as long as the counter does not come round. -/
structure Desk.Twin (d d' : Desk) (copy : Workflow) (copyId : WorkflowId)
    (σ : Equiv.Perm NodeId) : Prop where
  source : d'.workflow = d.workflow
  drawn : ∀ i node, d.workflow.nodes.values[i]? = some node →
    σ node.id = NodeId.next^[i] d.editor.nextId
  nodes : ∀ n, copy.nodes.get? (σ n) =
    (d.workflow.nodes.get? n).map fun node => node.twin (σ n) copyId
  graph : copy.graph = d.workflow.graph.image σ id
  labels : ∃ v, d.workflow.labeledGraph = .ok v ∧ copy.labeledGraph = .ok v
  valid : copy.graph.validate = .ok ()
  marker : copy.simulateUntil = d.workflow.simulateUntil.map σ
  stored : d'.editor.store.load? copyId = some copy.graph.toBlob
  new : (∀ n ∈ d.workflow.nodes.ids, n.toNat + 1 < UInt64.size) →
    ((∀ m ∈ copy.nodes.ids, m ∉ d.workflow.nodes.ids) ↔ ∀ n ∈ d.workflow.nodes.ids,
      d.editor.nextId.toNat + d.workflow.nodes.size ≤ UInt64.size + n.toNat)

namespace Edit

open Desk

variable {env : Setup} {d₀ d₁ d d' : Desk} {acc : Workflow × Renaming} {registry : Registry}
  {first : NodeId} {copyId : WorkflowId} {name : String} {source copy : Workflow}
  {σ : Equiv.Perm NodeId}

/-! ## Ids of a copy -/

theorem exists_value (filed : source.Filed) {n : NodeId} {node : Node}
    (live : source.nodes.get? n = some node) :
    ∃ i : Nat, source.nodes.values[i]? = some node ∧ node.id = n := by
  obtain ⟨i, held⟩ := List.mem_iff_getElem?.1 (NodeMap.mem_values_iff.2 ⟨n, live⟩)
  exact ⟨i, held, filed.id live⟩

theorem get?_of_value (filed : source.Filed) {i : Nat} {node : Node}
    (held : source.nodes.values[i]? = some node) : source.nodes.get? node.id = some node := by
  obtain ⟨n, live⟩ := NodeMap.mem_values_iff.1 (List.mem_of_getElem? held)
  exact filed.id live ▸ live

section Names

variable (filed : source.Filed) (numbered : Numbered registry copyId first source.nodes.values acc)
  (twins : ∀ node ∈ source.nodes.values, ∀ m,
    node.copied registry m copyId = some (node.twin m copyId))
  (names : ∀ k m, acc.2.node k = .ok m → m = σ k)

include numbered names in
theorem drawn_of_value {i : Nat} {node : Node} (held : source.nodes.values[i]? = some node) :
    σ node.id = NodeId.next^[i] first :=
  (names _ _ (Renaming.node_eq_ok.2 ((numbered.names _ _).2 ⟨i, node, held, rfl, rfl⟩))).symm

include filed numbered twins names in
/-- The nodes of the copy are those of the workflow under their new names. -/
theorem get?_of_names (n : NodeId) : acc.1.nodes.get? (σ n) =
    (source.nodes.get? n).map fun node => node.twin (σ n) copyId := by
  cases live : source.nodes.get? n with
  | some node =>
    obtain ⟨i, held, rfl⟩ := exists_value filed live
    have drawn := drawn_of_value numbered names held
    exact (numbered.nodes _ _).2 ⟨i, node, held, drawn.symm, twins node (List.mem_of_getElem? held) _⟩
  | none =>
    cases copied : acc.1.nodes.get? (σ n) with
    | none => rfl
    | some copy =>
      obtain ⟨i, node, held, drawn, _⟩ := (numbered.nodes _ _).1 copied
      have same : node.id = n :=
        σ.injective ((drawn_of_value numbered names held).trans drawn)
      rw [← same, get?_of_value filed held] at live
      cases live

include numbered twins in
/-- An id of the workflow is taken exactly if the counter comes round to it. -/
theorem new_iff (below : ∀ n ∈ source.nodes.ids, n.toNat < first.toNat) :
    (∀ m ∈ acc.1.nodes.ids, m ∉ source.nodes.ids) ↔ ∀ n ∈ source.nodes.ids,
      first.toNat + source.nodes.size ≤ UInt64.size + n.toNat := by
  have size : source.nodes.values.length = source.nodes.size := List.length_map _
  have bound := first.toNat_lt
  constructor
  · intro new n live
    by_contra round
    have low := below n live
    -- The step after which the counter stands on `n` again.
    obtain ⟨i, at_n⟩ : ∃ i, first.toNat + i = UInt64.size + n.toNat :=
      ⟨UInt64.size + n.toNat - first.toNat, by omega⟩
    have lt : i < source.nodes.values.length := by omega
    have taken : NodeId.next^[i] first = n := by
      apply NodeId.toNat_inj.1
      rw [NodeId.toNat_iterate_next, at_n, Nat.add_mod_left]
      exact Nat.mod_eq_of_lt n.toNat_lt
    have copied := (numbered.nodes n _).2
      ⟨i, _, List.getElem?_eq_getElem lt, taken, twins _ (List.getElem_mem lt) n⟩
    exact new n (NodeMap.mem_ids_of_get? copied) live
  · intro short m mem live
    obtain ⟨copy, copied⟩ := NodeMap.mem_ids_iff.1 mem
    obtain ⟨i, node, held, drawn, _⟩ := (numbered.nodes m copy).1 copied
    have lt : i < source.nodes.values.length := (List.getElem?_eq_some_iff.1 held).1
    have at_m : (first.toNat + i) % UInt64.size = m.toNat := by
      rw [← NodeId.toNat_iterate_next, drawn]
    have low := below m live
    have far := short m live
    unfold UInt64.size at *
    omega

end Names

/-- A copy of a valid workflow whose nodes were built is its twin, whenever the copy succeeds. -/
theorem duplicateWorkflow_twin (named : env.registry.Named) (scripts : env.registry.Scripts)
    (filed : d.workflow.Filed) (valid : d.workflow.graph.validate = .ok ())
    (built : ∀ n node, d.workflow.nodes.get? n = some node → node.Built env.registry)
    (reserved : reserveIds d₀ = .ok () d₁) (same : d.workflow = d₁.workflow)
    (later : d₁.editor.nextId.toNat ≤ d.editor.nextId.toNat)
    (run : duplicateWorkflow env copyId name d = .ok copy d') : ∃ σ, d.Twin d' copy copyId σ := by
  obtain ⟨acc, d₂, g, mark, copies, renamed, marked, rfl, _, rfl⟩ := duplicateWorkflow_eq_ok.1 run
  have copied := copied_values filed.keyed copies
  obtain ⟨numbered, _⟩ := numbered_values filed.keyed copies
  have twins : ∀ node ∈ d.workflow.nodes.values, ∀ m,
      node.copied env.registry m copyId = some (node.twin m copyId) := by
    intro node mem m
    obtain ⟨n, live⟩ := NodeMap.mem_values_iff.1 mem
    exact (built n node live).copied named scripts m copyId
  obtain ⟨σ, names, rfl⟩ :=
    image_of_copied copied (numbered.distinct filed.keyed.length_values_le) renamed
  have nodes := get?_of_names filed numbered twins names
  have tree := Graph.validate_eq_ok_iff.1 valid
  refine ⟨σ, ?_, fun i node => drawn_of_value numbered names, nodes, rfl, ?_,
    Graph.validate_eq_ok_iff.2 (tree.image σ), marked.eq_map copied names, ?_, ?_⟩
  · exact ((copies_draw _ _).ok copies).drew.workflow
  · refine Graph.labeled_image (Workflow.translates_of_twins nodes) tree.toOrderly fun n mem => ?_
    obtain ⟨node, live⟩ := NodeMap.mem_ids_iff.1 ((filed.ids n).1 mem)
    simp [Workflow.labels, live]
  · rw [← numbered.workflow]
    exact load?_stored d₂ _
  · intro small
    obtain ⟨_, high⟩ := lt_of_reserveIds (same ▸ filed) reserved
    rw [← same] at high
    exact new_iff numbered twins fun n live =>
      Nat.lt_of_lt_of_le (NodeId.lt_def.1 ((high n live).2 (Or.inr small))) later

/-- Whenever a valid workflow of builtin types is copied, the copy is its twin. At some time before,
ids were reserved for the workflow, and the counter of fresh ids has only gone on since. -/
theorem duplicateWorkflow_builtin (branchUid : Nat → String) (saveFault : Nat → Option Failure)
    (filed : d.workflow.Filed) (valid : d.workflow.graph.validate = .ok ())
    (built : ∀ n node, d.workflow.nodes.get? n = some node → node.Built .builtin)
    (reserved : reserveIds d₀ = .ok () d₁) (same : d.workflow = d₁.workflow)
    (later : d₁.editor.nextId.toNat ≤ d.editor.nextId.toNat)
    (run : duplicateWorkflow ⟨.builtin, branchUid, saveFault⟩ copyId name d = .ok copy d') :
    ∃ σ, d.Twin d' copy copyId σ := by
  have named : Registry.builtin.Named := Registry.named_builtin
  have scripts : Registry.builtin.Scripts := Registry.scripts_builtin
  exact duplicateWorkflow_twin named scripts filed valid built reserved same later run

end Edit

namespace Session

open Edit

/-- The copy of a workflow with five nodes has the next five ids, which are all new. -/
theorem duplicateWorkflow_builtin_branching : ∃ d₀ d copy d' σ,
    (stepped branching).desk? "main" = some d₀ ∧ reserveIds d₀ = .ok () d ∧
    duplicateWorkflow (.builtin fun _ => "branch") 2 "Copy" d = .ok copy d' ∧
    d.Twin d' copy 2 σ ∧ ∀ m ∈ copy.nodes.ids, m ∉ d.workflow.nodes.ids := by
  have facts : ((stepped branching).desk? "main").map (fun d₀ =>
      (d₀.workflow.graph.validate, d₀.workflow.nodes.ids, d₀.reserved.editor.nextId,
        succeeds (duplicateWorkflow (.builtin fun _ => "branch") 2 "Copy") d₀.reserved)) =
      some (.ok (), [1, 2, 3, 4, 5], 6, true) := by
    decide +kernel
  obtain ⟨d₀, here, facts⟩ := Option.map_eq_some_iff.1 facts
  obtain ⟨d, run₀⟩ : ∃ d, d = d₀.reserved := ⟨_, rfl⟩
  have reserved := reserveIds_run d₀
  rw [← run₀] at facts reserved
  simp only [Prod.mk.injEq] at facts
  obtain ⟨valid, ids, next, copies⟩ := facts
  obtain ⟨copy, d', run⟩ := exists_of_succeeds copies
  have same : d.workflow = d₀.workflow := run₀ ▸ rfl
  rw [← same] at valid ids
  have regular := regular_of_run _ _ _ branching (by decide +kernel) here
  have filed : d.workflow.Filed := same ▸ regular.filed.workflow
  have workflow : d.workflow.Regular .builtin := same ▸ regular.workflow
  obtain ⟨σ, twin⟩ :=
    duplicateWorkflow_builtin _ _ filed valid (fun n node => workflow.built) reserved rfl
      (Nat.le_refl _) run
  refine ⟨d₀, d, copy, d', σ, here, reserved, run, twin, (twin.new ?_).2 ?_⟩
  · rw [ids]
    decide
  · have size : d.workflow.nodes.size = 5 := by
      have count := congrArg List.length ids
      simpa [NodeMap.ids, NodeMap.size, Assoc.keys] using count
    rw [ids, next, size]
    decide

/-- A workflow with a node whose id is the last but one. -/
def highFixture : Fixture where
  name := "High"
  nodes := [⟨1, "periodic", "", .null⟩, ⟨2, "http_request", "", .null⟩,
    ⟨⟨18446744073709551614⟩, "smtp_email", "", .null⟩]
  graph := .object [
    ("0", NodeId.toJson 1),
    ("1", .object [("next", .object [("", NodeId.listToJson [2])])]),
    ("2", .object [("next", .object [("", NodeId.listToJson [⟨18446744073709551614⟩])])]),
    ("18446744073709551614", .object [])]

/-- Above that id there is only one left, so the counter comes round, and the copy takes an id that
the workflow has, although fresh ids were reserved for it. -/
theorem copied_takes_id :
    (((opened (.builtin fun _ => "branch") true []).load "main" .builtin highFixture
      true).toOption.bind fun s =>
        ((s.copy "main" "copy" 2 "Copy").desk? "copy").map fun d =>
          (s.editor.nextId, (s.desk? "main").map (·.workflow.nodes.ids), d.workflow.nodes.ids)) =
      some (⟨18446744073709551615⟩, some [1, 2, ⟨18446744073709551614⟩],
        [0, 1, ⟨18446744073709551615⟩]) := by
  decide +kernel

end Session

end Autoflow
