import Autoflow.Proofs.Editing.Numbering
import Autoflow.Proofs.Editing.Reflections

/-!
# Copies of mirrored workflows

If the ids of a workflow and of its mirror image are in the same order, the one is copied if the
other is, and as many ids are drawn for it, whether that succeeds or not
(`Edit.duplicateWorkflow_outcome`, `Edit.duplicateWorkflow_nextId`).
-/

namespace Autoflow

/-- If the ids keep their order, so do the nodes listed by their ids. -/
theorem Workflow.Relabels.values {σ : Equiv.Perm NodeId} {w w' : Workflow} (h : w.Relabels σ w')
    (rising : ∀ n ∈ w.nodes.ids, ∀ m ∈ w.nodes.ids, n < m → σ n < σ m) :
    w'.nodes.values = w.nodes.values.map (Node.relabel σ) := by
  have sorted : NodeMap.Sorted (w.nodes.toList.map fun p => (σ p.1, p.2.relabel σ)) := by
    refine List.pairwise_map.2 (w.nodes.sorted.imp_of_mem fun {p q} hp hq lt => ?_)
    exact rising _ (List.mem_map_of_mem hp) _ (List.mem_map_of_mem hq) lt
  have same : w'.nodes.toList = w.nodes.toList.map fun p => (σ p.1, p.2.relabel σ) := by
    refine NodeMap.eq_of_find?_eq w'.nodes.sorted sorted fun n => ?_
    have look := h.nodes (σ.symm n)
    have image := Assoc.find?_map σ.injective (Node.relabel σ) (σ.symm n) w.nodes.toList
    rw [Equiv.apply_symm_apply] at look image
    exact look.trans image.symm
  rw [NodeMap.values, same, NodeMap.values, List.map_map, List.map_map]
  rfl

namespace Edit

open Desk

variable {α β : Type} {σ : Equiv.Perm NodeId} {env env' : Setup} {d d' e : Desk}
  {acc : Workflow × Renaming} {node : Node} {nodes : List Node} {id : WorkflowId} {name : String}
  {w : Workflow}

theorem left_workflow_bind (k : Workflow → Edit β) (d : Desk) :
    (workflow >>= k).left d = (k d.workflow).left d := rfl

/-! ## The nodes -/

/-- A node of a known type whose configuration builds a service again. -/
def Copyable (registry : Registry) (node : Node) : Prop :=
  ∃ type service, registry.get? node.typeName = some type ∧
    type.build node.service.config = .ok service

/-- The number of ids that are drawn to copy nodes. For the first one that cannot be copied an id is
drawn if its type is known. -/
def copyDraws (registry : Registry) : List Node → Nat
  | [] => 0
  | node :: nodes =>
    match registry.get? node.typeName with
    | none => 0
    | some type =>
      match type.build node.service.config with
      | .ok _ => copyDraws registry nodes + 1
      | .error _ => 1

/-- The ids of the nodes do not matter to that. -/
theorem copyDraws_map (registry : Registry) (f : NodeId → NodeId) (nodes : List Node) :
    copyDraws registry (nodes.map (Node.relabel f)) = copyDraws registry nodes := by
  induction nodes with
  | nil => rfl
  | cons node nodes ih => simp only [List.map_cons, copyDraws, Node.relabel, ih]

/-- How the copy of a node fails. -/
theorem copyNode_unknown (acc : Workflow × Renaming) (d : Desk)
    (unknown : env.registry.get? node.typeName = none) :
    ∃ f, copyNode env acc node d = .error f d := by
  have missing : ∃ f, env.registry.require node.typeName = .error f := by
    unfold Registry.require
    rw [unknown]
    exact ⟨_, rfl⟩
  obtain ⟨f, missing⟩ := missing
  unfold copyNode
  rw [missing]
  exact ⟨_, rfl⟩

theorem copyNode_broken (acc : Workflow × Renaming) (d : Desk) {type : NodeType}
    {fault : NodeFault} (ht : env.registry.get? node.typeName = some type)
    (broken : type.build node.service.config = .error fault) :
    ∃ f, copyNode env acc node d = .error f d.drawn := by
  unfold copyNode
  rw [Workflow.require_eq_ok.2 ht, check_ok_bind, newNode_bind, broken]
  exact ⟨_, rfl⟩

theorem copies_left (env : Setup) (acc : Workflow × Renaming) (nodes : List Node) (d : Desk) :
    (nodes.foldlM (copyNode env) acc).left d = drawn^[copyDraws env.registry nodes] d := by
  induction nodes generalizing acc d with
  | nil => rfl
  | cons node nodes ih =>
    rw [List.foldlM_cons, copyDraws]
    cases ht : env.registry.get? node.typeName with
    | none =>
      obtain ⟨f, run⟩ := copyNode_unknown acc d ht
      exact left_bind_error run
    | some type =>
      cases build : type.build node.service.config with
      | ok service =>
        simp only [build]
        exact (left_bind_ok (copyNode_eq_ok.2 ⟨type, service, ht, build, rfl, rfl⟩)).trans (ih _ _)
      | error fault =>
        obtain ⟨f, run⟩ := copyNode_broken acc d ht build
        simp only [build]
        exact left_bind_error run

variable (d acc) in
/-- Nodes are copied if each can be. -/
theorem copies_ok_iff : (∃ acc' e, nodes.foldlM (copyNode env) acc d = .ok acc' e) ↔
    ∀ node ∈ nodes, Copyable env.registry node := by
  induction nodes generalizing acc d with
  | nil => exact iff_of_true ⟨acc, d, rfl⟩ nofun
  | cons node nodes ih =>
    rw [List.foldlM_cons, List.forall_mem_cons]
    constructor
    · rintro ⟨acc', e, run⟩
      obtain ⟨next, d₁, first, rest⟩ := bind_eq_ok.1 run
      obtain ⟨type, service, ht, build, _⟩ := copyNode_eq_ok.1 first
      exact ⟨⟨type, service, ht, build⟩, (ih _ _).1 ⟨acc', e, rest⟩⟩
    · rintro ⟨⟨type, service, ht, build⟩, rest⟩
      obtain ⟨acc', e, run⟩ := (ih _ _).2 rest
      exact ⟨acc', e, bind_eq_ok.2
        ⟨_, _, copyNode_eq_ok.2 ⟨type, service, ht, build, rfl, rfl⟩, run⟩⟩

/-! ## The workflow -/

/-- The workflow and the trash stay as they are. -/
abbrev Unmoved (d e : Desk) : Prop :=
  e.workflow = d.workflow ∧ e.editor.trash = d.editor.trash

theorem unmoved_check {ε : Type} [Fault ε] (r : Except ε α) : Within Unmoved (check r) :=
  within_check (R := Unmoved) (fun _ => ⟨rfl, rfl⟩) r

theorem unmoved_bind {x : Edit α} {k : α → Edit β} (hx : Within Unmoved x)
    (hk : ∀ a, Within Unmoved (k a)) : Within Unmoved (x >>= k) :=
  Within.bind (fun h h' => ⟨h'.1.trans h.1, h'.2.trans h.2⟩) hx hk

theorem unmoved_commitOf (env : Setup) (w : Workflow) : Within Unmoved (commitOf env w) := by
  have saves : Within Unmoved (save env w) := by
    refine ⟨fun {d _ _} h => ?_, fun {d _ _} h => ?_⟩ <;> unfold save at h <;> split at h <;>
      cases h <;> exact ⟨rfl, rfl⟩
  exact unmoved_bind (.of_run (fun _ => rfl) fun _ => ⟨rfl, rfl⟩) fun _ => saves

variable (env id name) in
/-- A copy leaves the workflow and the trash alone. -/
theorem duplicateWorkflow_unmoved : Within Unmoved (duplicateWorkflow env id name) := by
  have copies : ∀ nodes acc, Within Unmoved (List.foldlM (copyNode env) acc nodes) :=
    fun nodes acc => (copies_draw acc nodes).mono fun h => ⟨h.drew.workflow, h.drew.trash⟩
  have rest : ∀ copy : Workflow, Within Unmoved (commitOf env copy >>= fun _ => pure copy) :=
    fun copy => unmoved_bind (unmoved_commitOf env copy) fun _ =>
      within_pure (R := Unmoved) (fun _ => ⟨rfl, rfl⟩) copy
  unfold duplicateWorkflow
  refine unmoved_bind (.of_run (fun _ => rfl) fun _ => ⟨rfl, rfl⟩) fun w =>
    unmoved_bind (copies _ _) fun acc => unmoved_bind (unmoved_check _) fun g => ?_
  cases w.simulateUntil with
  | none => exact rest _
  | some n =>
    exact unmoved_bind (unmoved_check _) fun m => unmoved_bind (unmoved_check _) rest

variable (env id name d) in
/-- The ids that a copy draws are those of its nodes. -/
theorem duplicateWorkflow_nextId :
    ((duplicateWorkflow env id name).left d).editor.nextId =
      NodeId.next^[copyDraws env.registry d.workflow.nodes.values] d.editor.nextId := by
  have rest : ∀ copy : Workflow, Steady (commitOf env copy >>= fun _ => pure copy) :=
    fun copy => (steady_commitOf env copy).bind fun _ => steady_pure copy
  have counts : Function.Semiconj (fun d : Desk => d.editor.nextId) Desk.drawn NodeId.next :=
    nextId_drawn
  rw [← counts.iterate_right, ← copies_left env ({ id, name }, {})]
  unfold duplicateWorkflow
  rw [left_workflow_bind]
  refine Steady.left_bind (fun acc => (steady_check _).bind fun g => ?_) d
  cases d.workflow.simulateUntil with
  | none => exact rest _
  | some n => exact (steady_check _).bind fun m => (steady_check _).bind rest

/-! ## Mirrored workflows -/

theorem Copied.node_iff {acc : Workflow × Renaming} (copied : Copied nodes acc) {n : NodeId} :
    (∃ m, acc.2.node n = .ok m) ↔ n ∈ nodes.map (·.id) := by
  rw [← copied.keys, OrderedMap.mem_keys_iff]
  exact exists_congr fun m => Renaming.node_eq_ok

theorem Copied.output_iff {acc : Workflow × Renaming} (copied : Copied nodes acc) {o : String} :
    (∃ p, acc.2.output o = .ok p) ↔ o = "" ∨ ∃ node ∈ nodes, node.hasOutput o = true := by
  constructor
  · rintro ⟨p, known⟩
    rcases Renaming.output_eq_ok.1 known with ⟨default, _⟩ | ⟨_, held⟩
    · exact Or.inl default
    · exact Or.inr (copied.exposed held).2
  · rintro (rfl | ⟨node, mem, out⟩)
    · exact ⟨"", rfl⟩
    · exact ⟨o, copied.outputs mem out⟩

variable (alike : Alike env env' d d') (h : d.Mirrors σ d') (filed : d.workflow.Filed)
  (filed' : d'.workflow.Filed)
  (values : d'.workflow.nodes.values = d.workflow.nodes.values.map (Node.relabel σ))

include alike h filed filed' values in
/-- A workflow that can be copied has a mirror image that can be. -/
theorem duplicateWorkflow_mirrors (run : duplicateWorkflow env id name d = .ok w e) :
    ∃ w' e', duplicateWorkflow env' id name d' = .ok w' e' := by
  obtain ⟨acc, d₁, g, mark, copies, renamed, marked, rfl, free, rfl⟩ := duplicateWorkflow_eq_ok.1 run
  have each : ∀ node ∈ d'.workflow.nodes.values, Copyable env'.registry node := by
    rw [values, alike.registry]
    exact List.forall_mem_map.2 ((copies_ok_iff d _).1 ⟨acc, d₁, copies⟩)
  obtain ⟨acc', d₁', copies'⟩ := (copies_ok_iff d' ({ id, name }, {})).2 each
  have copied := copied_values filed.keyed copies
  have copied' := copied_values filed'.keyed copies'
  have nodes : ∀ n m, acc.2.node n = .ok m → ∃ m', acc'.2.node (σ n) = .ok m' := by
    intro n m known
    obtain ⟨node, mem, rfl⟩ := List.mem_map.1 (copied.node_iff.1 ⟨m, known⟩)
    rw [copied'.node_iff, values, List.map_map]
    exact List.mem_map.2 ⟨node, mem, rfl⟩
  have outputs : ∀ o p, acc.2.output o = .ok p → ∃ p', acc'.2.output o = .ok p' := by
    intro o p known
    refine copied'.output_iff.2 ((copied.output_iff.1 ⟨p, known⟩).imp_right ?_)
    rintro ⟨node, mem, out⟩
    exact ⟨node.relabel σ, by rw [values]; exact List.mem_map_of_mem mem, out⟩
  obtain ⟨g', renamed'⟩ := Graph.exists_rename_image nodes outputs σ.injective renamed
  rw [← h.workflow.graph] at renamed'
  have marked' : ∃ mark', MarkerCopied d'.workflow acc' mark' := by
    unfold MarkerCopied at marked ⊢
    rw [h.workflow.marker]
    cases marker : d.workflow.simulateUntil with
    | none => exact ⟨_, rfl⟩
    | some n =>
      rw [marker] at marked
      obtain ⟨m, name, _, _⟩ := marked
      obtain ⟨m', name'⟩ := nodes n m name
      exact ⟨some m', m', name', (copied'.images m').2 ⟨σ n, Renaming.node_eq_ok.1 name'⟩, rfl⟩
  obtain ⟨mark', marked'⟩ := marked'
  have store := ((copies_draw _ _).ok copies).drew.store
  have store' := ((copies_draw _ _).ok copies').drew.store
  refine ⟨_, _, duplicateWorkflow_eq_ok.2 ⟨acc', d₁', g', mark', copies', renamed', marked', rfl, ?_,
    rfl⟩⟩
  rw [store', alike.save, ← store]
  exact free

include alike h filed filed' values in
variable (id name) in
/-- A workflow is copied if its mirror image is. -/
theorem duplicateWorkflow_outcome :
    ((duplicateWorkflow env' id name).outcome d').isSome =
      ((duplicateWorkflow env id name).outcome d).isSome := by
  have back : d.workflow.nodes.values = d'.workflow.nodes.values.map (Node.relabel σ.symm) := by
    rw [values, List.map_map]
    refine ((List.map_congr_left fun node _ => ?_).trans (List.map_id _)).symm
    simp [Node.relabel]
  have alike' : Alike env' env d' d := ⟨alike.registry.symm, alike.branch.symm, alike.save.symm⟩
  rw [Bool.eq_iff_iff]
  unfold Edit.outcome
  constructor
  · intro made
    cases run : duplicateWorkflow env' id name d' with
    | error f e => simp [run] at made
    | ok w e =>
      obtain ⟨w', e', run'⟩ := duplicateWorkflow_mirrors alike' h.symm filed' filed back run
      simp [run']
  · intro made
    cases run : duplicateWorkflow env id name d with
    | error f e => simp [run] at made
    | ok w e =>
      obtain ⟨w', e', run'⟩ := duplicateWorkflow_mirrors alike h filed filed' values run
      simp [run']

end Edit

end Autoflow
