import Autoflow.Proofs.Editing.Custody
import Autoflow.Proofs.Editing.Reserves
import Autoflow.Proofs.Graph.Images

/-!
# Copies have new ids

The copies of the nodes of a workflow get ids that were drawn one after the other, so each is new
and differs from the others (`replicas_values`). The graph of the copy is an image of the graph
then, and what holds of the workflow holds of its copy (`duplicateWorkflow_regular`). In a session
in which workflows are copied as well each node stays in one place (`Session.Settled.after`).
-/

namespace Autoflow

namespace NodeId

theorem toNat_mk {drawn : Nat} (room : drawn + 1 < UInt64.size) :
    (NodeId.mk (1 + UInt64.ofNat drawn)).toNat = drawn + 1 := by
  have val : (1 : UInt64) + UInt64.ofNat drawn = UInt64.ofNat (drawn + 1) := by
    rw [UInt64.ofNat_add, UInt64.add_comm]
    rfl
  rw [toNat, val]
  exact UInt64.toNat_ofNat_of_lt room

theorem toNat_le_ordinal (n : NodeId) : n.toNat ≤ n.ordinal + 1 := by
  have val : n.val = n.val - 1 + 1 := (UInt64.sub_add_cancel n.val 1).symm
  rw [toNat, val, UInt64.toNat_add]
  exact Nat.mod_le _ _

end NodeId

namespace Desk

variable {d d' : Desk} {drawn limit : Nat}

theorem nextId_iterate_drawn (next : d.editor.nextId = ⟨1 + UInt64.ofNat drawn⟩) (k : Nat) :
    (Desk.drawn^[k] d).editor.nextId = ⟨1 + UInt64.ofNat (drawn + k)⟩ := by
  have counts : Function.Semiconj (fun d : Desk => d.editor.nextId) Desk.drawn NodeId.next :=
    nextId_drawn
  refine (counts.iterate_right k d).trans ?_
  rw [next, NodeId.iterate_next_mk]

theorem DrewAtMost.nextId (h : d.DrewAtMost limit d')
    (next : d.editor.nextId = ⟨1 + UInt64.ofNat drawn⟩) : ∃ drawn', drawn ≤ drawn' ∧
      drawn' ≤ drawn + limit ∧ d'.editor.nextId = ⟨1 + UInt64.ofNat drawn'⟩ := by
  obtain ⟨k, le, rfl⟩ := h
  exact ⟨drawn + k, Nat.le_add_right _ _, Nat.add_le_add_left le _, nextId_iterate_drawn next k⟩

/-- The nodes of a desk are filed, and all ids were drawn from the counter. -/
structure Counted (drawn : Nat) (d : Desk) : Prop where
  filed : d.Filed
  next : d.editor.nextId = ⟨1 + UInt64.ofNat drawn⟩
  live : ∀ {k}, k ∈ d.workflow.nodes.ids → k.ordinal < drawn
  trashed : ∀ {k node}, d.editor.trash.node? k = some node → k.ordinal < drawn

/-- A desk whose nodes were all given ids below the next one needs no reserve. -/
theorem Counted.reserveIds_run (counted : d.Counted drawn) (room : drawn + 1 < UInt64.size) :
    Edit.reserveIds d = .ok () d := by
  have below : ∀ n ∈ d.workflow.nodes.ids, n < d.editor.nextId := by
    intro n live
    have low := counted.live live
    have high := n.toNat_le_ordinal
    rw [counted.next, NodeId.lt_def, NodeId.toNat_mk room]
    omega
  rw [Edit.reserveIds_run, reserved_eq counted.filed.workflow below]

end Desk

/-- The copy of a node that was built is built and has the same service. -/
theorem Node.CopyOf.built {env : Setup} (named : env.registry.Named)
    (scripts : env.registry.Scripts) {copy node : Node} (h : copy.CopyOf env.registry node)
    (built : node.Built env.registry) : copy.Built env.registry ∧ copy.service = node.service := by
  obtain ⟨type, ht, same, build⟩ := h
  refine ⟨Node.built_of_build named scripts ht same build, ?_⟩
  obtain ⟨type', ht', again⟩ := built.rebuilds scripts
  obtain rfl := Option.some.inj (ht.symm.trans ht')
  exact Except.ok.inj (build.symm.trans again)

namespace Edit

open Desk

variable {env : Setup} {d d' : Desk} {acc acc' : Workflow × Renaming} {node : Node}
  {nodes done : List Node} {first drawn : Nat}

/-- Nodes were copied under ids that were drawn from the first one on, no two under the same. -/
structure Replicas (registry : Registry) (first drawn : Nat) (done : List Node)
    (acc : Workflow × Renaming) : Prop where
  new : ∀ {m}, m ∈ acc.1.nodes.ids → first ≤ m.ordinal ∧ m.ordinal < drawn
  distinct : ∀ {k k' m}, acc.2.nodes.get? k = some m → acc.2.nodes.get? k' = some m → k = k'
  source : ∀ {k m}, acc.2.nodes.get? k = some m → ∃ node ∈ done, node.id = k ∧
    ∃ copy, acc.1.nodes.get? m = some copy ∧ copy.CopyOf registry node

/-! ## Copies of a workflow -/

variable {copyId : WorkflowId} {name : String} {w : Workflow}
  (filed : d.workflow.Filed) (room : drawn + d.workflow.nodes.values.length ≤ UInt64.size)
  (next : d.editor.nextId = ⟨1 + UInt64.ofNat drawn⟩)

include filed room next in
/-- The nodes of a filed workflow are copied under ids that count on from the first one. -/
theorem replicas_values {d₁ : Desk}
    (h : d.workflow.nodes.values.foldlM (copyNode env) ({ id := copyId, name }, {}) d =
      .ok acc d₁) :
    Replicas env.registry drawn (drawn + d.workflow.nodes.values.length) d.workflow.nodes.values
        acc ∧ d₁.editor.nextId = ⟨1 + UInt64.ofNat (drawn + d.workflow.nodes.values.length)⟩ := by
  obtain ⟨numbered, rfl⟩ := numbered_values filed.keyed h
  have few := filed.keyed.length_values_le
  refine ⟨⟨fun {m} mem => ?_, numbered.distinct few, fun {k m} hk => ?_⟩,
    nextId_iterate_drawn next _⟩
  · obtain ⟨copy, hm⟩ := NodeMap.mem_ids_iff.1 mem
    obtain ⟨i, node, held, rfl, _⟩ := (numbered.nodes m copy).1 hm
    have lt : i < d.workflow.nodes.values.length := (List.getElem?_eq_some_iff.1 held).1
    rw [next, NodeId.iterate_next_mk, NodeId.ordinal_mk (by omega)]
    exact ⟨Nat.le_add_right _ _, Nat.add_lt_add_left lt _⟩
  · obtain ⟨node, mem, id, copy, hm, made⟩ := numbered.copy few (copied_values filed.keyed h) hk
    exact ⟨node, mem, id, copy, hm, Node.copyOf_of_copied made⟩

include filed room next in
/-- The nodes of a copy are new. -/
theorem duplicateWorkflow_new
    (h : duplicateWorkflow env copyId name d = .ok w d') :
    (∀ m ∈ w.nodes.ids, drawn ≤ m.ordinal ∧ m.ordinal < drawn + d.workflow.nodes.values.length) ∧
      d'.editor.nextId = ⟨1 + UInt64.ofNat (drawn + d.workflow.nodes.values.length)⟩ := by
  obtain ⟨acc, d₁, g, mark, copies, _, _, rfl, _, rfl⟩ := duplicateWorkflow_eq_ok.1 h
  obtain ⟨replicas, next'⟩ := replicas_values filed room next copies
  rw [nextId_stored]
  exact ⟨fun m => replicas.new, next'⟩

include filed room next in
/-- The copy of a regular workflow is regular, and all outputs in use are exposed in the copy if they
are in the workflow. -/
theorem duplicateWorkflow_regular (named : env.registry.Named)
    (scripts : env.registry.Scripts) (regular : d.workflow.Regular env.registry)
    (h : duplicateWorkflow env copyId name d = .ok w d') :
    w.Regular env.registry ∧ (d.workflow.AllExposed → w.AllExposed) := by
  obtain ⟨acc, d₁, g, mark, copies, renamed, marked, rfl, _⟩ := duplicateWorkflow_eq_ok.1 h
  have copied := copied_values filed.keyed copies
  obtain ⟨replicas, _⟩ := replicas_values filed room next copies
  -- What a node is copied to is a node with the same service.
  have copy_of : ∀ {k m}, acc.2.nodes.get? k = some m → ∃ node copy,
      d.workflow.nodes.get? k = some node ∧ acc.1.nodes.get? m = some copy ∧
      copy.Built env.registry ∧ copy.service = node.service := by
    intro k m hk
    obtain ⟨node, mem, rfl, copy, hm, copy_of⟩ := replicas.source hk
    obtain ⟨n, hn⟩ := NodeMap.mem_values_iff.1 mem
    exact ⟨node, copy, filed.id hn ▸ hn, hm, copy_of.built named scripts (regular.built hn)⟩
  obtain ⟨σ, names, rfl⟩ := image_of_copied copied replicas.distinct renamed
  have pruned := regular.pruned.image σ
  refine ⟨⟨regular.orderly.image σ, pruned, fun {m copy} hm => ?_, fun m => marked.live copied⟩,
    fun exposed => ?_⟩
  · obtain ⟨k, hk⟩ := (copied.images m).1 (NodeMap.mem_ids_of_get? hm)
    obtain ⟨_, _, _, hm', built, _⟩ := copy_of hk
    rw [hm] at hm'
    cases hm'
    exact built
  · refine (Workflow.allExposed_iff pruned).2 fun m o used => ?_
    replace used : d.workflow.graph.occupants (.south (σ.symm m) o) ≠ [] := by
      rw [Graph.occupants_image] at used
      exact fun none => used (by simp [Layout.relabel, Slot.rename, none])
    obtain ⟨node, hn, out⟩ := (Workflow.allExposed_iff regular.pruned).1 exposed _ o used
    obtain ⟨m', name', _⟩ := copied.knows filed (NodeMap.mem_ids_of_get? hn)
    have same : m' = m := by rw [names _ _ name', Equiv.apply_symm_apply]
    subst same
    obtain ⟨node', copy, hn', hm, _, service⟩ := copy_of (Renaming.node_eq_ok.1 name')
    rw [hn] at hn'
    cases hn'
    exact ⟨copy, hm, by rw [Node.hasOutput, service]; exact out⟩

end Edit

/-! ## Sessions with copies -/

/-- The workflow, the trash and the next id stay as they are. -/
structure Desk.Still (d d' : Desk) : Prop where
  workflow : d'.workflow = d.workflow
  trash : d'.editor.trash = d.editor.trash
  next : d'.editor.nextId = d.editor.nextId

namespace Session

/-- The number of ids that a step draws at most. -/
def draws (s : Session) : Step → Nat
  | .operate _ _ => 1
  | .copy name _ _ _ => (s.workflows.get? name).elim 0 fun w => w.nodes.values.length
  | .list _ | .reserve _ => 1

/-- The number of ids that several steps draw at most. -/
def demand (s : Session) : List Step → Nat
  | [] => 0
  | step :: steps => s.draws step + (s.after step).demand steps

variable {s s' : Session} {drawn drawn' : Nat} {name : String} {d d' : Desk}

/-- A session stays settled as long as nodes stay where they are and the counter does not fall. -/
theorem Settled.still (settled : s.Settled drawn) (filed : s'.Filed)
    (same : ∀ p k, s'.node? p k = s.node? p k) (le : drawn ≤ drawn')
    (next : s'.editor.nextId = ⟨1 + UInt64.ofNat drawn'⟩) : s'.Settled drawn' where
  filed := filed
  alone hp hq := settled.alone (same _ _ ▸ hp) (same _ _ ▸ hq)
  next := next
  numbered hp := Nat.lt_of_lt_of_le (settled.numbered (same _ _ ▸ hp)) le

theorem node?_put_live (s : Session) (name other : String) (w : Workflow) (k : NodeId) :
    (s.put name w).node? (.live other) k =
      if name = other then w.nodes.get? k else s.node? (.live other) k := by
  rw [node?_live, node?_live, get?_put]
  split <;> rfl

/-- A session stays settled when a workflow whose nodes are new is put under a name. -/
theorem Settled.put (settled : s.Settled drawn) (filed : s'.Filed) {w : Workflow}
    (live : ∀ other k, s'.node? (.live other) k =
      if name = other then w.nodes.get? k else s.node? (.live other) k)
    (trash : ∀ k, s'.node? .trash k = s.node? .trash k)
    (new : ∀ m ∈ w.nodes.ids, drawn ≤ m.ordinal ∧ m.ordinal < drawn') (le : drawn ≤ drawn')
    (next : s'.editor.nextId = ⟨1 + UInt64.ofNat drawn'⟩) : s'.Settled drawn' := by
  -- A node is in the new workflow and its id is new, or it was there before.
  have origin : ∀ {p k node}, s'.node? p k = some node →
      (p = .live name ∧ drawn ≤ k.ordinal ∧ k.ordinal < drawn') ∨ s.node? p k = some node := by
    intro p k node hp
    cases p with
    | trash => exact Or.inr (trash k ▸ hp)
    | live other =>
      rw [live] at hp
      split at hp
      · next same => exact Or.inl ⟨same ▸ rfl, new k (NodeMap.mem_ids_of_get? hp)⟩
      · exact Or.inr hp
  refine ⟨filed, fun {k p q node node'} hp hq => ?_, next, fun {k p node} hp => ?_⟩
  · rcases origin hp with ⟨at_p, low, _⟩ | before <;> rcases origin hq with ⟨at_q, low', _⟩ | before'
    · exact at_p.trans at_q.symm
    · exact absurd (settled.numbered before') (Nat.not_lt.2 low)
    · exact absurd (settled.numbered before) (Nat.not_lt.2 low')
    · exact settled.alone before before'
  · rcases origin hp with ⟨_, _, high⟩ | before
    · exact high
    · exact Nat.lt_of_lt_of_le (settled.numbered before) le

/-- The nodes of a session are filed, and their ids were drawn from the counter. -/
structure Counted (drawn : Nat) (s : Session) : Prop where
  filed : s.Filed
  next : s.editor.nextId = ⟨1 + UInt64.ofNat drawn⟩
  numbered : ∀ {p k node}, s.node? p k = some node → k.ordinal < drawn

theorem Settled.counted (settled : s.Settled drawn) : s.Counted drawn :=
  ⟨settled.filed, settled.next, settled.numbered⟩

theorem Counted.desk (counted : s.Counted drawn) (here : s.desk? name = some d) :
    d.Counted drawn where
  filed := counted.filed.desk here
  next := by
    rw [(desk?_eq_some.1 here).2]
    exact counted.next
  live mem := by
    obtain ⟨node, hn⟩ := NodeMap.mem_ids_iff.1 mem
    exact counted.numbered ((node?_of_desk here _).1.trans hn)
  trashed hn := counted.numbered ((node?_of_desk here _).2.trans hn)

theorem Settled.next_desk (settled : s.Settled drawn) (here : s.desk? name = some d) :
    d.editor.nextId = ⟨1 + UInt64.ofNat drawn⟩ := (settled.counted.desk here).next

theorem draws_copy (here : s.desk? name = some d) {copyName title : String} {id : WorkflowId} :
    s.draws (.copy name copyName id title) = d.workflow.nodes.values.length := by
  simp only [draws, (desk?_eq_some.1 here).1, Option.elim_some]

theorem Settled.copy (settled : s.Settled drawn) (accepting : s.setup.Accepting)
    (name copyName : String) (id : WorkflowId) (title : String)
    (room : drawn + s.draws (.copy name copyName id title) < UInt64.size) :
    ∃ drawn', drawn' ≤ drawn + s.draws (.copy name copyName id title) ∧
      (s.copy name copyName id title).Settled drawn' := by
  have filed := settled.filed.copy name copyName id title
  rcases copy_cases s name copyName id title with ⟨same, _⟩ | ⟨d, d', here, outcome⟩
  · exact ⟨drawn, Nat.le_add_right _ _, by rwa [same]⟩
  rw [draws_copy here] at room ⊢
  have next := settled.next_desk here
  rcases outcome with ⟨w, run, after⟩ | ⟨f, run, after⟩
  · rw [after] at filed ⊢
    have workflow := (settled.filed.desk here).workflow
    obtain ⟨_, same, trash⟩ := Edit.duplicateWorkflow_ok workflow run
    obtain ⟨new, next'⟩ := Edit.duplicateWorkflow_new workflow (Nat.le_of_lt room) next run
    have kept := fun p k => node?_keep_same here same trash p k
    have live : ∀ other k, ((s.keep name d').put copyName w).node? (.live other) k =
        if copyName = other then w.nodes.get? k else s.node? (.live other) k := fun other k => by
      rw [node?_put_live, kept]
    exact ⟨_, Nat.le_refl _, settled.put filed live (kept .trash) new (Nat.le_add_right _ _) next'⟩
  · rw [after] at filed ⊢
    have drew := Edit.duplicateWorkflow_error accepting run
    obtain ⟨drawn', le, le', next'⟩ := drew.nextId next
    exact ⟨drawn', le', settled.still filed
      (node?_keep_same here drew.drew.workflow drew.drew.trash) le next'⟩

/-- An edit that always succeeds and keeps a desk still leaves the session or such a desk. -/
theorem leave_still {α : Type} {e : Edit α}
    (still : ∀ d, s.desk? name = some d → ∃ a d', e d = .ok a d' ∧ d.Still d') :
    s.leave name e = s ∨
      ∃ d d', s.desk? name = some d ∧ d.Still d' ∧ s.leave name e = s.keep name d' := by
  unfold leave
  cases edited : s.edit name e with
  | none => exact Or.inl rfl
  | some result =>
    obtain ⟨r, s₁⟩ := result
    obtain ⟨d, d', here, rfl, outcome⟩ := edit_cases edited
    obtain ⟨a, d'', run, same⟩ := still d here
    rw [run] at outcome
    rcases outcome with ⟨_, run', _⟩ | ⟨_, run', _⟩
    · cases run'
      exact Or.inr ⟨d, d', here, same, rfl⟩
    · cases run'

/-- To list nodes or to keep fresh ids apart from them leaves all nodes and ids alone. -/
theorem Counted.idle (counted : s.Counted drawn) (room : drawn + 1 < UInt64.size) {step : Step}
    (idle : step = .list name ∨ step = .reserve name) : s.after step = s ∨
      ∃ d d', s.desk? name = some d ∧ d.Still d' ∧ s.after step = s.keep name d' := by
  rcases idle with rfl | rfl
  · exact leave_still fun d _ => ⟨_, _, rfl, rfl, rfl, rfl⟩
  · exact leave_still fun d here => ⟨(), d, (counted.desk here).reserveIds_run room, rfl, rfl, rfl⟩

/-- After any step each node is in one place. -/
theorem Settled.after (settled : s.Settled drawn) (accepting : s.setup.Accepting) (step : Step)
    (room : drawn + s.draws step < UInt64.size) :
    ∃ drawn', drawn' ≤ drawn + s.draws step ∧ (s.after step).Settled drawn' := by
  have filed := settled.filed.after step
  have still : ∀ name, step = .list name ∨ step = .reserve name → drawn + 1 < UInt64.size →
      (s.after step).Settled drawn := by
    intro name idle room
    rcases settled.counted.idle room idle with same | ⟨d, d', here, kept, same⟩
    · rwa [same]
    · rw [same] at filed ⊢
      exact settled.still filed (node?_keep_same here kept.workflow kept.trash) (Nat.le_refl _)
        (kept.next.trans (settled.next_desk here))
  cases step with
  | operate name o =>
    exact (settled.operate accepting (Nat.lt_of_succ_lt room) name o).1
  | copy name copyName id title => exact settled.copy accepting name copyName id title room
  | list name => exact ⟨drawn, Nat.le_add_right _ _, still name (Or.inl rfl) room⟩
  | reserve name => exact ⟨drawn, Nat.le_add_right _ _, still name (Or.inr rfl) room⟩

theorem setup_after (s : Session) (step : Step) : (s.after step).setup = s.setup := by
  cases step with
  | operate name o => exact setup_operate s name o
  | copy name copyName id title =>
    rcases copy_cases s name copyName id title with ⟨same, _⟩ | ⟨d, d', _, ⟨w, _, e⟩ | ⟨f, _, e⟩⟩
    · exact congrArg setup same
    · exact (congrArg setup e).trans rfl
    · exact (congrArg setup e).trans rfl
  | list name => exact setup_leave s name _
  | reserve name => exact setup_leave s name _

theorem setup_run (s : Session) (steps : List Step) : (s.run steps).setup = s.setup := by
  induction steps generalizing s with
  | nil => rfl
  | cons step steps ih => exact (ih _).trans (setup_after s step)

end Session

end Autoflow
