import Autoflow.Proofs.Editing.Exchanges
import Autoflow.Proofs.Editing.Refusals
import Autoflow.Proofs.Graph.Images
import Mathlib.Logic.Function.Iterate

/-!
# Copies of a workflow

The nodes of a workflow are copied one by one, each under a fresh id that the renaming keeps. So
the nodes of the copy are the images of those copied (`foldlM_copied`), as are the entries of the
renamed graph (`Graph.mem_ids_rename`), and the copy of a filed workflow is filed. The workflow
itself stays as it was, and a failure only leaves the ids drawn until then.
-/

namespace Autoflow

/-- Putting outputs in under their own names changes nothing for the others. -/
theorem Renaming.mem_of_foldl_insert {outputs : OrderedMap String String} {uids : List String}
    {o o' : String} (h : (uids.foldl (fun m uid => m.insert uid uid) outputs).get? o = some o') :
    o' = o ∧ o ∈ uids ∨ outputs.get? o = some o' := by
  induction uids generalizing outputs with
  | nil => exact Or.inr h
  | cons uid uids ih =>
    rcases ih h with ⟨same, later⟩ | now
    · exact Or.inl ⟨same, List.mem_cons_of_mem uid later⟩
    · rw [OrderedMap.get?_insert] at now
      split at now
      · next same =>
        cases now
        exact Or.inl ⟨same, same ▸ List.mem_cons_self⟩
      · exact Or.inr now

/-- Outputs that are put into a renaming keep their names. -/
theorem Renaming.output_foldl_insert (names : Renaming) (uids : List String) {o : String}
    (h : o ∈ uids ∨ names.output o = .ok o) :
    ({ names with outputs := uids.foldl (fun m uid => m.insert uid uid) names.outputs } :
      Renaming).output o = .ok o := by
  induction uids generalizing names with
  | nil => simpa using h
  | cons uid uids ih =>
    refine ih { names with outputs := names.outputs.insert uid uid } ?_
    simp only [output_eq_ok, OrderedMap.get?_insert] at h ⊢
    rcases h with mem | default | ⟨branch, known⟩
    · by_cases default : o = ""
      · exact Or.inr (Or.inl ⟨default, default.symm⟩)
      · rcases List.mem_cons.1 mem with rfl | later
        · exact Or.inr (Or.inr ⟨default, if_pos rfl⟩)
        · exact Or.inl later
    · exact Or.inr (Or.inl default)
    · exact Or.inr (Or.inr ⟨branch, by split <;> simp_all⟩)

/-- The nodes of a renamed graph are the new names of those of the graph. -/
theorem Graph.mem_ids_rename {g g' : Graph} {r : Renaming} (h : g.rename r = .ok g') (m : NodeId) :
    m ∈ g'.ids ↔ ∃ n ∈ g.ids, r.nodes.get? n = some m := by
  have keys : ∀ (l : List (NodeId × Entry)) {acc acc' : OrderedMap NodeId Entry},
      l.foldlM (fun acc p => do
        let e ← r.entry p.2
        return acc.insert (← r.node p.1) e) acc = .ok acc' →
      (m ∈ acc'.keys ↔ m ∈ acc.keys ∨ ∃ p ∈ l, r.nodes.get? p.1 = some m) := by
    intro l
    induction l with
    | nil =>
      intro acc acc' h
      cases h
      simp
    | cons p l ih =>
      intro acc acc' h
      rw [List.foldlM_cons] at h
      obtain ⟨next, first, rest⟩ := Except.bind_eq_ok.1 h
      obtain ⟨e, _, first⟩ := Except.bind_eq_ok.1 first
      obtain ⟨k, named, put⟩ := Except.bind_eq_ok.1 first
      cases put
      have image := Renaming.node_eq_ok.1 named
      rw [ih rest, OrderedMap.mem_keys_insert]
      simp only [List.mem_cons, exists_eq_or_imp, image, Option.some.injEq, eq_comm (a := k)]
      rw [or_comm (a := m = k), or_assoc]
  obtain ⟨root, _, h⟩ := Except.bind_eq_ok.1 h
  obtain ⟨entries, folded, done⟩ := Except.bind_eq_ok.1 h
  cases done
  rw [show Graph.ids { root, entries } = entries.keys from rfl, keys _ folded]
  simp [Graph.ids, OrderedMap.keys, Assoc.keys]

namespace Desk

/-- Nothing happened to a desk, but for ids that were drawn. -/
def Drew (d d' : Desk) : Prop := ∃ k, drawn^[k] d = d'

/-- Nothing happened to a desk, but for no more than a number of ids that were drawn. -/
def DrewAtMost (limit : Nat) (d d' : Desk) : Prop := ∃ k ≤ limit, drawn^[k] d = d'

variable {d d' d'' : Desk} {limit more : Nat}

theorem drew_refl (d : Desk) : d.Drew d := ⟨0, rfl⟩

/-- One id may be drawn. -/
theorem drew_drawn (d : Desk) : d.Drew d.drawn := ⟨1, rfl⟩

/-- A limit on the ids says more than that only ids were drawn. -/
theorem DrewAtMost.drew (h : d.DrewAtMost limit d') : d.Drew d' := by
  obtain ⟨k, _, e⟩ := h
  exact ⟨k, e⟩

theorem drewAtMost_refl (limit : Nat) (d : Desk) : d.DrewAtMost limit d := ⟨0, Nat.zero_le _, rfl⟩

/-- Two limits add up. -/
theorem DrewAtMost.trans (h : d.DrewAtMost limit d') (h' : d'.DrewAtMost more d'') :
    d.DrewAtMost (more + limit) d'' := by
  obtain ⟨k, le, rfl⟩ := h
  obtain ⟨l, le', rfl⟩ := h'
  exact ⟨l + k, Nat.add_le_add le' le, Function.iterate_add_apply drawn l k d⟩

theorem Idle.drew (h : Idle d d') : d.Drew d' := by
  rcases h with rfl | rfl
  · exact drew_refl _
  · exact drew_drawn d

/-- Drawing ids changes neither the workflow -/
theorem Drew.workflow (h : d.Drew d') : d'.workflow = d.workflow := by
  obtain ⟨k, rfl⟩ := h
  induction k with
  | zero => rfl
  | succ k ih =>
    rw [Function.iterate_succ_apply', workflow_drawn, ih]

/-- nor the trash -/
theorem Drew.trash (h : d.Drew d') : d'.editor.trash = d.editor.trash := by
  obtain ⟨k, rfl⟩ := h
  induction k with
  | zero => rfl
  | succ k ih =>
    rw [Function.iterate_succ_apply', trash_drawn, ih]

/-- nor the store. -/
theorem Drew.store (h : d.Drew d') : d'.editor.store = d.editor.store := by
  obtain ⟨k, rfl⟩ := h
  induction k with
  | zero => rfl
  | succ k ih =>
    rw [Function.iterate_succ_apply']
    exact ih

/-- The desk after a workflow was saved, be it another one than that at hand. -/
def stored (d : Desk) (w : Workflow) : Desk :=
  { d with
    editor := { d.editor with
      listings := d.editor.listings.invalidate (Editor.listingKey w.id)
      store := d.editor.store.save w.id w.graph.toBlob } }

variable (d) (w : Workflow)

@[simp] theorem workflow_stored : (d.stored w).workflow = d.workflow := rfl
@[simp] theorem trash_stored : (d.stored w).editor.trash = d.editor.trash := rfl
@[simp] theorem nextId_stored : (d.stored w).editor.nextId = d.editor.nextId := rfl

/-- What is loaded after a save is what was saved. -/
theorem load?_stored : (d.stored w).editor.store.load? w.id = some w.graph.toBlob := by
  rw [stored, Store.load?_save, if_pos rfl]

end Desk

namespace Edit

open Desk

variable {env : Setup} {d d' : Desk} {acc acc' : Workflow × Renaming} {node : Node}
  {nodes done : List Node} {f : Failure}

/-- Nodes were copied into a workflow, and the renaming knows the copies and keeps the outputs. -/
structure Copied (done : List Node) (acc : Workflow × Renaming) : Prop where
  id : ∀ {n node}, acc.1.nodes.get? n = some node → node.id = n
  keys : ∀ k, k ∈ acc.2.nodes.keys ↔ k ∈ done.map (·.id)
  images : ∀ m, m ∈ acc.1.nodes.ids ↔ ∃ k, acc.2.nodes.get? k = some m
  outputs : ∀ {node o}, node ∈ done → node.hasOutput o = true → acc.2.output o = .ok o
  exposed : ∀ {o o'}, acc.2.outputs.get? o = some o' →
    o' = o ∧ ∃ node ∈ done, node.hasOutput o = true
  marker : acc.1.simulateUntil = none

/-- Before the first node the copy is empty and every output keeps its name. -/
theorem copied_nil (id : WorkflowId) (name : String) : Copied [] ({ id, name }, {}) where
  id h := by cases h
  keys _ := Iff.rfl
  images _ := ⟨nofun, fun ⟨_, h⟩ => by cases h⟩
  outputs mem := by cases mem
  exposed h := by cases h
  marker := rfl

/-- A node of a known type is copied if its configuration builds a service again. -/
theorem copyNode_eq_ok : copyNode env acc node d = .ok acc' d' ↔
    ∃ type service, env.registry.get? node.typeName = some type ∧
      type.build node.service.config = .ok service ∧
      (acc.1.addNode (freshNode d type node.label acc.1.id service),
        ({ nodes := acc.2.nodes.insert node.id d.editor.nextId
           outputs := ((node.service.edges.map Edge.uid).filter fun uid => !uid.isEmpty).foldl
             (fun m uid => m.insert uid uid) acc.2.outputs } : Renaming)) = acc' ∧
      d.drawn = d' := by
  simp only [copyNode, check_bind_ok, newNode_bind_ok, pure_eq_ok, Workflow.require_eq_ok]
  exact ⟨fun ⟨type, ht, service, build, done⟩ => ⟨type, service, ht, build, done⟩,
    fun ⟨type, service, ht, build, done⟩ => ⟨type, ht, service, build, done⟩⟩

/-- One node more is copied: its copy is live, the renaming leads to it, and its outputs are
known. -/
theorem copyNode_copied (copied : Copied done acc) (new : node.id ∉ done.map (·.id))
    (h : copyNode env acc node d = .ok acc' d') : Copied (done ++ [node]) acc' := by
  obtain ⟨type, service, _, _, rfl, rfl⟩ := copyNode_eq_ok.1 h
  have nodes : ∀ m, (acc.1.addNode (freshNode d type node.label acc.1.id service)).nodes.get? m =
      if d.editor.nextId = m then some (freshNode d type node.label acc.1.id service)
      else acc.1.nodes.get? m := Workflow.get?_addNode rfl _
  have names : ∀ k, (acc.2.nodes.insert node.id d.editor.nextId).get? k =
      if node.id = k then some d.editor.nextId else acc.2.nodes.get? k :=
    fun k => OrderedMap.get?_insert acc.2.nodes node.id k d.editor.nextId
  refine ⟨fun {n copy} hn => ?_, fun k => ?_, fun m => ?_, fun {source o} mem out => ?_,
    fun {o o'} held => ?_, copied.marker⟩
  · rw [nodes n] at hn
    split at hn
    · next same =>
      cases hn
      exact same
    · exact copied.id hn
  · refine OrderedMap.mem_keys_insert.trans ?_
    rw [copied.keys k, List.map_append, List.mem_append, or_comm]
    simp
  · refine (NodeMap.mem_ids_of_insert nodes m).trans ?_
    rw [copied.images m]
    constructor
    · rintro (rfl | ⟨k, hk⟩)
      · exact ⟨node.id, (names _).trans (if_pos rfl)⟩
      · have ne : node.id ≠ k := by
          rintro rfl
          exact new ((copied.keys _).1 (OrderedMap.mem_keys_iff.2 ⟨m, hk⟩))
        exact ⟨k, (names k).trans ((if_neg ne).trans hk)⟩
    · rintro ⟨k, hk⟩
      replace hk := (names k).symm.trans hk
      split at hk
      · cases hk
        exact Or.inl rfl
      · exact Or.inr ⟨k, hk⟩
  · refine Renaming.output_foldl_insert { acc.2 with nodes := acc.2.nodes.insert node.id _ } _ ?_
    rcases List.mem_append.1 mem with before | now
    · exact Or.inr (copied.outputs before out)
    · rw [List.mem_singleton.1 now] at out
      by_cases default : o = ""
      · subst default
        exact Or.inr rfl
      · obtain ⟨e, edge, uid⟩ := List.any_eq_true.1 out
        refine Or.inl (List.mem_filter.2 ⟨List.mem_map.2 ⟨e, edge, beq_iff_eq.1 uid⟩, ?_⟩)
        simpa using default
  · rcases Renaming.mem_of_foldl_insert held with ⟨same, mem⟩ | before
    · obtain ⟨e, edge, uid⟩ := List.mem_map.1 (List.mem_filter.1 mem).1
      exact ⟨same, node, by simp, List.any_eq_true.2 ⟨e, edge, beq_iff_eq.2 uid⟩⟩
    · obtain ⟨same, source, mem, out⟩ := copied.exposed before
      exact ⟨same, source, List.mem_append_left _ mem, out⟩

/-- Each node takes one id at most, drawn for its copy. -/
theorem copyNode_draws (acc : Workflow × Renaming) (node : Node) :
    Within (DrewAtMost 1) (copyNode env acc node) where
  ok {d _ _} h := by
    obtain ⟨_, _, _, _, _, rfl⟩ := copyNode_eq_ok.1 h
    exact ⟨1, Nat.le_refl 1, rfl⟩
  error {d _ _} h := by
    unfold copyNode at h
    rcases check_bind_error h with rfl | ⟨type, _, h⟩
    · exact drewAtMost_refl 1 _
    rcases newNode_bind_error h with rfl | ⟨service, _, h⟩
    · exact ⟨1, Nat.le_refl 1, rfl⟩
    exact absurd h pure_ne_error

/-- The same for node after node, by induction on the nodes that are left. -/
theorem foldlM_copied (copied : Copied done acc) (distinct : ((done ++ nodes).map (·.id)).Nodup)
    (h : nodes.foldlM (copyNode env) acc d = .ok acc' d') : Copied (done ++ nodes) acc' := by
  induction nodes generalizing done acc d with
  | nil =>
    obtain ⟨rfl, _⟩ := pure_eq_ok.1 h
    rwa [List.append_nil]
  | cons node nodes ih =>
    rw [List.foldlM_cons] at h
    obtain ⟨next, d₁, first, rest⟩ := bind_eq_ok.1 h
    have new : node.id ∉ done.map (·.id) := by
      rw [List.map_append, List.map_cons] at distinct
      exact fun mem => (List.nodup_append.1 distinct).2.2 _ mem _ List.mem_cons_self rfl
    rw [List.append_cons] at distinct ⊢
    exact ih (copyNode_copied copied new first) distinct rest

/-! ## Copying a workflow -/

variable {id : WorkflowId} {name : String} {w : Workflow}

/-- All nodes of a workflow were copied. -/
theorem copied_values (keyed : w.Keyed)
    (h : w.nodes.values.foldlM (copyNode env) ({ id, name }, {}) d = .ok acc d') :
    Copied w.nodes.values acc :=
  foldlM_copied (copied_nil id name) keyed.nodup_values h

/-- The save of another workflow succeeds if it is not refused. -/
theorem commitOf_eq_ok : commitOf env w d = .ok () d' ↔
    env.saveFault (d.editor.store.attempts + 1) = none ∧ d.stored w = d' := by
  change save env w _ = .ok () d' ↔ _
  unfold save
  cases env.saveFault (d.editor.store.attempts + 1) with
  | some f => exact ⟨nofun, nofun⟩
  | none =>
    change EStateM.Result.ok () (d.stored w) = .ok () d' ↔ _
    rw [EStateM.Result.ok.injEq]
    simp

/-- Together with the renamed graph this makes a filed workflow: nodes of the graph are copies, and
copies have their own ids. -/
theorem Copied.filed {source : Workflow} {g : Graph} (filed : source.Filed)
    (copied : Copied source.nodes.values acc) (renamed : source.graph.rename acc.2 = .ok g) :
    ({ acc.1 with graph := g } : Workflow).Filed where
  id := copied.id
  ids m := by
    have known : ∀ k, k ∈ source.graph.ids ↔ k ∈ acc.2.nodes.keys := by
      intro k
      rw [filed.ids k, copied.keys k, NodeMap.mem_ids_iff, List.mem_map]
      constructor
      · rintro ⟨node, hk⟩
        exact ⟨node, NodeMap.mem_values_iff.2 ⟨k, hk⟩, filed.id hk⟩
      · rintro ⟨node, mem, rfl⟩
        obtain ⟨k, hk⟩ := NodeMap.mem_values_iff.1 mem
        exact ⟨node, filed.id hk ▸ hk⟩
    change m ∈ g.ids ↔ m ∈ acc.1.nodes.ids
    rw [Graph.mem_ids_rename renamed, copied.images m]
    constructor
    · rintro ⟨k, _, hk⟩
      exact ⟨k, hk⟩
    · rintro ⟨k, hk⟩
      exact ⟨k, (known k).2 (OrderedMap.mem_keys_iff.2 ⟨m, hk⟩), hk⟩

/-- Copying takes no more ids than there are nodes. -/
theorem copies_draw (acc : Workflow × Renaming) (nodes : List Node) :
    Within (DrewAtMost nodes.length) (nodes.foldlM (copyNode env) acc) := by
  induction nodes generalizing acc with
  | nil => exact within_pure (drewAtMost_refl 0) acc
  | cons node nodes ih =>
    have first : Within (DrewAtMost 1) (copyNode env acc node) := copyNode_draws acc node
    rw [List.foldlM_cons]
    refine ⟨fun h => ?_, fun h => ?_⟩
    · obtain ⟨next, d₁, one, rest⟩ := bind_eq_ok.1 h
      exact (first.ok one).trans ((ih next).ok rest)
    · rcases bind_eq_error.1 h with h | ⟨next, d₁, one, rest⟩
      · obtain ⟨k, le, e⟩ := first.error h
        exact ⟨k, Nat.le_trans le (Nat.le_add_left 1 _), e⟩
      · exact (first.ok one).trans ((ih next).error rest)

/-- What the marker of a workflow is in a copy: that of the nodes copied if nothing is marked, else
the copy of the node. -/
def MarkerCopied (source : Workflow) (acc : Workflow × Renaming) (mark : Option NodeId) : Prop :=
  match source.simulateUntil with
  | none => mark = acc.1.simulateUntil
  | some n => ∃ m, acc.2.node n = .ok m ∧ m ∈ acc.1.nodes.ids ∧ mark = some m

section Marker

variable {source : Workflow} {mark : Option NodeId} (copied : Copied done acc)
  (marked : MarkerCopied source acc mark)

include copied marked in
/-- The marker of a copy is on a node of the copy. -/
theorem MarkerCopied.live {m : NodeId} (h : mark = some m) : m ∈ acc.1.nodes.ids := by
  unfold MarkerCopied at marked
  split at marked
  · rw [marked, copied.marker] at h
    cases h
  · obtain ⟨_, _, live, rfl⟩ := marked
    cases h
    exact live

include copied marked in
/-- The marker of a copy is the marker under its new name. -/
theorem MarkerCopied.eq_map {f : NodeId → NodeId}
    (names : ∀ k m, acc.2.node k = .ok m → m = f k) : mark = source.simulateUntil.map f := by
  unfold MarkerCopied at marked
  split at marked
  · next none => rw [none, marked, copied.marker, Option.map_none]
  · next n marker =>
    obtain ⟨m, name, _, rfl⟩ := marked
    rw [marker, Option.map_some, names n m name]

end Marker

/-- What a copy consists of. It is made if the nodes, the graph and the marker can be copied, and the
save is not refused. -/
theorem duplicateWorkflow_eq_ok : duplicateWorkflow env id name d = .ok w d' ↔ ∃ acc d₁ g mark,
    d.workflow.nodes.values.foldlM (copyNode env) ({ id, name }, {}) d = .ok acc d₁ ∧
    d.workflow.graph.rename acc.2 = .ok g ∧ MarkerCopied d.workflow acc mark ∧
    w = { acc.1 with graph := g, simulateUntil := mark } ∧
    env.saveFault (d₁.editor.store.attempts + 1) = none ∧ d₁.stored w = d' := by
  have stored : ∀ (copy : Workflow) d₁, (commitOf env copy >>= fun _ => pure copy) d₁ = .ok w d' ↔
      w = copy ∧ env.saveFault (d₁.editor.store.attempts + 1) = none ∧ d₁.stored w = d' := by
    intro copy d₁
    rw [map_eq_ok]
    constructor
    · rintro ⟨_, run, rfl⟩
      exact ⟨rfl, commitOf_eq_ok.1 run⟩
    · rintro ⟨rfl, run⟩
      exact ⟨(), commitOf_eq_ok.2 run, rfl⟩
  unfold duplicateWorkflow MarkerCopied
  rw [workflow_bind, bind_eq_ok]
  refine exists_congr fun acc => exists_congr fun d₁ => ?_
  rw [check_bind_ok]
  cases d.workflow.simulateUntil with
  | none =>
    simp only [pure_bind, stored]
    constructor
    · rintro ⟨copies, g, renamed, made⟩
      exact ⟨g, _, copies, renamed, rfl, made⟩
    · rintro ⟨g, mark, copies, renamed, rfl, made⟩
      exact ⟨copies, g, renamed, made⟩
  | some n =>
    simp only [check_bind_ok, stored, setSimulateUntil_eq_ok]
    constructor
    · rintro ⟨copies, g, renamed, m, named, copy, ⟨live, rfl⟩, made⟩
      exact ⟨g, _, copies, renamed, ⟨m, named, live m rfl, rfl⟩, made⟩
    · rintro ⟨g, mark, copies, renamed, ⟨m, named, live, rfl⟩, made⟩
      refine ⟨copies, g, renamed, m, named, _, ⟨?_, rfl⟩, made⟩
      rintro k ⟨⟩
      exact live

/-- A copy that was made is filed, and the workflow and the trash are as they were. -/
theorem duplicateWorkflow_ok (filed : d.workflow.Filed)
    (h : duplicateWorkflow env id name d = .ok w d') :
    w.Filed ∧ d'.workflow = d.workflow ∧ d'.editor.trash = d.editor.trash := by
  obtain ⟨acc, d₁, g, mark, copies, renamed, _, rfl, _, rfl⟩ := duplicateWorkflow_eq_ok.1 h
  have drew := ((copies_draw _ _).ok copies).drew
  have filed := (copied_values filed.keyed copies).filed filed renamed
  rw [workflow_stored, trash_stored]
  exact ⟨⟨filed.id, filed.ids⟩, drew.workflow, drew.trash⟩

/-- A copy that fails leaves nothing but the ids drawn for it. -/
theorem duplicateWorkflow_error (accepting : env.Accepting)
    (h : duplicateWorkflow env id name d = .error f d') :
    d.DrewAtMost d.workflow.nodes.values.length d' := by
  unfold duplicateWorkflow at h
  rw [workflow_bind] at h
  rcases bind_eq_error.1 h with h | ⟨acc, d₁, copies, h⟩
  · exact (copies_draw _ _).error h
  have drew := (copies_draw _ _).ok copies
  have stored : ∀ copy : Workflow,
      ¬ (commitOf env copy >>= fun _ => pure copy) d₁ = .error f d' := by
    intro copy h
    have run : commitOf env copy d₁ = .ok () (d₁.stored copy) :=
      commitOf_eq_ok.2 ⟨accepting _, rfl⟩
    have refused := map_eq_error.1 h
    rw [run] at refused
    cases refused
  rcases check_bind_error h with e | ⟨g, _, h⟩
  · exact e ▸ drew
  cases marker : d.workflow.simulateUntil with
  | none =>
    simp only [marker, pure_bind] at h
    exact absurd h (stored _)
  | some n =>
    simp only [marker] at h
    rcases check_bind_error h with e | ⟨m, _, h⟩
    · exact e ▸ drew
    rcases check_bind_error h with e | ⟨copy, _, h⟩
    · exact e ▸ drew
    exact absurd h (stored _)

/-- The copy of a workflow is saved at the end, when nothing is left to fail. -/
theorem duplicateWorkflow_savesLast (env : Setup) (id : WorkflowId) (name : String) :
    SavesLast env none (duplicateWorkflow env.unfailing id name)
      (duplicateWorkflow env id name) := by
  unfold duplicateWorkflow
  refine .bind quiet_workflow fun w => .bind ((copies_draw _ _).mono fun h => h.drew.store) fun acc =>
    .bind (quiet_check _) fun graph => ?_
  cases w.simulateUntil with
  | none => exact .bind (quiet_pure _) fun copy => .map _ (.commitOf env copy)
  | some n =>
    exact .bind (quiet_check _) fun m => .bind (quiet_check _) fun copy =>
      .map _ (.commitOf env copy)

end Edit

end Autoflow
