import Autoflow.Proofs.Editing.Outlets
import Autoflow.Proofs.Graph.Images
import Mathlib.Data.Fintype.Card

/-!
# Copies in order

Nodes are copied one after the other, each under the id that the counter draws next. So the place
of a node among those copied tells the id of its copy (`Edit.Numbered`). The counter comes round
after the last id of 64 bits, but a filed workflow has no more nodes than there are ids, so no two
of them get the same one.
-/

namespace Autoflow

namespace NodeId

variable {n : NodeId} {i j : Nat} {l : List NodeId}

theorem toNat_next (n : NodeId) : n.next.toNat = (n.toNat + 1) % UInt64.size :=
  UInt64.toNat_add n.val 1

theorem toNat_iterate_next (n : NodeId) (i : Nat) :
    (next^[i] n).toNat = (n.toNat + i) % UInt64.size := by
  induction i with
  | zero => exact (Nat.mod_eq_of_lt n.toNat_lt).symm
  | succ i ih => rw [Function.iterate_succ_apply', toNat_next, ih, Nat.mod_add_mod, Nat.add_assoc]

theorem iterate_next_mk (drawn i : Nat) :
    next^[i] ⟨1 + UInt64.ofNat drawn⟩ = ⟨1 + UInt64.ofNat (drawn + i)⟩ := by
  induction i with
  | zero => rfl
  | succ i ih => rw [Function.iterate_succ_apply', ih, next_mk, Nat.add_assoc]

/-- Ids that are drawn one after the other repeat only after all were drawn. -/
theorem iterate_next_inj (hi : i < UInt64.size) (hj : j < UInt64.size)
    (same : next^[i] n = next^[j] n) : i = j := by
  have equal : (n.toNat + i) % UInt64.size = (n.toNat + j) % UInt64.size := by
    rw [← toNat_iterate_next, ← toNat_iterate_next, same]
  unfold UInt64.size at hi hj equal
  omega

theorem length_le_of_nodup (distinct : l.Nodup) : l.length ≤ UInt64.size := by
  have inj : Function.Injective fun n : NodeId => (⟨n.toNat, n.toNat_lt⟩ : Fin UInt64.size) :=
    fun _ _ e => toNat_inj.1 (Fin.mk.inj e)
  have few := (distinct.map inj).length_le_card
  rwa [List.length_map, Fintype.card_fin] at few

end NodeId

theorem Workflow.Keyed.length_values_le {w : Workflow} (keyed : w.Keyed) :
    w.nodes.values.length ≤ UInt64.size := by
  rw [← List.length_map]
  exact NodeId.length_le_of_nodup keyed.nodup_values

/-! ## The copy of a node -/

namespace Node

variable {registry : Registry} {node copy : Node} {id : NodeId} {w : WorkflowId}

/-- The copy of a node under another id, in another workflow, if its type is known and builds a
service from its configuration again. -/
def copied (registry : Registry) (node : Node) (id : NodeId) (w : WorkflowId) : Option Node := do
  let type ← registry.get? node.typeName
  match type.build node.service.config with
  | .ok service => some { id, workflow := w, typeName := type.name, label := node.label, service }
  | .error _ => none

theorem copied_eq_some : node.copied registry id w = some copy ↔ ∃ type service,
    registry.get? node.typeName = some type ∧ type.build node.service.config = .ok service ∧
    { id, workflow := w, typeName := type.name, label := node.label, service } = copy := by
  simp only [copied, Option.bind_eq_bind, Option.bind_eq_some_iff, exists_and_left]
  refine exists_congr fun type => and_congr_right fun _ => ?_
  cases type.build node.service.config <;> simp

/-- A node of the same type as another one, with a service built from its configuration. -/
def CopyOf (registry : Registry) (copy node : Node) : Prop :=
  ∃ type, registry.get? node.typeName = some type ∧ copy.typeName = type.name ∧
    type.build node.service.config = .ok copy.service

theorem copyOf_of_copied (h : node.copied registry id w = some copy) :
    copy.CopyOf registry node := by
  obtain ⟨type, service, ht, build, rfl⟩ := copied_eq_some.1 h
  exact ⟨type, ht, rfl, build⟩

/-- A node under another id, in another workflow. -/
def twin (node : Node) (id : NodeId) (w : WorkflowId) : Node :=
  { node with id, workflow := w }

/-- The copy of a node that was built differs from it in its id and its workflow. -/
theorem Built.copied (named : registry.Named) (scripts : registry.Scripts)
    (built : node.Built registry) (id : NodeId) (w : WorkflowId) :
    node.copied registry id w = some (node.twin id w) := by
  obtain ⟨type, ht, again⟩ := built.rebuilds scripts
  refine copied_eq_some.2 ⟨type, _, ht, again, ?_⟩
  rw [twin, named _ _ ht]

end Node

/-! ## Copies of several nodes -/

namespace Edit

open Desk

variable {env : Setup} {d d' : Desk} {acc acc' : Workflow × Renaming} {node : Node}
  {nodes done : List Node} {registry : Registry} {copyId : WorkflowId} {first : NodeId}

/-- Nodes were copied one after the other, each under the id that was drawn next. -/
structure Numbered (registry : Registry) (copyId : WorkflowId) (first : NodeId) (done : List Node)
    (acc : Workflow × Renaming) : Prop where
  workflow : acc.1.id = copyId
  names : ∀ k m, acc.2.nodes.get? k = some m ↔
    ∃ i node, done[i]? = some node ∧ node.id = k ∧ NodeId.next^[i] first = m
  nodes : ∀ m copy, acc.1.nodes.get? m = some copy ↔ ∃ i node, done[i]? = some node ∧
    NodeId.next^[i] first = m ∧ node.copied registry m copyId = some copy

theorem numbered_nil (registry : Registry) (copyId : WorkflowId) (first : NodeId) (name : String) :
    Numbered registry copyId first [] ({ id := copyId, name }, {}) where
  workflow := rfl
  names k m := ⟨fun h => (by cases h), fun ⟨_, _, h, _⟩ => by cases h⟩
  nodes m copy := ⟨fun h => (by cases h), fun ⟨_, _, h, _⟩ => by cases h⟩

/-- The items of a list with one more at its end. -/
theorem exists_snoc {P : Nat → Node → Prop} : (∃ i x, (done ++ [node])[i]? = some x ∧ P i x) ↔
    (∃ i x, done[i]? = some x ∧ P i x) ∨ P done.length node := by
  constructor
  · rintro ⟨i, x, held, p⟩
    by_cases lt : i < done.length
    · rw [List.getElem?_append_left lt] at held
      exact Or.inl ⟨i, x, held, p⟩
    · rw [List.getElem?_append_right (Nat.le_of_not_lt lt)] at held
      obtain ⟨last, same⟩ := List.getElem?_eq_some_iff.1 held
      rw [List.length_singleton] at last
      have end_of : i = done.length := by omega
      rw [List.getElem_singleton] at same
      exact Or.inr (end_of ▸ same ▸ p)
  · rintro (⟨i, x, held, p⟩ | p)
    · have lt : i < done.length := (List.getElem?_eq_some_iff.1 held).1
      exact ⟨i, x, (List.getElem?_append_left lt).trans held, p⟩
    · exact ⟨done.length, node, by simp, p⟩

/-- What copying one more node adds. -/
theorem copyNode_adds (h : copyNode env acc node d = .ok acc' d') : ∃ copy,
    node.copied env.registry d.editor.nextId acc.1.id = some copy ∧ copy.id = d.editor.nextId ∧
    acc'.1 = acc.1.addNode copy ∧ acc'.2.nodes = acc.2.nodes.insert node.id d.editor.nextId ∧
    d' = d.drawn := by
  obtain ⟨type, service, ht, build, rfl, rfl⟩ := copyNode_eq_ok.1 h
  exact ⟨_, Node.copied_eq_some.2 ⟨type, service, ht, build, rfl⟩, rfl, rfl, rfl, rfl⟩

theorem copyNode_numbered (numbered : Numbered env.registry copyId first done acc)
    (new : node.id ∉ done.map (·.id)) (room : done.length < UInt64.size)
    (next : d.editor.nextId = NodeId.next^[done.length] first)
    (h : copyNode env acc node d = .ok acc' d') :
    Numbered env.registry copyId first (done ++ [node]) acc' := by
  obtain ⟨fresh, made, id, workflow, names, _⟩ := copyNode_adds h
  rw [numbered.workflow] at made
  have live := Workflow.get?_addNode id acc.1
  rw [← workflow] at live
  refine ⟨?_, ?_, ?_⟩
  · rw [workflow]
    exact numbered.workflow
  · intro k m
    rw [names, OrderedMap.get?_insert, exists_snoc, ← numbered.names, ← next]
    by_cases same : node.id = k
    · have unnamed : acc.2.nodes.get? k ≠ some m := by
        intro known
        obtain ⟨i, x, held, rfl, _⟩ := (numbered.names k m).1 known
        exact new (same ▸ List.mem_map_of_mem (List.mem_of_getElem? held))
      simp [same, unnamed]
    · simp [same]
  · intro m copy
    rw [live, exists_snoc, ← numbered.nodes, ← next]
    by_cases same : d.editor.nextId = m
    · have undrawn : acc.1.nodes.get? m ≠ some copy := by
        intro known
        obtain ⟨i, x, held, drawn, _⟩ := (numbered.nodes m copy).1 known
        have lt : i < done.length := (List.getElem?_eq_some_iff.1 held).1
        have last := NodeId.iterate_next_inj (by omega) room ((drawn.trans same.symm).trans next)
        omega
      rw [same] at made
      simp [same, undrawn, made]
    · simp [same]

theorem foldlM_numbered (numbered : Numbered env.registry copyId first done acc)
    (distinct : ((done ++ nodes).map (·.id)).Nodup)
    (next : d.editor.nextId = NodeId.next^[done.length] first)
    (h : nodes.foldlM (copyNode env) acc d = .ok acc' d') :
    Numbered env.registry copyId first (done ++ nodes) acc' ∧ d' = drawn^[nodes.length] d := by
  induction nodes generalizing done acc d with
  | nil =>
    obtain ⟨rfl, rfl⟩ := pure_eq_ok.1 h
    rw [List.append_nil]
    exact ⟨numbered, rfl⟩
  | cons node nodes ih =>
    rw [List.foldlM_cons] at h
    obtain ⟨acc₁, d₁, one, rest⟩ := bind_eq_ok.1 h
    have new : node.id ∉ done.map (·.id) := by
      rw [List.map_append, List.map_cons] at distinct
      exact fun mem => (List.nodup_append.1 distinct).2.2 _ mem _ List.mem_cons_self rfl
    have room : done.length < UInt64.size := by
      have few := NodeId.length_le_of_nodup distinct
      simp only [List.length_map, List.length_append, List.length_cons] at few
      omega
    obtain ⟨_, _, _, _, _, rfl⟩ := copyNode_adds one
    have next₁ : d.drawn.editor.nextId = NodeId.next^[(done ++ [node]).length] first := by
      rw [nextId_drawn, next, List.length_append, List.length_singleton,
        Function.iterate_succ_apply']
    rw [List.append_cons] at distinct ⊢
    exact ih (copyNode_numbered numbered new room next one) distinct next₁ rest

/-- All nodes of a workflow were copied, each under an id of its own. -/
theorem numbered_values {name : String} (keyed : d.workflow.Keyed)
    (h : d.workflow.nodes.values.foldlM (copyNode env) ({ id := copyId, name }, {}) d =
      .ok acc d') :
    Numbered env.registry copyId d.editor.nextId d.workflow.nodes.values acc ∧
      d' = drawn^[d.workflow.nodes.values.length] d :=
  foldlM_numbered (numbered_nil env.registry copyId d.editor.nextId name) keyed.nodup_values rfl h

/-- If different nodes have different copies, the graph of the copies is the image under one
permutation of the ids. -/
theorem image_of_copied (copied : Copied done acc)
    (distinct : ∀ {k k' m}, acc.2.nodes.get? k = some m → acc.2.nodes.get? k' = some m → k = k')
    {g g' : Graph} (renamed : g.rename acc.2 = .ok g') : ∃ σ : Equiv.Perm NodeId,
      (∀ k m, acc.2.node k = .ok m → m = σ k) ∧ g' = g.image σ id := by
  obtain ⟨σ, names⟩ := Renaming.exists_perm fun k k' m hk hk' =>
    distinct (Renaming.node_eq_ok.1 hk) (Renaming.node_eq_ok.1 hk')
  refine ⟨σ, names, Graph.eq_image_of_rename names (fun o o' output => ?_) renamed⟩
  rcases Renaming.output_eq_ok.1 output with ⟨rfl, rfl⟩ | ⟨_, held⟩
  · rfl
  · exact (copied.exposed held).1

namespace Numbered

variable (numbered : Numbered registry copyId first done acc) (few : done.length ≤ UInt64.size)

include few in
/-- A node of the list is the only one whose copy got its id. -/
theorem alone {i j : Nat} {x y : Node} (hx : done[i]? = some x) (hy : done[j]? = some y)
    (same : NodeId.next^[i] first = NodeId.next^[j] first) : x = y := by
  have lt : i < done.length := (List.getElem?_eq_some_iff.1 hx).1
  have lt' : j < done.length := (List.getElem?_eq_some_iff.1 hy).1
  have equal := NodeId.iterate_next_inj (Nat.lt_of_lt_of_le lt few) (Nat.lt_of_lt_of_le lt' few) same
  rw [equal, hy] at hx
  exact (Option.some.inj hx).symm

include numbered few in
/-- Different nodes have different copies. -/
theorem distinct {k k' m : NodeId} (hk : acc.2.nodes.get? k = some m)
    (hk' : acc.2.nodes.get? k' = some m) : k = k' := by
  obtain ⟨i, node, held, rfl, drawn⟩ := (numbered.names k m).1 hk
  obtain ⟨j, node', held', rfl, drawn'⟩ := (numbered.names k' m).1 hk'
  rw [alone few held held' (drawn.trans drawn'.symm)]

include numbered few in
/-- The copy of a node stands under the id that was drawn for it. -/
theorem exists_copy (copied : Copied done acc) {i : Nat} (held : done[i]? = some node) :
    ∃ copy, acc.1.nodes.get? (NodeId.next^[i] first) = some copy ∧
      node.copied registry (NodeId.next^[i] first) copyId = some copy := by
  have named : acc.2.nodes.get? node.id = some (NodeId.next^[i] first) :=
    (numbered.names _ _).2 ⟨i, node, held, rfl, rfl⟩
  obtain ⟨copy, live⟩ := NodeMap.mem_ids_iff.1 ((copied.images _).2 ⟨node.id, named⟩)
  obtain ⟨j, node', held', drawn, made⟩ := (numbered.nodes _ copy).1 live
  obtain rfl := alone few held held' drawn.symm
  exact ⟨copy, live, made⟩

include numbered few in
/-- What a node was copied to is its copy. -/
theorem copy (copied : Copied done acc) {k m : NodeId} (hk : acc.2.nodes.get? k = some m) :
    ∃ node ∈ done, node.id = k ∧ ∃ copy, acc.1.nodes.get? m = some copy ∧
      node.copied registry m copyId = some copy := by
  obtain ⟨i, node, held, id, rfl⟩ := (numbered.names k m).1 hk
  exact ⟨node, List.mem_of_getElem? held, id, numbered.exists_copy few copied held⟩

end Numbered

end Edit

end Autoflow
