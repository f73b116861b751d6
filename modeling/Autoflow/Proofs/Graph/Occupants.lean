import Autoflow.Graph.Edits
import Autoflow.Proofs.Graph.Layout
import Mathlib.Data.List.Nodup

/-!
# The layout of a graph

`Graph.occupants` reads a graph as a layout, which forgets the order of entries and outputs
and the difference between a missing list and an empty one. The lemmas below relate the
queries of a graph to its layout: successors, children and positions.
-/

namespace Autoflow

namespace Entry

/-- The successors on an output are what the slot holds, and none if the entry does not have it. -/
theorem nextOn_eq (e : Entry) (o : String) : e.nextOn o = (e.slot? .south o).getD [] := rfl

theorem childIds_eq (e : Entry) (o : String) : e.childIds = (e.slot? .child o).getD [] := rfl

/-- A successor of an entry stands on one of its outputs. -/
theorem mem_nextIds_iff {e : Entry} {x : NodeId} : x ∈ e.nextIds ↔ ∃ o, x ∈ e.nextOn o := by
  cases h : e.next with
  | none => simp [nextIds, nextOn, h]
  | some outputs =>
    simp only [nextIds, nextOn, h, Option.elim_some, Outputs.allIds, List.mem_flatMap,
      Option.bind_some]
    constructor
    · rintro ⟨⟨o, ids⟩, mem, hx⟩
      exact ⟨o, by rwa [OrderedMap.mem_toList_iff.1 mem]⟩
    · rintro ⟨o, hx⟩
      cases ho : outputs.get? o with
      | none => simp [ho] at hx
      | some ids => exact ⟨(o, ids), OrderedMap.mem_of_get? ho, by rwa [ho] at hx⟩

/-- What is below an entry stands on one of its outputs or inside it. -/
theorem mem_successors_iff {e : Entry} {x : NodeId} :
    x ∈ e.successors ↔ (∃ o, x ∈ e.nextOn o) ∨ x ∈ e.childIds := by
  rw [successors, List.mem_append, mem_nextIds_iff]

/-- The output that leads to a node has it among its nodes. -/
theorem mem_of_outputTo? {e : Entry} {n : NodeId} {o : String} (h : e.outputTo? n = some o) :
    n ∈ e.nextOn o := by
  obtain ⟨⟨o', ids⟩, found, rfl⟩ := Option.map_eq_some_iff.1 h
  obtain ⟨outputs, hn, found⟩ := Option.bind_eq_some_iff.1 found
  have slot : outputs.get? o' = some ids :=
    OrderedMap.mem_toList_iff.1 (List.mem_of_find?_eq_some found)
  have hit := List.find?_some found
  simpa [nextOn, hn, slot] using hit

/-- If no output leads to a node, it stands on none. -/
theorem not_mem_of_outputTo? {e : Entry} {n : NodeId} (h : e.outputTo? n = none) (o : String) :
    n ∉ e.nextOn o := by
  intro mem
  cases hn : e.next with
  | none => simp [nextOn, hn] at mem
  | some outputs =>
    cases ho : outputs.get? o with
    | none => simp [nextOn, hn, ho] at mem
    | some ids =>
      have miss : ∀ p ∈ outputs.toList, p.2.contains n = false := by
        simpa [outputTo?, hn] using h
      have held : n ∈ ids := by simpa [nextOn, hn, ho] using mem
      simpa [held] using miss (o, ids) (OrderedMap.mem_of_get? ho)

end Entry

namespace Graph

/-- The nodes in each slot of a graph. -/
def occupants (g : Graph) : Layout
  | .root => g.root.toList
  | .south n o => ((g.find? n).bind (·.slot? .south o)).getD []
  | .child n => ((g.find? n).bind (·.slot? .child "")).getD []

/-- Every node in a slot has an entry, and it stands in that slot only, once. -/
def Orderly (g : Graph) : Prop := g.occupants.Orderly {n | n ∈ g.ids}

/-- All nodes that have an entry hang in a single tree from the root. -/
def IsTree (g : Graph) : Prop := g.occupants.IsTree {n | n ∈ g.ids}

variable {g : Graph} {n x : NodeId} {e : Entry}

theorem mem_ids_iff : n ∈ g.ids ↔ ∃ e, g.find? n = some e := OrderedMap.mem_keys_iff

theorem contains_eq_false_iff : g.contains n = false ↔ n ∉ g.ids := by
  rw [← contains_iff, Bool.not_eq_true]

theorem find?_eq_none_iff : g.find? n = none ↔ n ∉ g.ids := OrderedMap.get?_eq_none_iff

@[simp] theorem mem_occupants_root : x ∈ g.occupants .root ↔ g.root = some x := by
  simp [occupants]

theorem occupants_root (root : g.root = some n) : g.occupants .root = [n] := by
  rw [occupants, root, Option.toList_some]

theorem occupants_root_eq_nil : g.occupants .root = [] ↔ g.root = none := by
  cases root : g.root <;> simp [occupants, root]

/-- A slot beside a node holds what the entry of the node says. Without an entry, without the output
or with an empty list it is empty, and the layout does not tell these apart. -/
theorem occupants_beside (g : Graph) (n : NodeId) (placement : Placement) (o : String) :
    g.occupants (.beside n placement o) = ((g.find? n).bind (·.slot? placement o)).getD [] := by
  cases placement <;> rfl

theorem occupants_south (h : g.find? n = some e) (o : String) :
    g.occupants (.south n o) = e.nextOn o := by
  simp only [occupants, h, Option.bind_some, Entry.nextOn_eq]

theorem occupants_child (h : g.find? n = some e) : g.occupants (.child n) = e.childIds := by
  simp only [occupants, h, Option.bind_some, Entry.childIds_eq e ""]

/-- What stands beside a node stands beside one that has an entry. -/
theorem owner_mem_ids {s : Slot} {a : NodeId} (h : x ∈ g.occupants s) (o : s.owner? = some a) :
    a ∈ g.ids := by
  refine mem_ids_iff.2 ?_
  cases s with
  | root => cases o
  | south m _ | child m =>
    cases o
    cases hf : g.find? a with
    | none => simp [occupants, hf] at h
    | some e => exact ⟨e, rfl⟩

theorem occupants_eq_nil {s : Slot} {a : NodeId} (h : a ∉ g.ids) (o : s.owner? = some a) :
    g.occupants s = [] :=
  List.eq_nil_iff_forall_not_mem.2 fun _ hx => h (owner_mem_ids hx o)

theorem mem_nextIds_iff (h : g.find? n = some e) :
    x ∈ e.nextIds ↔ ∃ o, x ∈ g.occupants (.south n o) := by
  simp only [Entry.mem_nextIds_iff, occupants_south h]

theorem mem_successors_iff (h : g.find? n = some e) :
    x ∈ e.successors ↔ g.occupants.Edge n x := by
  rw [Entry.mem_successors_iff]
  constructor
  · rintro (⟨o, hx⟩ | hx)
    · exact ⟨.south n o, rfl, by rwa [occupants_south h]⟩
    · exact ⟨.child n, rfl, by rwa [occupants_child h]⟩
  · rintro ⟨s, os, hx⟩
    cases s with
    | root => cases os
    | south m o =>
      cases os
      rw [occupants_south h] at hx
      exact Or.inl ⟨o, hx⟩
    | child m =>
      cases os
      rw [occupants_child h] at hx
      exact Or.inr hx

/-- An edge of the layout is a successor or a child in an entry of the graph. -/
theorem edge_iff : g.occupants.Edge n x ↔ ∃ e, g.find? n = some e ∧ x ∈ e.successors := by
  constructor
  · intro h
    obtain ⟨s, os, hx⟩ := h
    obtain ⟨e, he⟩ := mem_ids_iff.1 (owner_mem_ids hx os)
    exact ⟨e, he, (mem_successors_iff he).2 ⟨s, os, hx⟩⟩
  · rintro ⟨e, he, hx⟩
    exact (mem_successors_iff he).1 hx

/-- The children that a graph lists are those in the slot. If it has no entry for the node, it lists
none and fails. -/
theorem eq_occupants_of_children {l : List NodeId} (h : g.children n = .ok l) :
    l = g.occupants (.child n) := by
  unfold children require at h
  split at h
  · next e he =>
    cases h
    exact (occupants_child he).symm
  · cases h

/-- So are the successors on an output. -/
theorem eq_occupants_of_nextNodes {l : List NodeId} {o : String}
    (h : g.nextNodes n o = .ok l) : l = g.occupants (.south n o) := by
  unfold nextNodes require at h
  split at h
  · next e he =>
    cases h
    exact (occupants_south he o).symm
  · cases h

theorem children_of_mem_ids (h : n ∈ g.ids) : g.children n = .ok (g.occupants (.child n)) := by
  obtain ⟨e, he⟩ := mem_ids_iff.1 h
  simp [children, require, he, occupants_child he, Except.map]

theorem nextNodes_of_mem_ids (h : n ∈ g.ids) (o : String) :
    g.nextNodes n o = .ok (g.occupants (.south n o)) := by
  obtain ⟨e, he⟩ := mem_ids_iff.1 h
  simp [nextNodes, require, he, occupants_south he, bind, Except.bind, pure, Except.pure]

/-- The successors of a node are all different if every node stands in one slot, once. -/
theorem nodup_nextIds {D : Set NodeId} (tree : g.occupants.Orderly D) (h : g.find? n = some e) :
    e.nextIds.Nodup := by
  cases hn : e.next with
  | none => simp [Entry.nextIds, hn]
  | some outputs =>
    have slot : ∀ p ∈ outputs.toList, g.occupants (.south n p.1) = p.2 := fun p hp => by
      have : outputs.get? p.1 = some p.2 := OrderedMap.mem_toList_iff.1 hp
      simp [occupants_south h, Entry.nextOn, hn, this]
    have keys : outputs.toList.Pairwise fun p q => p.1 ≠ q.1 := List.pairwise_map.1 outputs.nodup
    simp only [Entry.nextIds, hn, Option.elim_some, Outputs.allIds]
    refine List.nodup_flatMap.2 ⟨fun p hp => slot p hp ▸ tree.nodup _, ?_⟩
    refine keys.imp_of_mem fun {p q} hp hq ne => ?_
    intro y hy hy'
    rw [← slot p hp] at hy
    rw [← slot q hq] at hy'
    have e := tree.slot_unique hy hy'
    injection e with _ eo
    exact ne eo

/-- In an orderly graph nothing is twice below an entry, be it as a successor or as a child. -/
theorem nodup_successors {D : Set NodeId} (tree : g.occupants.Orderly D)
    (h : g.find? n = some e) : e.successors.Nodup := by
  refine List.nodup_append.2 ⟨nodup_nextIds tree h, ?_, ?_⟩
  · exact occupants_child h ▸ tree.nodup _
  · rintro y hy _ hy' rfl
    obtain ⟨o, hy⟩ := (mem_nextIds_iff h).1 hy
    rw [← occupants_child h] at hy'
    cases tree.slot_unique hy hy'

/-! ## The slot of a node -/

/-- The position that an entry gives for a node names one of its slots, and the node stands
there. -/
theorem positionOf?_eq_some {p : Position} {owner : NodeId} (h : e.positionOf? owner n = some p)
    (he : g.find? owner = some e) :
    ∃ s : Slot, p = s.position ∧ n ∈ g.occupants s ∧ s.owner? = some owner := by
  unfold Entry.positionOf? at h
  split at h
  · next o ho =>
    cases h
    exact ⟨.south owner o, rfl, by rw [occupants_south he]; exact Entry.mem_of_outputTo? ho, rfl⟩
  · split at h
    · next hc =>
      cases h
      exact ⟨.child owner, rfl, by rw [occupants_child he]; simpa using hc, rfl⟩
    · cases h

/-- An entry gives a position for every node that stands in one of its slots. -/
theorem positionOf?_isSome {s : Slot} {owner : NodeId} (he : g.find? owner = some e)
    (os : s.owner? = some owner) (h : n ∈ g.occupants s) : (e.positionOf? owner n).isSome := by
  unfold Entry.positionOf?
  split
  · rfl
  · next ho =>
    cases s with
    | root => cases os
    | south m o =>
      cases os
      rw [occupants_south he] at h
      exact absurd h (Entry.not_mem_of_outputTo? ho o)
    | child m =>
      cases os
      rw [occupants_child he] at h
      simp [h]

/-- The position found for a node names a slot that holds it and is not one of its own. -/
theorem mem_occupants_of_position {p : Position} (h : g.position n = .ok p) :
    ∃ s : Slot, p = s.position ∧ n ∈ g.occupants s ∧ s.owner? ≠ some n := by
  unfold position at h
  split at h
  · next root =>
    cases h
    exact ⟨.root, rfl, mem_occupants_root.2 root, nofun⟩
  · simp only at h
    split at h
    · next q found =>
      cases h
      obtain ⟨⟨owner, e⟩, mem, hq⟩ := List.exists_of_findSome?_eq_some found
      simp only at hq
      split at hq
      · cases hq
      · next other =>
        obtain ⟨s, rfl, there, owner⟩ :=
          positionOf?_eq_some hq (OrderedMap.mem_toList_iff.1 mem)
        exact ⟨s, rfl, there, fun own => other (Option.some.inj (owner.symm.trans own))⟩
    · cases h

/-- A node that stands in a slot of another node or at the root has a position. -/
theorem exists_position {s : Slot} (h : n ∈ g.occupants s) (other : s.owner? ≠ some n) :
    ∃ p, g.position n = .ok p := by
  unfold position
  split
  · exact ⟨_, rfl⟩
  · next root =>
    simp only
    split
    · exact ⟨_, rfl⟩
    · next miss =>
      exfalso
      cases os : s.owner? with
      | none =>
        exact root (mem_occupants_root.1 (Slot.eq_root_of_owner os ▸ h))
      | some owner =>
        obtain ⟨e, he⟩ := mem_ids_iff.1 (owner_mem_ids h os)
        have none_at := List.findSome?_eq_none_iff.1 miss (owner, e) (OrderedMap.mem_of_get? he)
        have ne : ¬ owner = n := fun eq => other (eq ▸ os)
        rw [if_neg ne] at none_at
        have := positionOf?_isSome he os h
        rw [none_at] at this
        cases this

/-- In a tree the position of a node is the one slot that it stands in. -/
theorem IsTree.position_eq (tree : g.IsTree) {s : Slot} (h : n ∈ g.occupants s) :
    g.position n = .ok s.position := by
  obtain ⟨p, hp⟩ := exists_position h (tree.owner_ne h)
  obtain ⟨t, rfl, ht, _⟩ := mem_occupants_of_position hp
  rw [hp, tree.slot_unique ht h]

/-- In a tree every node with an entry stands somewhere. -/
theorem IsTree.exists_slot (tree : g.IsTree) (h : n ∈ g.ids) : ∃ s, n ∈ g.occupants s := by
  obtain ⟨_, mem⟩ := tree.rooted h
  exact ⟨_, mem⟩

end Graph

end Autoflow
