import Autoflow.Proofs.Graph.Layout
import Autoflow.Run.Context

/-!
# Tasks of a run

A task is a node to dispatch and the container iterations in effect. `Layout.spawned` lists the
tasks that a dispatched one leaves behind: its children once for each item, then its successors
on one output. A task covers itself and all that it can leave behind; in a tree the tasks left
behind by one task cover nothing in common (`IsTree.spawned_apart`), so that no task can come up
twice. The iterations of a task stay keyed by the containers around its node (`Placed.spawned`).
-/

namespace Autoflow

/-- A node to dispatch and the iterations in effect. -/
structure Task where
  node : NodeId
  iterations : NodeMap Nat

namespace Task

/-- The record of a task with a result. -/
def record (t : Task) (r : NodeResult) : Record := ⟨t.node, t.iterations, r⟩

end Task

/-- The task that a record is about. -/
def Record.task (R : Record) : Task := ⟨R.node, R.iterations⟩

@[simp] theorem Record.task_record (t : Task) (r : NodeResult) : (t.record r).task = t := rfl

namespace Layout

variable {L : Layout} {D : Set NodeId} {s t u : Task} {count : Nat} {output : String}

/-- The tasks for one item: the children of a task's node at an index. -/
def inner (L : Layout) (t : Task) (index : Nat) : List Task :=
  (L (.child t.node)).map fun d => ⟨d, t.iterations.insert t.node index⟩

/-- The tasks behind a task: the successors on an output. -/
def behind (L : Layout) (t : Task) (output : String) : List Task :=
  (L (.south t.node output)).map fun d => ⟨d, t.iterations⟩

/-- The tasks that a task leaves behind, with a number of items and an output to take. -/
def spawned (L : Layout) (t : Task) (count : Nat) (output : String) : List Task :=
  (List.range count).flatMap (L.inner t) ++ L.behind t output

/-- The tasks of an iteration are about the nodes inside, at its index. -/
theorem mem_inner_iff {index : Nat} : s ∈ L.inner t index ↔
    s.node ∈ L (.child t.node) ∧ s.iterations = t.iterations.insert t.node index := by
  constructor
  · intro h
    obtain ⟨d, hd, rfl⟩ := List.mem_map.1 h
    exact ⟨hd, rfl⟩
  · rintro ⟨hs, e⟩
    exact List.mem_map.2 ⟨s.node, hs, by rw [← e]⟩

/-- The tasks behind another one are in the same iterations. -/
theorem mem_behind_iff : s ∈ L.behind t output ↔
    s.node ∈ L (.south t.node output) ∧ s.iterations = t.iterations := by
  constructor
  · intro h
    obtain ⟨d, hd, rfl⟩ := List.mem_map.1 h
    exact ⟨hd, rfl⟩
  · rintro ⟨hs, e⟩
    exact List.mem_map.2 ⟨s.node, hs, by rw [← e]⟩

/-- A task is left behind inside or behind the node. -/
theorem mem_spawned_iff : s ∈ L.spawned t count output ↔
    (∃ i < count, s.node ∈ L (.child t.node) ∧ s.iterations = t.iterations.insert t.node i) ∨
    (s.node ∈ L (.south t.node output) ∧ s.iterations = t.iterations) := by
  simp only [spawned, List.mem_append, List.mem_flatMap, List.mem_range, mem_inner_iff,
    mem_behind_iff]

/-- In both cases its node is one step below. -/
theorem edge_of_mem_spawned (h : s ∈ L.spawned t count output) : L.Edge t.node s.node := by
  rcases mem_spawned_iff.1 h with ⟨_, _, hs, _⟩ | ⟨hs, _⟩
  · exact .of_mem hs rfl
  · exact .of_mem hs rfl

/-- A task is another one or may be left behind by it: its node is not above, and the iterations
of what is not below are the same. -/
def Covers (L : Layout) (t s : Task) : Prop :=
  L.Reach t.node s.node ∧
    ∀ k, ¬ L.Reach t.node k → s.iterations.get? k = t.iterations.get? k

/-- Two tasks cover nothing in common. -/
def Apart (L : Layout) (t s : Task) : Prop := ∀ u, L.Covers t u → ¬ L.Covers s u

/-- The iterations of a task are those of the containers around its node. -/
def Placed (L : Layout) (t : Task) : Prop := ∀ k, k ∈ t.iterations.ids ↔ L.Inside k t.node

theorem Covers.refl (L : Layout) (t : Task) : L.Covers t t := ⟨.refl, fun _ _ => rfl⟩

/-- What a covered task covers is covered as well. -/
theorem Covers.trans (h : L.Covers t s) (h' : L.Covers s u) : L.Covers t u := by
  refine ⟨h.1.trans h'.1, fun k off => ?_⟩
  rw [h'.2 k fun r => off (h.1.trans r), h.2 k off]

/-- What a task leaves behind is covered by it, as only its own index is new. -/
theorem Covers.spawned (h : s ∈ L.spawned t count output) : L.Covers t s := by
  refine ⟨.single (edge_of_mem_spawned h), fun k off => ?_⟩
  rcases mem_spawned_iff.1 h with ⟨i, _, _, e⟩ | ⟨_, e⟩
  · have ne : t.node ≠ k := fun e => off (e ▸ .refl)
    rw [e, NodeMap.get?_insert, if_neg ne]
  · rw [e]

/-- Tasks about nodes that lead to no common node cover nothing in common. -/
theorem apart_of_not_reach (h : ∀ x, L.Reach t.node x → ¬ L.Reach s.node x) : L.Apart t s :=
  fun u ht hs => h u.node ht.1 hs.1

namespace IsTree

/-- The containers around a node in a container are that container and those around it. -/
theorem inside_child_iff (h : L.IsTree D) {c k d : NodeId} (hd : d ∈ L (.child c)) :
    L.Inside k d ↔ k = c ∨ L.Inside k c := by
  constructor
  · rintro ⟨b, hb, r⟩
    rcases Relation.ReflTransGen.cases_tail r with e | ⟨z, r, edge⟩
    · rw [e] at hd
      exact Or.inl (by simpa using h.slot_unique hb hd)
    · rw [h.owner_unique edge (.of_mem hd rfl)] at r
      exact Or.inr ⟨b, hb, r⟩
  · rintro (rfl | i)
    · exact .of_mem hd
    · exact i.of_edge (.of_mem hd rfl)

/-- The containers around a node on an output are those around the owner of the output. -/
theorem inside_south_iff (h : L.IsTree D) {p k n : NodeId} (hn : n ∈ L (.south p output)) :
    L.Inside k n ↔ L.Inside k p := by
  constructor
  · rintro ⟨b, hb, r⟩
    rcases Relation.ReflTransGen.cases_tail r with e | ⟨z, r, edge⟩
    · rw [e] at hn
      exact absurd (h.slot_unique hb hn) (by simp)
    · rw [h.owner_unique edge (.of_mem hn rfl)] at r
      exact ⟨b, hb, r⟩
  · exact fun i => i.of_edge (.of_mem hn rfl)

/-- No container is around the root. -/
theorem not_inside_root (h : L.IsTree D) {k r : NodeId} (hr : r ∈ L .root) : ¬ L.Inside k r := by
  rintro ⟨b, hb, reach⟩
  rcases Relation.ReflTransGen.cases_tail reach with e | ⟨z, _, edge⟩
  · rw [e] at hr
    exact absurd (h.slot_unique hb hr) (by simp)
  · exact h.not_edge_of_mem_root hr edge

/-- The task of the root is in no iterations. -/
theorem placed_root (h : L.IsTree D) {r : NodeId} (hr : r ∈ L .root) :
    ∀ t ∈ [Task.mk r .empty], L.Placed t := by
  intro t ht k
  rw [List.mem_singleton.1 ht]
  exact iff_of_false List.not_mem_nil (h.not_inside_root hr)

/-- A task is not below what it leaves behind. -/
theorem not_covers_spawned (h : L.IsTree D) (hs : s ∈ L.spawned t count output) :
    ¬ L.Covers s t := fun back => h.not_reach_of_edge (edge_of_mem_spawned hs) back.1

/-- A task in its place has no index for its own node. -/
theorem not_mem_ids (h : L.IsTree D) (ht : L.Placed t) : t.iterations.get? t.node = none :=
  NodeMap.get?_eq_none_iff.2 fun mem => h.not_inside_self ((ht _).1 mem)

/-- What is left behind in a tree is in its place too: inside there is one container more, behind
there are the same. -/
theorem placed_spawned (h : L.IsTree D) (ht : L.Placed t) (hs : s ∈ L.spawned t count output) :
    L.Placed s := by
  intro k
  rcases mem_spawned_iff.1 hs with ⟨i, _, mem, e⟩ | ⟨mem, e⟩
  · rw [e, NodeMap.mem_ids_insert, ht k, h.inside_child_iff mem]
  · rw [e, ht k, h.inside_south_iff mem]

/-- The tasks of one iteration are in different parts of the tree, -/
theorem inner_apart (h : L.IsTree D) (t : Task) (i : Nat) : (L.inner t i).Pairwise L.Apart := by
  refine List.pairwise_map.2 ((h.nodup _).imp_of_mem fun {a b} ha hb ne => ?_)
  exact apart_of_not_reach fun x ra rb =>
    ne (h.eq_of_reach (.of_mem ha rfl) (.of_mem hb rfl) ra rb)

/-- and so are those behind one output. -/
theorem behind_apart (h : L.IsTree D) (t : Task) (output : String) :
    (L.behind t output).Pairwise L.Apart := by
  refine List.pairwise_map.2 ((h.nodup _).imp_of_mem fun {a b} ha hb ne => ?_)
  exact apart_of_not_reach fun x ra rb =>
    ne (h.eq_of_reach (.of_mem ha rfl) (.of_mem hb rfl) ra rb)

/-- What a task in a container covers has the index of the container. -/
theorem get?_of_covers_inner (h : L.IsTree D) {i : Nat} (hs : s ∈ L.inner t i)
    (hu : L.Covers s u) : u.iterations.get? t.node = some i := by
  obtain ⟨mem, e⟩ := mem_inner_iff.1 hs
  rw [hu.2 t.node (h.not_reach_of_edge (.of_mem mem rfl)), e, NodeMap.get?_insert, if_pos rfl]

/-- The tasks that a task leaves behind cover nothing in common. -/
theorem spawned_apart (h : L.IsTree D) (t : Task) (count : Nat) (output : String) :
    (L.spawned t count output).Pairwise L.Apart := by
  refine List.pairwise_append.2 ⟨?_, h.behind_apart t output, ?_⟩
  · refine List.pairwise_flatMap.2 ⟨fun i _ => h.inner_apart t i, ?_⟩
    refine List.nodup_range.imp fun {i j} ne s hs s' hs' u hu hu' => ?_
    have e := (h.get?_of_covers_inner hs hu).symm.trans (h.get?_of_covers_inner hs' hu')
    exact ne (Option.some.inj e)
  · intro s hs s' hs'
    obtain ⟨i, _, hs⟩ := List.mem_flatMap.1 hs
    have inside := (mem_inner_iff.1 hs).1
    have next := (mem_behind_iff.1 hs').1
    refine apart_of_not_reach fun x r r' => ?_
    have e := h.eq_of_reach (.of_mem inside rfl) (.of_mem next rfl) r r'
    exact absurd (h.slot_unique (e ▸ inside) next) (by simp)

end IsTree

end Layout

end Autoflow
