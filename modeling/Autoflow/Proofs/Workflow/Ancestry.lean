import Autoflow.Proofs.Graph.Descent
import Autoflow.Proofs.Graph.Paths
import Autoflow.Proofs.Graph.Validation
import Autoflow.Workflow.Basic

/-!
# What encloses a node

A workflow reads the containers around a node off the path that the search finds for it, while a
graph collects what a container holds by a walk of its own. In a valid graph the two agree
(`parentNodes_enclose`): a path goes into a container exactly if its end is inside
(`Leads.mem_containers_iff`), and each container on it is inside those before
(`Leads.pairwise_containers`).
-/

namespace Autoflow

/-- The nodes that a path of slots goes into. -/
def Position.containers (path : List Position) : List NodeId :=
  (path.filter fun p => p.placement = .child).filterMap Position.reference

/-- The nodes that a path of slots goes on behind, each with the output. -/
def Position.outputs (path : List Position) : List (NodeId × String) :=
  (path.filter fun p => p.placement = .south).filterMap fun p =>
    p.reference.map fun reference => (reference, p.output)

namespace Position

variable {p : Position} {path : List Position} {n : NodeId}

theorem slot_of_child (place : p.placement = .child) (owner : p.reference = some n) :
    p.slot = .child n := by
  simp only [slot, owner, place, Slot.beside]

theorem containers_child (place : p.placement = .child) (owner : p.reference = some n) :
    containers (p :: path) = n :: containers path := by
  simp [containers, place, owner]

theorem containers_south (place : p.placement = .south) :
    containers (p :: path) = containers path := by
  simp [containers, place]

/-- A path leaves each of its nodes by an output or goes into it. -/
theorem references_perm (path : List Position) :
    (path.filterMap reference).Perm ((outputs path).map Prod.fst ++ containers path) := by
  have behind : (outputs path).map Prod.fst =
      (path.filter fun p => p.placement = .south).filterMap reference := by
    simp [outputs, List.map_filterMap, Function.comp_def]
  have inside : path.filter (fun p => p.placement = .child) =
      path.filter fun p => !decide (p.placement = .south) :=
    List.filter_congr fun p _ => by cases p.placement <;> rfl
  rw [behind, containers, inside, ← List.filterMap_append]
  exact ((List.filter_append_perm _ path).filterMap _).symm

end Position

namespace Layout.Leads

open Position

variable {L : Layout} {D : Set NodeId} {last n c : NodeId} {path : List Position}

section Step

variable {next : NodeId} {p : Position} (tree : L.IsTree D) (owner : p.reference = some n)
  (head : (L p.slot).head? = some next) (rest : L.Leads last next path)

include tree owner head rest

/-- The end of a path is inside its first node exactly if the path goes into it. -/
theorem inside_iff : L.Inside n last ↔ p.placement = .child := by
  constructor
  · rintro ⟨d, mem, below⟩
    obtain ⟨_, same⟩ := rest.eq_next tree owner head (s := .child n) rfl mem below
    exact (slot_eq_child same.symm).2
  · intro place
    rw [slot_of_child place owner] at head
    exact ⟨next, List.mem_of_head? head, rest.reach⟩

/-- A container on the way is the first node, or it is on the way from the next one. -/
theorem enclosing_iff : L.Reach n c ∧ L.Inside c last ↔
    c = n ∧ L.Inside n last ∨ L.Reach next c ∧ L.Inside c last := by
  have edge := edge_of_head owner head
  constructor
  · rintro ⟨above, inside⟩
    rcases Relation.ReflTransGen.cases_head above with rfl | ⟨y, edge', above⟩
    · exact Or.inl ⟨rfl, inside⟩
    · obtain rfl := tree.eq_of_reach edge' edge (above.trans inside.reach) rest.reach
      exact Or.inr ⟨above, inside⟩
  · rintro (⟨rfl, inside⟩ | ⟨above, inside⟩)
    · exact ⟨.refl, inside⟩
    · exact ⟨.head edge above, inside⟩

end Step

/-- In a tree a path goes into a node exactly if that is on the way and the end is inside. -/
theorem mem_containers_iff (tree : L.IsTree D) (h : L.Leads last n path) :
    c ∈ containers path ↔ L.Reach n c ∧ L.Inside c last := by
  induction h with
  | here =>
    refine ⟨fun mem => (List.not_mem_nil mem).elim, fun ⟨above, inside⟩ => ?_⟩
    exact (tree.acyclic (inside.transGen.trans_left above)).elim
  | @down n next p path owner head rest ih =>
    rw [enclosing_iff tree owner head rest, inside_iff tree owner head rest, ← ih]
    cases place : p.placement with
    | south => simp [containers_south place]
    | child => simp [containers_child place owner]

/-- In a tree each container on a path is inside those before. -/
theorem pairwise_containers (tree : L.IsTree D) (h : L.Leads last n path) :
    (containers path).Pairwise L.Inside := by
  induction h with
  | here => exact .nil
  | @down n next p path owner head rest ih =>
    cases place : p.placement with
    | south => rwa [containers_south place]
    | child =>
      rw [slot_of_child place owner] at head
      rw [containers_child place owner]
      refine List.pairwise_cons.2 ⟨fun c mem => ?_, ih⟩
      exact ⟨next, List.mem_of_head? head, ((rest.mem_containers_iff tree).1 mem).1⟩

end Layout.Leads

namespace Graph

variable {g : Graph} {c n : NodeId}

/-- A node is among the descendants of another one. -/
def Encloses (g : Graph) (c n : NodeId) : Prop :=
  ∃ inside, g.descendants c = .ok inside ∧ n ∈ inside

theorem IsTree.encloses_iff (tree : g.IsTree) : g.Encloses c n ↔ g.occupants.Inside c n := by
  constructor
  · rintro ⟨l, walked, mem⟩
    exact (tree.mem_descendants_iff walked).1 mem
  · intro inside
    have ⟨_, held, _⟩ := inside
    have walked := descendants_eq (owner_mem_ids held (Slot.owner_child c))
    exact ⟨_, walked, (tree.mem_descendants_iff walked).2 inside⟩

end Graph

namespace Workflow

variable {w : Workflow} {n : NodeId} {path : List Position}

/-- What a workflow says about the nodes above a node. The containers are those that have the node
among their descendants, each one once and the outer ones first, and they are what remains of the
nodes on the way without those that are left by an output. -/
structure Ancestry (g : Graph) (n : NodeId) (before parents : List NodeId)
    (outputs : List (NodeId × String)) : Prop where
  enclosing : ∀ c, c ∈ parents ↔ g.Encloses c n
  distinct : parents.Nodup
  nested : parents.Pairwise g.Encloses
  parts : before.Perm (outputs.map Prod.fst ++ parents)

theorem ancestry_of_path (tree : w.graph.IsTree) (found : w.graph.previousPositions n = some path) :
    Ancestry w.graph n (path.filterMap Position.reference) (Position.containers path)
      (Position.outputs path) := by
  obtain ⟨r, root, leads⟩ := Graph.leads_of_previousPositions found
  have parts := Position.references_perm path
  have nodup := (List.nodup_append.1 (leads.nodup_nodes tree)).1
  refine ⟨fun c => ?_, ?_, ?_, parts⟩
  · rw [leads.mem_containers_iff tree, tree.encloses_iff]
    refine ⟨And.right, fun inside => ⟨?_, inside⟩⟩
    -- a container of the node is above it, and so it is on the way from the root
    have above := (leads.mem_nodes_iff_reach tree (Graph.mem_occupants_root.2 root)).2 inside.reach
    exact ((leads.mem_nodes_iff tree).1 above).1
  · exact (List.nodup_append.1 (parts.nodup_iff.1 nodup)).2.1
  · exact (leads.pairwise_containers tree).imp tree.encloses_iff.2

/-- In a workflow with a valid graph the containers around a node that the search finds are the
nodes with it among their descendants, from the outermost to the innermost. The nodes on the way to
it are these and those with an output on the way. -/
theorem parentNodes_enclose (w : Workflow) (n : NodeId) (valid : w.graph.validate = .ok ())
    (found : (w.graph.previousPositions n).isSome) :
    ∃ before parents outputs, w.previousNodes n = .ok before ∧ w.parentNodes n = .ok parents ∧
      w.previousOutputs n = .ok outputs ∧ Ancestry w.graph n before parents outputs := by
  obtain ⟨path, found⟩ := Option.isSome_iff_exists.1 found
  have way : w.path n = .ok path := by rw [Workflow.path, found]
  refine ⟨_, _, _, ?_, ?_, ?_, ancestry_of_path (Graph.validate_eq_ok_iff.1 valid) found⟩
  · rw [previousNodes, way, Except.map]
  · rw [parentNodes, way, Except.map, Position.containers]
  · rw [previousOutputs, way, Except.map, Position.outputs]

/-- A root with a container behind it and a node behind that. Inside the container a branch leads to
another one, which holds a node. -/
def boxed : Workflow where
  id := 1
  name := "Boxed"
  graph := {
    root := some 1
    entries := (((((OrderedMap.empty.insert 1 ⟨some (.single "" [2]), none⟩).insert 2
      ⟨some (.single "" [6]), some [3]⟩).insert 3 ⟨some (.single "big" [4]), none⟩).insert 4
      ⟨none, some [5]⟩).insert 5 {}).insert 6 {} }

theorem previousPositions_boxed :
    boxed.graph.previousPositions 5 =
      some [.south 1 "", .child 2, .south 3 "big", .child 4] := by
  refine (Graph.findPath_down (n := 1) rfl (by decide) (by decide) rfl).trans ?_
  refine (Graph.findPath_down (n := 2) rfl (by decide) (by decide) rfl).trans ?_
  refine (Graph.findPath_down (n := 6) rfl (by decide) (by decide) rfl).trans ?_
  refine (Graph.findPath_down (n := 3) rfl (by decide) (by decide) rfl).trans ?_
  refine (Graph.findPath_down (n := 4) rfl (by decide) (by decide) rfl).trans ?_
  exact Graph.findPath_hit rfl

theorem parentNodes_enclose_boxed :
    boxed.previousNodes 5 = .ok [1, 2, 3, 4] ∧ boxed.parentNodes 5 = .ok [2, 4] ∧
      boxed.previousOutputs 5 = .ok [(1, ""), (3, "big")] ∧
      Ancestry boxed.graph 5 [1, 2, 3, 4] [2, 4] [(1, ""), (3, "big")] := by
  have way : boxed.path 5 = .ok [.south 1 "", .child 2, .south 3 "big", .child 4] := by
    rw [Workflow.path, previousPositions_boxed]
  have before : boxed.previousNodes 5 = .ok [1, 2, 3, 4] := by rw [previousNodes, way]; rfl
  have parents : boxed.parentNodes 5 = .ok [2, 4] := by rw [parentNodes, way]; rfl
  have outputs : boxed.previousOutputs 5 = .ok [(1, ""), (3, "big")] := by
    rw [previousOutputs, way]
    rfl
  obtain ⟨_, _, _, before', parents', outputs', ancestry⟩ :=
    parentNodes_enclose boxed 5 (by decide +kernel) (by rw [previousPositions_boxed]; rfl)
  rw [before] at before'
  rw [parents] at parents'
  rw [outputs] at outputs'
  cases before'
  cases parents'
  cases outputs'
  exact ⟨before, parents, outputs, ancestry⟩

end Workflow

end Autoflow
