import Autoflow.Editing.Operations
import Autoflow.Proofs.Checks
import Autoflow.Proofs.Graph.Descent

/-!
# What the checks of an edit say

Each check reads the graph through its layout: a position is there if its reference stands in
the graph and exposes the output (`checkPosition_eq_ok`), and the checks by kind say which slots
of a node are empty (`checkDelete_eq_ok` and its siblings). All of them are equivalences, so they
serve to read an edit that succeeded and to show that one will.
-/

namespace Autoflow.Workflow

variable {w : Workflow} {registry : Registry} {p : Position} {n : NodeId} {node : Node}
  {reference : Option Node} {kind : NodeKind}

/-! ## Positions -/

/-- A position without a reference is resolved to none, and one with a reference to the live
node. -/
theorem resolve_eq_ok : w.resolve p = .ok reference ↔
    (p.reference = none ∧ reference = none) ∨
      ∃ r node, p.reference = some r ∧ w.nodes.get? r = some node ∧ reference = some node := by
  unfold resolve
  cases h : p.reference with
  | none => simp [eq_comm]
  | some r => cases hn : w.nodes.get? r <;> simp [hn, eq_comm]

theorem isSome_of_resolve (h : w.resolve p = .ok reference) :
    reference.isSome = p.reference.isSome := by
  rcases resolve_eq_ok.1 h with ⟨e, rfl⟩ | ⟨r, node, e, _, rfl⟩
  · rw [e]
    rfl
  · rw [e]
    rfl

theorem require_eq_ok {name : String} {type : NodeType} :
    registry.require name = .ok type ↔ registry.get? name = some type := by
  unfold Registry.require
  cases registry.get? name <;> simp

theorem node_eq_ok : w.node n = .ok node ↔ w.nodes.get? n = some node := by
  unfold Workflow.node
  cases w.nodes.get? n <;> simp

/-- A node has a type with nodes inside. -/
def IsContainer (registry : Registry) (node : Node) : Prop :=
  ∃ type, registry.get? node.typeName = some type ∧ type.isContainer = true

/-- A node has a type that starts a workflow. -/
def IsTrigger (registry : Registry) (node : Node) : Prop :=
  ∃ type, registry.get? node.typeName = some type ∧ type.isTrigger = true

/-- A slot is exposed by a node of this workflow that stands in the graph and has the output, and a
slot for children only by a container. -/
theorem checkPosition_eq_ok : w.checkPosition registry (some node) p = .ok () ↔
    node.workflow = w.id ∧ node.id ∈ w.graph.ids ∧ node.hasOutput p.output = true ∧
      (p.placement = .child → IsContainer registry node) := by
  unfold checkPosition
  by_cases home : node.workflow ≠ w.id ∨ w.graph.contains node.id = false
  · simp only [home, if_true, reduceCtorEq, false_iff]
    rintro ⟨e, mem, _⟩
    rcases home with off | off
    · exact off e
    · exact Graph.contains_eq_false_iff.1 off mem
  · simp only [if_neg home]
    have here : node.workflow = w.id ∧ node.id ∈ w.graph.ids := by
      rw [not_or, not_not, Graph.contains_eq_false_iff, not_not] at home
      exact home
    rw [and_iff_right here.1, and_iff_right here.2]
    by_cases out : node.hasOutput p.output = true
    · by_cases inside : p.placement = .child
      · simp only [out, inside, if_true, Bool.true_eq_false, if_false, true_and, forall_const,
          IsContainer]
        cases h : registry.get? node.typeName with
        | none => simp [Registry.require, h]
        | some type => cases c : type.isContainer <;> simp [Registry.require, h, c]
      · simp [out, inside]
    · simp [out]

/-! ## Tests of the graph -/

/-- A check that refuses what passes a test is passed if the test can be made and fails. -/
theorem refuseIf_eq_ok {test : Except GraphFault Bool} {fault : NodeFault} :
    refuseIf test fault = .ok () ↔ test = .ok false := by
  unfold refuseIf
  rcases test with f | (_ | _) <;> simp

theorem map_isEmpty_eq_ok {r : Except GraphFault (List NodeId)} :
    r.map (fun l => !l.isEmpty) = .ok false ↔ r = .ok [] := by
  cases r with
  | error f => simp [Except.map]
  | ok l => cases l <;> simp [Except.map]

theorem nextNodes_eq_nil_iff (h : n ∈ w.graph.ids) {o : String} :
    w.graph.nextNodes n (some o) = .ok [] ↔ w.graph.occupants (.south n o) = [] := by
  obtain ⟨e, he⟩ := Graph.mem_ids_iff.1 h
  rw [Graph.occupants_south he]
  simp [Graph.nextNodes, Graph.require, he, bind, Except.bind, pure, Except.pure]

/-- Without an output to look at, all successors are asked for. -/
theorem allNext_eq_nil_iff (h : n ∈ w.graph.ids) :
    w.graph.nextNodes n none = .ok [] ↔ ∀ o, w.graph.occupants (.south n o) = [] := by
  obtain ⟨e, he⟩ := Graph.mem_ids_iff.1 h
  have all : e.nextIds = [] ↔ ∀ o, w.graph.occupants (.south n o) = [] := by
    simp only [List.eq_nil_iff_forall_not_mem, Graph.mem_nextIds_iff he]
    exact ⟨fun h o x hx => h x ⟨o, hx⟩, fun h x ⟨o, hx⟩ => h o x hx⟩
  rw [← all]
  simp [Graph.nextNodes, Graph.require, he, bind, Except.bind, pure, Except.pure]

theorem children_eq_nil_iff (h : n ∈ w.graph.ids) :
    w.graph.children n = .ok [] ↔ w.graph.occupants (.child n) = [] := by
  obtain ⟨e, he⟩ := Graph.mem_ids_iff.1 h
  rw [Graph.occupants_child he]
  simp [Graph.children, Graph.require, he, Except.map]

/-- No output of a node besides the default one leads to another node. -/
def BareBranches (w : Workflow) (node : Node) : Prop :=
  ∀ e ∈ node.service.edges, e.uid ≠ "" → w.graph.occupants (.south node.id e.uid) = []

/-- A router has no node on a branch if each of its branches is free. Its default output does not
count. -/
theorem hasNodeOnEdge_eq_false_iff (h : node.id ∈ w.graph.ids) :
    w.hasNodeOnEdge node = .ok false ↔ w.BareBranches node := by
  unfold hasNodeOnEdge
  rw [Except.anyM_eq_false_iff]
  have test : ∀ e : Edge, w.hasNext node.id e.uid = .ok false ↔
      w.graph.occupants (.south node.id e.uid) = [] := fun e =>
    map_isEmpty_eq_ok.trans (nextNodes_eq_nil_iff h)
  simp only [test, List.mem_filter, BareBranches, and_imp, Bool.not_eq_true',
    String.isEmpty_eq_false_iff]

/-! ## Checks by kind -/

/-- A trigger is created at a root that is free, and everything else beside a node. -/
theorem checkCreate_eq_ok : w.checkCreate kind reference = .ok () ↔
    (kind = .trigger ∧ w.graph.root = none ∧ reference = none) ∨
      (kind ≠ .trigger ∧ reference.isSome = true) := by
  unfold checkCreate
  by_cases k : kind = .trigger
  · cases hr : w.graph.root <;> cases reference <;> simp [k]
  · cases reference <;> simp [k]

/-- What a deletion must not leave hanging, for each kind. -/
theorem checkDelete_eq_ok (h : node.id ∈ w.graph.ids) : w.checkDelete kind node = .ok () ↔
    (kind = .trigger → ∀ o, w.graph.occupants (.south node.id o) = []) ∧
      (kind = .container → w.graph.occupants (.child node.id) = []) ∧
      (kind = .router → w.BareBranches node) := by
  cases kind with
  | trigger =>
    simp only [checkDelete, refuseIf_eq_ok, hasNext, map_isEmpty_eq_ok, allNext_eq_nil_iff h]
    simp
  | action => simp [checkDelete]
  | container =>
    simp only [checkDelete, refuseIf_eq_ok, hasChildren, map_isEmpty_eq_ok, children_eq_nil_iff h]
    simp
  | router =>
    simp only [checkDelete, refuseIf_eq_ok, hasNodeOnEdge_eq_false_iff h]
    simp

/-- What a replacement must not leave behind, and that triggers only stand for triggers. -/
theorem checkReplace_eq_ok {old new : NodeType} (h : node.id ∈ w.graph.ids) :
    w.checkReplace old new node = .ok () ↔
      (old.kind = .container → w.graph.occupants (.child node.id) = []) ∧
        (old.kind = .router → w.BareBranches node) ∧ old.isTrigger = new.isTrigger := by
  have last : ∀ f : Failure,
      (if old.isReplaceableWith new then Except.ok () else Except.error f) = .ok () ↔
        old.isTrigger = new.isTrigger := by
    intro f
    unfold NodeType.isReplaceableWith
    by_cases e : old.isTrigger = new.isTrigger <;> simp [e]
  unfold checkReplace
  cases k : old.kind <;>
    simp [Except.bind_unit_eq_ok, last, refuseIf_eq_ok, hasChildren, map_isEmpty_eq_ok,
      children_eq_nil_iff h, hasNodeOnEdge_eq_false_iff h]

/-- In a tree, the walk through the children of a container says exactly whether a node lies inside
it. -/
theorem liesInside_eq_false_iff (tree : w.graph.IsTree) {m : NodeId} (h : n ∈ w.graph.ids) :
    w.liesInside m n = .ok false ↔ ¬ w.graph.occupants.Inside n m := by
  unfold liesInside
  rw [Graph.descendants_eq h, ← tree.mem_reach_iff]
  simp [Except.map]

/-- Only the check of a container reads more of the graph than the slots of the node. -/
theorem checkMove_eq_ok (tree : kind = .container → w.graph.IsTree) (h : node.id ∈ w.graph.ids) :
    w.checkMove kind node reference = .ok () ↔
      kind ≠ .trigger ∧ (kind = .router → w.BareBranches node) ∧
        ∃ r, reference = some r ∧
          (kind = .container → ¬ w.graph.occupants.Inside node.id r.id) := by
  unfold checkMove
  cases kind with
  | container =>
    cases reference <;>
      simp [Except.bind_unit_eq_ok, refuseIf_eq_ok, liesInside_eq_false_iff (tree rfl) h]
  | trigger | action | router =>
    cases reference <;>
      simp [Except.bind_unit_eq_ok, refuseIf_eq_ok, hasNodeOnEdge_eq_false_iff h]

/-- Only routers are kept from dropping a branch in use. -/
theorem checkUpdate_eq_ok {service : Service} (h : node.id ∈ w.graph.ids) :
    w.checkUpdate kind node service = .ok () ↔
      (kind = .router → ∀ e ∈ node.service.edges, e.uid ≠ "" → service.hasOutput e.uid = false →
        w.graph.occupants (.south node.id e.uid) = []) := by
  unfold checkUpdate
  by_cases k : kind = .router
  · simp only [k, if_true, forall_const]
    rw [Except.forM_eq_ok]
    simp only [refuseIf_eq_ok, hasNext, map_isEmpty_eq_ok, nextNodes_eq_nil_iff h, List.mem_filter,
      Bool.and_eq_true, Bool.not_eq_true', String.isEmpty_eq_false_iff, and_imp]
  · simp [k]

/-- A service in place of itself drops no branch. -/
theorem checkUpdate_self (w : Workflow) (kind : NodeKind) (node : Node) :
    w.checkUpdate kind node node.service = .ok () := by
  unfold checkUpdate
  split
  · have none_dropped : node.service.edges.filter
        (fun e => !e.uid.isEmpty && !node.service.hasOutput e.uid) = [] := by
      rw [List.filter_eq_nil_iff]
      intro e mem
      have exposed : node.service.hasOutput e.uid = true :=
        List.any_eq_true.2 ⟨e, mem, beq_self_eq_true e.uid⟩
      rw [exposed, Bool.not_true, Bool.and_false]
      exact Bool.false_ne_true
    rw [none_dropped]
    rfl
  · rfl

end Autoflow.Workflow
