import Autoflow.Graph.Captions
import Autoflow.Graph.Walks
import Autoflow.Node.Map
import Autoflow.Service.Basic

/-!
# Workflows

A workflow is a graph with the nodes that stand in it and, for a simulation, the node after
which a run stops. What lies above a node is read off the path of slots from the root to it.
-/

namespace Autoflow

/-- A workflow. -/
structure Workflow where
  id : WorkflowId
  name : String
  graph : Graph := .empty
  /-- The live nodes, by id. -/
  nodes : NodeMap Node := .empty
  /-- The node after which a simulation stops. -/
  simulateUntil : Option NodeId := none

namespace Workflow

/-- A live node. -/
def node (w : Workflow) (n : NodeId) : Except NodeFault Node :=
  match w.nodes.get? n with
  | some node => .ok node
  | none => .error (.doesNotExist n)

/-- The first node, by id, that shows a label. -/
def findByLabel? (w : Workflow) (label : String) : Option Node :=
  w.nodes.values.find? (·.displayLabel == label)

/-- The node at the root of the graph. -/
def trigger? (w : Workflow) : Option Node := w.graph.root.bind w.nodes.get?

/-- Adds a node, over one of the same id. -/
def addNode (w : Workflow) (node : Node) : Workflow :=
  { w with nodes := w.nodes.insert node.id node }

/-- Takes a node out, and the simulation marker if it is on the node. -/
def takeNode (w : Workflow) (n : NodeId) : Workflow :=
  { w with
    nodes := w.nodes.erase n
    simulateUntil := if w.simulateUntil = some n then none else w.simulateUntil }

theorem get?_addNode {node : Node} {n : NodeId} (id : node.id = n) (w : Workflow) (m : NodeId) :
    (w.addNode node).nodes.get? m = if n = m then some node else w.nodes.get? m := by
  rw [← id]
  exact NodeMap.get?_insert w.nodes node.id m node

theorem get?_takeNode (w : Workflow) (n m : NodeId) :
    (w.takeNode n).nodes.get? m = if n = m then none else w.nodes.get? m :=
  NodeMap.get?_erase w.nodes n m

/-- The marker stays on a node unless that is the one taken out. -/
theorem simulateUntil_takeNode {w : Workflow} {n m : NodeId}
    (h : (w.takeNode n).simulateUntil = some m) : m ≠ n ∧ w.simulateUntil = some m := by
  simp only [takeNode] at h
  split at h
  · cases h
  · next off => exact ⟨fun e => off (e ▸ h), h⟩

/-- Sets the simulation marker to a live node, or takes it away. -/
def setSimulateUntil (w : Workflow) (n : Option NodeId) : Except NodeFault Workflow :=
  match n with
  | some id =>
    if w.nodes.contains id then .ok { w with simulateUntil := n } else .error (.notInWorkflow id)
  | none => .ok { w with simulateUntil := none }

/-- The slots from the root down to a node. -/
def path (w : Workflow) (n : NodeId) : Except GraphFault (List Position) :=
  match w.graph.previousPositions n with
  | some positions => .ok positions
  | none => .error (.nodeNotFound n)

/-- The nodes on the way from the root to a node. -/
def previousNodes (w : Workflow) (n : NodeId) : Except GraphFault (List NodeId) :=
  (w.path n).map fun l => l.filterMap Position.reference

/-- The containers around a node, the outermost first. -/
def parentNodes (w : Workflow) (n : NodeId) : Except GraphFault (List NodeId) :=
  (w.path n).map fun l => (l.filter fun p => p.placement = .child).filterMap Position.reference

/-- The outputs taken on the way from the root to a node, each with its node. -/
def previousOutputs (w : Workflow) (n : NodeId) : Except GraphFault (List (NodeId × String)) :=
  (w.path n).map fun l => (l.filter fun p => p.placement = .south).filterMap fun p =>
    p.reference.map fun reference => (reference, p.output)

/-- The labels of the nodes of a workflow and of their outputs. -/
def labels (w : Workflow) : LabelSource where
  node n := (w.nodes.get? n).map fun node => node.displayLabel
  output n uid := (w.nodes.get? n).bind fun node => node.service.edgeLabel? uid

/-- The graph with labels in the place of ids. -/
def labeledGraph (w : Workflow) : Except GraphFault Json := w.graph.labeled w.labels

end Workflow

end Autoflow
