import Autoflow.NodeType.Registry
import Autoflow.Service.Coding
import Autoflow.Workflow.Basic

/-!
# Fixtures

A fixture lists the nodes of a workflow and holds the blob of its graph. It is built into a
workflow if the graph is a tree that hangs from a trigger and has exactly the listed nodes.
-/

namespace Autoflow

/-- A workflow as it is written down. -/
structure Fixture where
  id : WorkflowId := 1
  name : String
  nodes : List NodeExport := []
  graph : Json := .null
  /-- The label of the node after which a simulation stops. -/
  simulateUntil : Option String := none
deriving DecidableEq

namespace Fixture

/-- The fields of a fixture. -/
def shape : Shape where
  name := "WorkflowFixture"
  fields := [
    .defaulted "id" WorkflowId.decode,
    .required "name" Decoder.text,
    .defaulted "nodes" (Decoder.list NodeExport.decode),
    .defaulted "graph" Decoder.any,
    .defaulted "simulate_until" (Decoder.nullable Decoder.text)]

/-- Reads a fixture. -/
def decode : Decoder Fixture := fun v => do
  let fields ← shape.read v
  let id ← Decoder.optional fields "id" WorkflowId.decode
  let name ← Decoder.required fields "name" Decoder.text
  let nodes ← Decoder.optional fields "nodes" (Decoder.list NodeExport.decode)
  let graph ← Decoder.optional fields "graph" Decoder.any
  let simulateUntil ← Decoder.optional fields "simulate_until" (Decoder.nullable Decoder.text)
  return {
    id := id.getD 1
    name := name
    nodes := nodes.getD []
    graph := graph.getD .null
    simulateUntil := simulateUntil.join }

/-- The JSON form of a fixture. -/
def toJson (f : Fixture) : Json :=
  .object [
    ("id", f.id.toJson),
    ("name", .string f.name),
    ("nodes", .array (f.nodes.map NodeExport.toJson)),
    ("graph", f.graph),
    ("simulate_until", (f.simulateUntil.map Json.string).getD .null)]

/-- The node built from its exported form. -/
def buildNode (registry : Registry) (id : WorkflowId) (n : NodeExport) : Except NodeFault Node := do
  let type ← registry.require n.typeName
  let service ← type.build n.service
  return { id := n.id, workflow := id, typeName := type.name, label := n.label, service }

/-- The workflow with the listed nodes and no graph yet. A repeated id takes its last node. -/
def buildNodes (registry : Registry) (f : Fixture) : Except NodeFault Workflow :=
  f.nodes.foldlM (fun w n => (buildNode registry f.id n).map w.addNode)
    { id := f.id, name := f.name }

/-- Checks that a graph is a tree and has exactly the nodes of a workflow. -/
def checkGraph (w : Workflow) (g : Graph) : Except GraphFault Unit := do
  g.validate
  match g.ids.find? fun n => !w.nodes.contains n with
  | some missing => throw (.danglingReference missing)
  | none => pure ()
  match w.nodes.ids.find? fun n => !g.contains n with
  | some orphan => throw (.unreachable orphan)
  | none => pure ()

/-- Checks that the root of a graph is a trigger. -/
def checkRoot (registry : Registry) (w : Workflow) (g : Graph) : Except NodeFault Unit :=
  match g.root with
  | none => .ok ()
  | some r => do
    let root ← w.node r
    let type ← registry.require root.typeName
    if type.isTrigger then .ok () else .error .firstNodeMustBeTrigger

/-- Sets the simulation marker to the first node that shows a label. -/
def markLabel (w : Workflow) (label : String) : Except Failure Workflow :=
  match w.findByLabel? label with
  | none => .error (.configuration ("No node labeled '" ++ label ++ "'"))
  | some node => .ok { w with simulateUntil := some node.id }

/-- Builds the workflow of a fixture. -/
def build (registry : Registry) (f : Fixture) : Except Failure Workflow :=
  match f.buildNodes registry with
  | .error fault => .error fault
  | .ok w =>
    match Graph.ofBlob f.graph with
    | .error fault => .error fault
    | .ok g =>
      match checkGraph w g with
      | .error fault => .error fault
      | .ok () =>
        match checkRoot registry w g with
        | .error fault => .error fault
        | .ok () =>
          let w := { w with graph := g }
          match f.simulateUntil with
          | none => .ok w
          | some label => markLabel w label

/-- The warnings raised by building a fixture. -/
def warnings (registry : Registry) (f : Fixture) : List Warning :=
  match f.buildNodes registry with
  | .error _ => []
  | .ok _ => Graph.blobWarnings f.graph

end Fixture

end Autoflow
