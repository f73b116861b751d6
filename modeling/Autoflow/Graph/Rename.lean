import Autoflow.Failure
import Autoflow.Graph.Basic

/-!
# Renaming the nodes and outputs of a graph

A renaming gives new names to ids and outputs; the default output always stays what it is.
Renaming a graph keeps its order and fails on the first id or output without a new name.
-/

namespace Autoflow

/-- New names for node ids and outputs. -/
structure Renaming where
  nodes : OrderedMap NodeId NodeId := .empty
  outputs : OrderedMap String String := .empty

namespace Renaming

/-- The new id of a node. -/
def node (r : Renaming) (n : NodeId) : Except GraphFault NodeId :=
  match r.nodes.get? n with
  | some m => .ok m
  | none => .error (.missingMapping .node (toString n))

/-- The new name of an output. -/
def output (r : Renaming) (o : String) : Except GraphFault String :=
  if o.isEmpty then .ok ""
  else
    match r.outputs.get? o with
    | some p => .ok p
    | none => .error (.missingMapping .output o)

/-- The new successor lists of a node. -/
def outputsOf (r : Renaming) (outputs : Outputs) : Except GraphFault Outputs :=
  outputs.toList.foldlM (fun acc p => do
    let ids ← p.2.mapM r.node
    return acc.insert (← r.output p.1) ids) .empty

/-- The new entry of a node. -/
def entry (r : Renaming) (e : Entry) : Except GraphFault Entry := do
  let next ← e.next.mapM r.outputsOf
  let children ← e.children.mapM (·.mapM r.node)
  return { next, children }

end Renaming

/-- A graph with the new name in the place of every id and output. -/
def Graph.rename (g : Graph) (r : Renaming) : Except GraphFault Graph := do
  let root ← g.root.mapM r.node
  let entries ← g.entries.toList.foldlM (fun acc p => do
    let e ← r.entry p.2
    return acc.insert (← r.node p.1) e) .empty
  return { root, entries }

end Autoflow
