import Autoflow.Workflow.Fixture
import Autoflow.Yaml.Scalar

/-!
# Fixtures in YAML

`Fixture.ofYaml` reads a fixture from a YAML text. Where a text is asked for, any scalar will do;
an id has to be a plain integer. A record is a mapping in which no known field comes twice;
unknown fields are passed over. A record or a list may be left blank. A text that nests to more
than 128 levels is refused.
-/

namespace Autoflow

namespace Yaml.Tree

/-- The fields of a record by name. -/
def record? (names : List String) : Tree → Option (List (String × Tree))
  | mapping fields => do
    let named ← fields.mapM fun p => do return (← p.1.text?, p.2)
    let known := (Assoc.keys named).filter names.contains
    if known.Nodup then return named else none
  | t => if t.isBlank then some [] else none

/-- The items of a list. -/
def items? : Tree → Option (List Tree)
  | sequence items => some items
  | t => if t.isBlank then some [] else none

/-- An unsigned 64-bit integer. -/
def u64? : Tree → Option UInt64
  | scalar text true => (unsigned? text).map UInt64.ofNat
  | _ => none

/-- A text, or nothing for null. -/
def nullableText? : Tree → Option (Option String)
  | scalar text plain => some (if plain && isNull text then none else some text)
  | _ => none

/-- The levels that a text may open. -/
def maxDepth : Nat := 128

end Yaml.Tree

open Yaml (Tree)

/-- Reads an exported node, which opens a level inside those of the list and the record around
it. -/
def NodeExport.ofTree? (t : Tree) : Option NodeExport := do
  let fields ← t.record? (NodeExport.shape.fields.map Field.name)
  let id ← (← Assoc.find? "id" fields).u64?
  let typeName ← (← Assoc.find? "type" fields).text?
  let label ← (Assoc.find? "label" fields).mapM Tree.text?
  let service ← (Assoc.find? "service" fields).mapM (Tree.value? (Tree.maxDepth - 3))
  return ⟨⟨id⟩, typeName, label.getD "", service.getD .null⟩

namespace Fixture

/-- Reads a fixture from a tree. -/
def ofTree? (t : Tree) : Option Fixture := do
  let fields ← t.record? (shape.fields.map Field.name)
  let id ← (Assoc.find? "id" fields).mapM Tree.u64?
  let name ← (← Assoc.find? "name" fields).text?
  let nodes ← (Assoc.find? "nodes" fields).mapM fun t =>
    t.items?.bind (List.mapM NodeExport.ofTree?)
  let graph ← (Assoc.find? "graph" fields).mapM (Tree.value? (Tree.maxDepth - 1))
  let simulateUntil ← (Assoc.find? "simulate_until" fields).mapM Tree.nullableText?
  return {
    id := (id.map WorkflowId.mk).getD 1
    name := name
    nodes := nodes.getD []
    graph := graph.getD .null
    simulateUntil := simulateUntil.join }

/-- Reads a fixture from a YAML text. -/
def ofYaml (text : String) : Except Failure Fixture :=
  match (Tree.parse? text).bind ofTree? with
  | some f => .ok f
  | none => .error .yaml

end Fixture

end Autoflow
