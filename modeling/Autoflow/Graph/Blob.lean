import Autoflow.Failure
import Autoflow.Graph.Basic
import Autoflow.Graph.Warning
import Autoflow.Node.Coding

/-!
# The stored form of a graph

A blob is a flat object: the key `0` holds the id of the root, every other key is a node id
and holds the entry of that node, an object of the outputs under `next` and of the list under
`children`. A missing list and an empty one are kept apart. Null stands for the empty graph.
Keys of an entry that mean nothing are passed over with a warning.
-/

namespace Autoflow

/-- The key of the root in a blob. -/
def Graph.rootKey : String := "0"

/-- The id written by a key: an optional plus sign and decimal digits. -/
def NodeId.ofKey? (key : String) : Option NodeId :=
  let digits := match key.toList with
    | '+' :: rest => rest
    | all => all
  if !digits.isEmpty && digits.all Char.isDigit then
    NodeId.ofNat? (digits.foldl (fun n c => n * 10 + Json.digitValue c) 0)
  else none

/-- The JSON form of a list of ids. -/
def NodeId.listToJson (ids : List NodeId) : Json := .array (ids.map NodeId.toJson)

/-- Reads an id. -/
def NodeId.ofBlob (v : Json) : Except GraphFault NodeId :=
  match v.unsigned?.bind NodeId.ofNat? with
  | some n => .ok n
  | none => .error (.invalidBlob ("invalid node id " ++ v.compact))

/-- Reads a list of ids. -/
def NodeId.listOfBlob (v : Json) : Except GraphFault (List NodeId) :=
  match v with
  | .array items => items.mapM NodeId.ofBlob
  | _ => .error (.invalidBlob ("expected a list of ids, got " ++ v.compact))

namespace Entry

/-- The JSON form of an entry. -/
def toJson (e : Entry) : Json :=
  let next := e.next.map fun o =>
    ("next", Json.object (o.toList.map fun p => (p.1, NodeId.listToJson p.2)))
  let children := e.children.map fun ids => ("children", NodeId.listToJson ids)
  .object (next.toList ++ children.toList)

/-- Reads the outputs of a node. -/
def outputsOfBlob (n : NodeId) (v : Json) : Except GraphFault Outputs :=
  match v with
  | .object fields => fields.foldlM (fun acc p => do
      return acc.insert p.1 (← NodeId.listOfBlob p.2)) .empty
  | _ => .error (.invalidBlob ("'next' of node " ++ toString n ++ " is not an object"))

/-- Reads one field of the entry of a node. -/
def readField (n : NodeId) (e : Entry) (p : String × Json) : Except GraphFault Entry :=
  if p.1 = "next" then (outputsOfBlob n p.2).map fun o => { e with next := some o }
  else if p.1 = "children" then
    (NodeId.listOfBlob p.2).map fun ids => { e with children := some ids }
  else .ok e

/-- Reads the entry of a node. -/
def ofBlob (n : NodeId) (v : Json) : Except GraphFault Entry :=
  match v with
  | .object fields => fields.foldlM (readField n) {}
  | _ => .error (.invalidBlob ("entry of node " ++ toString n ++ " is not an object"))

/-- The keys of an entry that mean nothing, up to the first fault. -/
def unknownKeys (n : NodeId) (v : Json) : List Warning :=
  match v with
  | .object fields =>
    let read := fields.takeWhile fun p => (readField n {} p).toOption.isSome
    (read.filter fun p => p.1 != "next" && p.1 != "children").map fun p => .unknownKey p.1 n
  | _ => []

end Entry

namespace Graph

/-- The stored form of a graph, the root first. An entry for the id 0 has the key of the root
and takes its place. -/
def toBlob (g : Graph) : Json :=
  let root := g.root.map fun r => (rootKey, r.toJson)
  let entries := g.entries.toList.map fun p => (toString p.1, p.2.toJson)
  .ofPairs (root.toList ++ entries)

/-- Reads one field of a blob into a graph. -/
def readField (g : Graph) (p : String × Json) : Except GraphFault Graph :=
  if p.1 = rootKey then
    match p.2 with
    | .null => .ok { g with root := none }
    | v => (NodeId.ofBlob v).map fun r => { g with root := some r }
  else
    match NodeId.ofKey? p.1 with
    | some n => (Entry.ofBlob n p.2).map fun e => { g with entries := g.entries.insert n e }
    | none => .error (.invalidBlob ("invalid node key '" ++ p.1 ++ "'"))

/-- Reads a blob. -/
def ofBlob (blob : Json) : Except GraphFault Graph :=
  match blob with
  | .null => .ok .empty
  | .object fields => fields.foldlM readField .empty
  | _ => .error (.invalidBlob "expected an object")

/-- The warnings raised by the fields of a blob, up to the first fault. -/
def warningsOfFields : List (String × Json) → List Warning
  | [] => []
  | p :: rest =>
    let own := match NodeId.ofKey? p.1 with
      | some n => if p.1 = rootKey then [] else Entry.unknownKeys n p.2
      | none => []
    match readField .empty p with
    | .ok _ => own ++ warningsOfFields rest
    | .error _ => own

/-- The warnings raised by reading a blob. -/
def blobWarnings (blob : Json) : List Warning :=
  match blob with
  | .object fields => warningsOfFields fields
  | _ => []

/-- Reads a blob as part of a larger value. -/
def decode : Decoder Graph := fun v =>
  match ofBlob v with
  | .ok g => .ok g
  | .error fault => .error (.custom fault.message)

end Graph

end Autoflow
