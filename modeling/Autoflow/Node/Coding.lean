import Autoflow.Json.Decode
import Autoflow.Node.Position

/-!
# Ids and positions in JSON

Ids are written as numbers, placements as words and positions as objects of all three fields.
A position may leave out everything, and then it is the root.
-/

namespace Autoflow

/-- The JSON form of an id. -/
def NodeId.toJson (n : NodeId) : Json := .ofNat n.toNat

/-- Reads an id. -/
def NodeId.decode : Decoder NodeId := fun v => (Decoder.u64 v).map NodeId.mk

/-- The JSON form of the id of a workflow. -/
def WorkflowId.toJson (w : WorkflowId) : Json := .ofNat w.toNat

/-- Reads the id of a workflow. -/
def WorkflowId.decode : Decoder WorkflowId := fun v => (Decoder.u64 v).map WorkflowId.mk

/-- Reads a placement. -/
def Placement.decode : Decoder Placement := Decoder.variant Placement.names Placement.ofName?

namespace Position

/-- The fields of a position. -/
def shape : Shape where
  name := "Position"
  fields := [
    .placed "reference" (Decoder.nullable NodeId.decode),
    .defaulted "placement" Placement.decode,
    .defaulted "output" Decoder.text]

/-- Reads a position. -/
def decode : Decoder Position := fun v => do
  let fields ← shape.read v
  let reference ← Decoder.optional fields "reference" (Decoder.nullable NodeId.decode)
  let placement ← Decoder.optional fields "placement" Placement.decode
  let output ← Decoder.optional fields "output" Decoder.text
  return ⟨reference.join, placement.getD .south, output.getD ""⟩

/-- The JSON form of a position. -/
def toJson (p : Position) : Json :=
  .object [
    ("reference", (p.reference.map NodeId.toJson).getD .null),
    ("placement", .string p.placement.name),
    ("output", .string p.output)]

end Position

end Autoflow
