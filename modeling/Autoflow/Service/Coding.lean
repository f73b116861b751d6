import Autoflow.Node.Coding
import Autoflow.Service.Basic

/-!
# Exported nodes and node values in JSON
-/

namespace Autoflow

namespace NodeExport

/-- The fields of an exported node. -/
def shape : Shape where
  name := "NodeExport"
  fields := [
    .required "id" NodeId.decode,
    .required "type" Decoder.text,
    .defaulted "label" Decoder.text,
    .defaulted "service" Decoder.any]

/-- Reads an exported node. -/
def decode : Decoder NodeExport := fun v => do
  let fields ← shape.read v
  let id ← Decoder.required fields "id" NodeId.decode
  let typeName ← Decoder.required fields "type" Decoder.text
  let label ← Decoder.optional fields "label" Decoder.text
  let service ← Decoder.optional fields "service" Decoder.any
  return ⟨id, typeName, label.getD "", service.getD .null⟩

/-- The JSON form of an exported node. -/
def toJson (n : NodeExport) : Json :=
  .object [
    ("id", n.id.toJson),
    ("type", .string n.typeName),
    ("label", .string n.label),
    ("service", n.service)]

end NodeExport

namespace NodeValues

/-- The fields of the values of a node. -/
def shape : Shape where
  name := "NodeValues"
  fields := [
    .defaulted "label" (Decoder.nullable Decoder.text),
    .defaulted "service" (Decoder.nullable Decoder.any)]

/-- Reads the values of a node. -/
def decode : Decoder NodeValues := fun v => do
  let fields ← shape.read v
  let label ← Decoder.optional fields "label" (Decoder.nullable Decoder.text)
  let service ← Decoder.optional fields "service" (Decoder.nullable Decoder.any)
  return ⟨label.join, service.join⟩

/-- The JSON form of the values of a node. Missing ones are left out. -/
def toJson (v : NodeValues) : Json :=
  .object ((v.label.map fun l => ("label", Json.string l)).toList
    ++ (v.service.map fun s => ("service", s)).toList)

end NodeValues

end Autoflow
