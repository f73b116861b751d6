import Autoflow.Json.Decode

/-!
# Outputs and results of services

A service exposes outputs, of which the default one has the empty uid, and answers a dispatch
with data, the output to take and a status.
-/

namespace Autoflow

/-- An output of a service. -/
structure Edge where
  uid : String
  label : String := ""
deriving DecidableEq, Inhabited

namespace Edge

/-- The fields of an edge. -/
def shape : Shape where
  name := "Edge"
  fields := [.required "uid" Decoder.text, .defaulted "label" Decoder.text]

/-- Reads an edge. -/
def decode : Decoder Edge := fun v => do
  let fields ← shape.read v
  let uid ← Decoder.required fields "uid" Decoder.text
  let label ← Decoder.optional fields "label" Decoder.text
  return ⟨uid, label.getD ""⟩

/-- The JSON form of an edge. -/
def toJson (e : Edge) : Json := .object [("uid", .string e.uid), ("label", .string e.label)]

end Edge

/-- What a service hands back for a dispatched node. -/
structure NodeResult where
  data : Json
  /-- The output to take, empty for the default one. -/
  output : String := ""
  status : UInt16 := 200
deriving DecidableEq, Inhabited

namespace NodeResult

/-- The fields of a result. -/
def shape : Shape where
  name := "DispatchResult"
  fields := [
    .required "data" Decoder.any,
    .defaulted "output_uid" Decoder.text,
    .defaulted "status" Decoder.u16]

/-- Reads a result. -/
def decode : Decoder NodeResult := fun v => do
  let fields ← shape.read v
  let data ← Decoder.required fields "data" Decoder.any
  let output ← Decoder.optional fields "output_uid" Decoder.text
  let status ← Decoder.optional fields "status" Decoder.u16
  return ⟨data, output.getD "", status.getD 200⟩

/-- The JSON form of a result. -/
def toJson (r : NodeResult) : Json :=
  .object [
    ("data", r.data),
    ("output_uid", .string r.output),
    ("status", .ofNat r.status.toNat)]

/-- The items a container iterates on: the list under `results` in the data. -/
def items? (r : NodeResult) : Option (List Json) := (r.data.field? "results").bind Json.items?

/-- The number of iterations of a container with this result. -/
def iterationCount? (r : NodeResult) : Option Nat := r.items?.map List.length

end NodeResult

/-- Why a service does not answer. -/
inductive ServiceFault where
  /-- The configuration is incomplete or invalid. -/
  | improperlyConfigured (reason : String)
  | failed (reason : String)
deriving DecidableEq

end Autoflow
