import Autoflow.Failure
import Autoflow.Service.Basic

/-!
# Scripted services

A scripted service answers with the data of its configuration, or with the event payload if
none is configured, and takes the configured output. It can be made to fail instead.
-/

namespace Autoflow

/-- The configuration of a scripted service. -/
structure Script where
  /-- The data of the answer. Null stands for the event payload. -/
  data : Json := .null
  /-- The output to take. -/
  output : String := ""
  /-- The outputs besides the default one. -/
  edges : List Edge := []
  /-- The label of the default output. -/
  defaultLabel : String := ""
  /-- Refuse every dispatch as misconfigured, for this reason. -/
  misconfigured : Option String := none
  /-- Fail every dispatch, for this reason. -/
  error : Option String := none
deriving DecidableEq

namespace Script

/-- The fields of the configuration. -/
def shape : Shape where
  name := "ScriptedConfig"
  fields := [
    .defaulted "data" Decoder.any,
    .defaulted "output" Decoder.text,
    .defaulted "edges" (Decoder.list Edge.decode),
    .defaulted "default_label" Decoder.text,
    .defaulted "misconfigured" (Decoder.nullable Decoder.text),
    .defaulted "error" (Decoder.nullable Decoder.text)]

/-- Reads a configuration. -/
def decode : Decoder Script := fun v => do
  let fields ← shape.read v
  let data ← Decoder.optional fields "data" Decoder.any
  let output ← Decoder.optional fields "output" Decoder.text
  let edges ← Decoder.optional fields "edges" (Decoder.list Edge.decode)
  let defaultLabel ← Decoder.optional fields "default_label" Decoder.text
  let misconfigured ← Decoder.optional fields "misconfigured" (Decoder.nullable Decoder.text)
  let error ← Decoder.optional fields "error" (Decoder.nullable Decoder.text)
  return {
    data := data.getD .null
    output := output.getD ""
    edges := edges.getD []
    defaultLabel := defaultLabel.getD ""
    misconfigured := misconfigured.join
    error := error.join }

/-- The JSON form of the configuration. What is empty is left out, but for data and output. -/
def toJson (s : Script) : Json :=
  let edges := if s.edges.isEmpty then [] else [("edges", Json.array (s.edges.map Edge.toJson))]
  let label :=
    if s.defaultLabel.isEmpty then [] else [("default_label", Json.string s.defaultLabel)]
  .object ([("data", s.data), ("output", .string s.output)] ++ edges ++ label
    ++ (s.misconfigured.map fun m => ("misconfigured", Json.string m)).toList
    ++ (s.error.map fun m => ("error", Json.string m)).toList)

/-- The configuration given by a value, null for the default one. -/
def ofJson (v : Json) : Except NodeFault Script :=
  match v with
  | .null => .ok {}
  | v =>
    match decode v with
    | .ok s => .ok s
    | .error e => .error (.misconfiguredService ("Invalid service: " ++ e.message))

/-- The outputs, the default one first. -/
def allEdges (s : Script) : List Edge := ⟨"", s.defaultLabel⟩ :: s.edges

/-- The answer to a dispatch. -/
def answer (s : Script) (c : Context) : Except ServiceFault NodeResult :=
  match s.misconfigured, s.error with
  | some reason, _ => .error (.improperlyConfigured reason)
  | none, some reason => .error (.failed reason)
  | none, none =>
    let data := match s.data with
      | .null => c.event
      | data => data
    .ok { data, output := s.output }

/-- The service with this configuration. -/
def service (s : Script) : Service where
  edges := s.allEdges
  config := s.toJson
  dispatch _ c := s.answer c

end Script

end Autoflow
