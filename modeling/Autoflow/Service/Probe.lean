import Autoflow.Node.Coding
import Autoflow.Service.Basic
import Autoflow.Text.Upper

/-!
# Probes

A probe is a service that answers with what it sees of the run: which results are visible,
where a container stands and whether the run is a simulation. Its configuration is free and
kept as it is.
-/

namespace Autoflow

namespace Probe

/-- The outputs: the default one and one for each name under `edges`. -/
def edges (config : Json) : List Edge :=
  let names := ((config.field? "edges").bind Json.items?).getD []
  ⟨"", ""⟩ :: names.filterMap fun v =>
    match v with
    | .string u => some ⟨u, Text.upper u⟩
    | _ => none

/-- The container that the probe watches. -/
def container (config : Json) : NodeId :=
  (((config.field? "container").bind Json.unsigned?).bind NodeId.ofNat?).getD 0

/-- The watched nodes that have a visible result. -/
def seen (config : Json) (c : Context) : List NodeId :=
  let ids := ((config.field? "ids").bind Json.items?).getD []
  (ids.filterMap fun v => v.unsigned?.bind NodeId.ofNat?).filter fun n => (c.result? n).isSome

/-- The data of the answer. -/
def data (config : Json) (node : NodeInfo) (c : Context) : Json :=
  let item := (c.item? (container config)).getD .null
  let results :=
    if config.field? "spread" = some (.bool true) then item
    else (config.field? "results").getD .null
  .object [
    ("me", .string node.displayLabel),
    ("seen", .array ((seen config c).map NodeId.toJson)),
    ("index", ((c.iteration? (container config)).map Json.ofNat).getD .null),
    ("item", item),
    ("simulation", .bool c.isSimulation),
    ("results", results)]

/-- The output that the probe takes. -/
def output (config : Json) : String :=
  match config.field? "output" with
  | some (.string s) => s
  | _ => ""

/-- The probe with a configuration. -/
def service (config : Json) : Service where
  edges := edges config
  config := config
  dispatch node c := .ok { data := data config node c, output := output config }

end Probe

end Autoflow
