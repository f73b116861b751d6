import Autoflow.Run.Context

/-!
# Services and nodes

A service is what a node does when it is dispatched: the outputs it exposes, the
configuration it exports and its answer to a dispatch, which may depend on the node and on
everything the context shows.
-/

namespace Autoflow

/-- What there is to say about a node besides its service. -/
structure NodeInfo where
  id : NodeId
  workflow : WorkflowId
  /-- The name of the node's type. -/
  typeName : String
  label : String := ""
deriving DecidableEq

/-- The label of a node, or the name of its type if it has none. -/
def NodeInfo.displayLabel (i : NodeInfo) : String :=
  if i.label.isEmpty then i.typeName else i.label

/-- What a node does when it is dispatched. -/
structure Service where
  edges : List Edge
  /-- The configuration in the form in which it is exported. -/
  config : Json
  dispatch : NodeInfo → Context → Except ServiceFault NodeResult

namespace Service

/-- Whether the service exposes an output. -/
def hasOutput (s : Service) (uid : String) : Bool := s.edges.any (·.uid == uid)

/-- The label of an output. -/
def edgeLabel? (s : Service) (uid : String) : Option String :=
  (s.edges.find? (·.uid == uid)).map Edge.label

end Service

/-- A node of a workflow. -/
structure Node extends NodeInfo where
  service : Service

/-- A node in the form in which it is exported. -/
structure NodeExport where
  id : NodeId
  typeName : String
  label : String := ""
  service : Json := .null
deriving DecidableEq

namespace Node

/-- The exported form of a node. -/
def toExport (n : Node) : NodeExport := ⟨n.id, n.typeName, n.label, n.service.config⟩

/-- Whether a node exposes an output. -/
def hasOutput (n : Node) (uid : String) : Bool := n.service.hasOutput uid

end Node

/-- The values of a node that can be edited. A missing one stays as it is. -/
structure NodeValues where
  label : Option String := none
  service : Option Json := none
deriving DecidableEq

/-- Every value of a node. -/
def NodeValues.ofNode (n : Node) : NodeValues := ⟨some n.label, some n.service.config⟩

end Autoflow
