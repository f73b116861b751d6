import Autoflow.Node.Id

/-!
# Positions

A position names a slot of a workflow graph: the root, an output of a node (south of it)
or the children of a container. The empty output is the default one.
-/

namespace Autoflow

/-- The side of the reference node on which a slot lies. -/
inductive Placement where
  /-- Behind the reference, on one of its outputs. -/
  | south
  /-- Inside the reference. -/
  | child
deriving DecidableEq, Inhabited

namespace Placement

/-- The word for a placement. -/
def name : Placement → String
  | south => "south"
  | child => "child"

/-- The words for the placements. -/
def names : List String := ["south", "child"]

/-- The placement of a word. -/
def ofName? : String → Option Placement
  | "south" => some south
  | "child" => some child
  | _ => none

end Placement

/-- A slot of a graph. Without a reference it is the root. -/
structure Position where
  reference : Option NodeId
  placement : Placement := .south
  output : String := ""
deriving DecidableEq, Inhabited

namespace Position

/-- The slot of the first node. -/
def root : Position := ⟨none, .south, ""⟩

/-- The slot behind a node on one of its outputs. -/
def south (reference : NodeId) (output : String) : Position := ⟨some reference, .south, output⟩

/-- The slot inside a container. -/
def child (reference : NodeId) : Position := ⟨some reference, .child, ""⟩

/-- Whether the position is the root. -/
def isRoot (p : Position) : Bool := p.reference.isNone

/-- The position in words. -/
def describe (p : Position) : String :=
  match p.reference with
  | none => "root"
  | some reference =>
    let place := p.placement.name ++ " of " ++ toString reference
    if p.output.isEmpty then place else place ++ " on '" ++ p.output ++ "'"

end Position

end Autoflow
