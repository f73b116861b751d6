import Autoflow.Failure
import Autoflow.Graph.Basic

/-!
# Slots

A position names a slot. `Graph.nodeAt` looks into a slot, `Graph.position` finds the slot of
a node: the root is first, then the entries are searched in order, outputs before children,
and the entry of the node itself is left out.
-/

namespace Autoflow

namespace Entry

/-- The first output of an entry that leads to a node. -/
def outputTo? (e : Entry) (n : NodeId) : Option String :=
  (e.next.bind fun o => o.toList.find? fun p => p.2.contains n).map Prod.fst

/-- The slot of the entry of `owner` that holds a node. -/
def positionOf? (e : Entry) (owner n : NodeId) : Option Position :=
  match e.outputTo? n with
  | some output => some (.south owner output)
  | none => if e.childIds.contains n then some (.child owner) else none

/-- The slots of the entry of `owner` that hold a node: its outputs in order, then the
children. -/
def positions (e : Entry) (owner : NodeId) : List Position :=
  (e.next.elim [] fun o => (o.toList.filter fun p => !p.2.isEmpty).map fun p => .south owner p.1)
    ++ (if e.hasChildren then [.child owner] else [])

end Entry

namespace Graph

/-- The entry of a node that has to have one. -/
def require (g : Graph) (n : NodeId) : Except GraphFault Entry :=
  match g.find? n with
  | some e => .ok e
  | none => .error (.nodeNotFound n)

/-- The first node in a slot. -/
def nodeAt (g : Graph) (p : Position) : Except GraphFault (Option NodeId) :=
  match p.reference with
  | none =>
    match p.placement with
    | .south => .ok g.root
    | .child => .ok none
  | some reference => do
    let e ← g.require reference
    return (e.slot? p.placement p.output).bind List.head?

/-- The slot that holds a node. -/
def position (g : Graph) (n : NodeId) : Except GraphFault Position :=
  if g.root = some n then .ok .root
  else
    let found := g.entries.toList.findSome? fun p =>
      if p.1 = n then none else p.2.positionOf? p.1 n
    match found with
    | some p => .ok p
    | none => .error (.nodeNotFound n)

/-- The successors of a node, on one output if it is given. -/
def nextNodes (g : Graph) (n : NodeId) (output : Option String) :
    Except GraphFault (List NodeId) := do
  let e ← g.require n
  return match output with
    | some o => e.nextOn o
    | none => e.nextIds

/-- The nodes inside a node. -/
def children (g : Graph) (n : NodeId) : Except GraphFault (List NodeId) :=
  (g.require n).map Entry.childIds

end Graph

end Autoflow
