import Autoflow.Node.Position
import Autoflow.Table.Ordered

/-!
# Workflow graphs

A graph is a root pointer and one entry per node. An entry lists the successors of the node by
output and the nodes inside it; a missing list and an empty one are kept apart. Entries and
outputs keep the order in which they came in.
-/

namespace Autoflow

/-- Successor lists by output, in insertion order. -/
abbrev Outputs := OrderedMap String (List NodeId)

/-- All successors, output by output. -/
def Outputs.allIds (o : Outputs) : List NodeId := o.toList.flatMap Prod.snd

/-- Adds a successor to an output that is there. -/
def Outputs.push (o : Outputs) (output : String) (node : NodeId) : Outputs :=
  o.modify output (· ++ [node])

/-- What a graph stores about a node. -/
structure Entry where
  /-- The successors by output. -/
  next : Option Outputs := none
  /-- The nodes inside, for a container. -/
  children : Option (List NodeId) := none
deriving DecidableEq

namespace Entry

instance : Inhabited Entry := ⟨{}⟩

/-- The successors on all outputs, in order. -/
def nextIds (e : Entry) : List NodeId := e.next.elim [] Outputs.allIds

/-- The nodes inside. -/
def childIds (e : Entry) : List NodeId := e.children.getD []

/-- The successors and then the nodes inside. -/
def successors (e : Entry) : List NodeId := e.nextIds ++ e.childIds

/-- The successors on one output. -/
def nextOn (e : Entry) (output : String) : List NodeId :=
  (e.next.bind (·.get? output)).getD []

/-- The first successor on the default output. -/
def defaultSuccessor (e : Entry) : Option NodeId := (e.nextOn "").head?

/-- Whether there are nodes inside. -/
def hasChildren (e : Entry) : Bool := !e.childIds.isEmpty

/-- The list held by a slot of the node, if it is there. -/
def slot? (e : Entry) (placement : Placement) (output : String) : Option (List NodeId) :=
  match placement with
  | .south => e.next.bind (·.get? output)
  | .child => e.children

/-- Stores the list of a slot. -/
def setSlot (e : Entry) (placement : Placement) (output : String) (ids : List NodeId) : Entry :=
  match placement with
  | .south => { e with next := some ((e.next.getD .empty).insert output ids) }
  | .child => { e with children := some ids }

/-- Takes a slot out, and with the last output the list of outputs. -/
def dropSlot (e : Entry) (placement : Placement) (output : String) : Entry :=
  match placement with
  | .south =>
    let rest := (e.next.getD .empty).erase output
    { e with next := if rest.isEmpty then none else some rest }
  | .child => { e with children := none }

end Entry

/-- A workflow graph. -/
structure Graph where
  /-- The first node. -/
  root : Option NodeId := none
  /-- The entries, in insertion order. -/
  entries : OrderedMap NodeId Entry := .empty
deriving DecidableEq

namespace Graph

/-- The graph without nodes. -/
def empty : Graph := {}

instance : Inhabited Graph := ⟨empty⟩

/-- Whether there is neither a root nor an entry. -/
def isEmpty (g : Graph) : Bool := g.root.isNone && g.entries.isEmpty

/-- The nodes that have an entry, in order. -/
def ids (g : Graph) : List NodeId := g.entries.keys

/-- Whether a node has an entry. -/
def contains (g : Graph) (n : NodeId) : Bool := g.entries.contains n

/-- The entry of a node. -/
def find? (g : Graph) (n : NodeId) : Option Entry := g.entries.get? n

/-- Whether two graphs have the same root and the same entries, in any order. -/
def sameAs (g h : Graph) : Bool :=
  g.root == h.root && g.entries.size == h.entries.size
    && g.entries.toList.all fun p => h.find? p.1 == some p.2

theorem contains_iff {g : Graph} {n : NodeId} : g.contains n = true ↔ n ∈ g.ids :=
  OrderedMap.contains_iff

theorem mem_ids_of_find? {g : Graph} {n : NodeId} {e : Entry} (h : g.find? n = some e) :
    n ∈ g.ids :=
  contains_iff.1 (by unfold find? at h; simp [contains, OrderedMap.contains, h])

end Graph

end Autoflow
