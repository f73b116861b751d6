import Autoflow.Graph.Slots

/-!
# Edits of a graph

Each edit works on a graph in place and may fail; what it leaves behind when it fails is part
of its meaning. `insert` puts a node into a slot, and what was there follows it on its default
output. `remove` takes a node out and lets its successors close the gap. `replace` puts a node
in the place of another one, and `move` takes a node with its children to another slot.
-/

namespace Autoflow.Graph

/-- An edit of a graph that may fail. -/
abbrev Edit (α : Type) := EStateM GraphFault Graph α

/-- Changes the entry of a node. -/
def modifyEntry (g : Graph) (n : NodeId) (f : Entry → Entry) : Graph :=
  { g with entries := g.entries.modify n f }

/-- Gives a node an empty entry right behind `anchor`, or in front without one. A node that has
an entry keeps it. -/
def ensureEntry (g : Graph) (n : NodeId) (anchor : Option NodeId) : Graph :=
  { g with entries := g.entries.insertAfter anchor n {} }

/-- The successors of a node that took the slot of `displaced`. -/
def behind (displaced : List NodeId) : Option Outputs :=
  if displaced.isEmpty then none else some (.single "" displaced)

/-- Makes a node the root. It keeps its successors unless it displaces another root. -/
def placeAtRoot (g : Graph) (n : NodeId) : Graph :=
  let placed := { g with root := some n }.ensureEntry n none
  match g.root with
  | some previous =>
    if previous = n then placed
    else placed.modifyEntry n fun e => { e with next := behind [previous] }
  | none => placed

/-- Puts a node into a slot of a reference. -/
def placeAt (g : Graph) (n reference : NodeId) (placement : Placement) (output : String) : Graph :=
  let displaced := ((g.find? reference).bind (·.slot? placement output)).getD []
  ((g.modifyEntry reference (·.setSlot placement output [n])).ensureEntry n reference).modifyEntry n
    fun e => { e with next := behind displaced }

/-- Inserts a node into a slot. -/
def insert (n : NodeId) (p : Position) : Edit Unit := fun g =>
  match p.reference with
  | none => .ok () (g.placeAtRoot n)
  | some reference =>
    if g.contains reference then .ok () (g.placeAt n reference p.placement p.output)
    else .error (.nodeNotFound reference) g

/-- A list with the first occurrence of an item replaced by several. -/
def splice (item : NodeId) (replacement : List NodeId) : List NodeId → List NodeId
  | [] => []
  | n :: rest => if n = item then replacement ++ rest else n :: splice item replacement rest

/-- Puts a list in the place of a node in a slot. A slot that gets empty is taken out. -/
def spliceSlot (e : Entry) (placement : Placement) (output : String) (n : NodeId)
    (replacement : List NodeId) : Entry :=
  match e.slot? placement output with
  | none => e
  | some ids =>
    let ids := splice n replacement ids
    if ids.isEmpty then e.dropSlot placement output else e.setSlot placement output ids

/-- Lets a list of nodes take the slot of a node. -/
def bypass (g : Graph) (n : NodeId) (p : Position) (successors : List NodeId) : Graph :=
  match p.reference with
  | none => { g with root := successors.head? }
  | some reference =>
    g.modifyEntry reference fun e => spliceSlot e p.placement p.output n successors

/-- The reference of a position, if it has no entry. -/
def missing? (g : Graph) (p : Position) : Option NodeId :=
  p.reference.filter fun reference => !g.contains reference

/-- Takes a node out of its slot. Its successors take the slot, and so do its children unless
`keepInfo` is set; then the node keeps its entry. A node without an entry is gone already. -/
def remove (n : NodeId) (keepInfo : Bool) : Edit Unit := fun g =>
  match g.find? n with
  | none => .ok () g
  | some e =>
    match g.position n with
    | .error fault => .error fault g
    | .ok p =>
      match g.missing? p with
      | some reference => .error (.nodeNotFound reference) g
      | none =>
        let successors := if keepInfo then e.nextIds else e.successors
        let g := g.bypass n p successors
        .ok () (if keepInfo then g else { g with entries := g.entries.erase n })

/-- Gives the entry of a node to another one, at the end of the entries or in the place of the
entry that this one had. -/
def handOver (g : Graph) (old new : NodeId) (e : Entry) : Graph :=
  { g with entries := (g.entries.erase old).insert new e }

/-- Puts a node in the slot of another one and gives it that one's entry. The owner of the slot is
looked up before the entry is handed over and once more behind that. -/
def replace (old new : NodeId) : Edit Unit := fun g =>
  match g.position old with
  | .error fault => .error fault g
  | .ok p =>
    match g.find? old with
    | none => .error (.nodeNotFound old) g
    | some e =>
      match g.missing? p with
      | some reference => .error (.nodeNotFound reference) g
      | none =>
        let g := g.handOver old new e
        match g.missing? p with
        | some reference => .error (.nodeNotFound reference) g
        | none =>
          match p.reference with
          | none => .ok () { g with root := some new }
          | some reference =>
            .ok () (g.modifyEntry reference fun e =>
              match e.slot? p.placement p.output with
              | some ids => e.setSlot p.placement p.output (splice old [new] ids)
              | none => e)

/-- Moves a node to another slot. Its successors stay behind, its children go along. -/
def move (n : NodeId) (p : Position) : Edit Unit := do
  let g ← get
  match p.reference with
  | some reference => if !g.contains reference then throw (.nodeNotFound reference)
  | none => pure ()
  match g.position n with
  | .error fault => throw fault
  | .ok _ => pure ()
  remove n true
  insert n p

end Autoflow.Graph
