import Autoflow.Failure
import Autoflow.Graph.Basic
import Autoflow.Graph.Blob
import Autoflow.Table.Count

/-!
# Graphs with labels in the place of ids

The labeled form of a graph has the shape of its blob and does not depend on the choice of
ids. Two nodes never get the same label: a node whose label is taken by another one gets a
hyphen behind it, as often as it takes, and keeps its label from then on.
-/

namespace Autoflow

/-- Where labels come from. -/
structure LabelSource where
  node : NodeId → Option String
  output : NodeId → String → Option String

/-- The labels given so far, and the warnings raised. -/
structure Captions where
  used : List (String × NodeId) := []
  warnings : List Warning := []

namespace Captions

/-- The labels in use that are at least as long as a text. -/
def blockers (used : List (String × NodeId)) (label : String) : Nat :=
  used.countP fun p => decide (label.length ≤ p.1.length)

theorem blockers_push_lt {used : List (String × NodeId)} {label : String} {n : NodeId}
    (h : Assoc.find? label used = some n) : blockers used (label.push '-') < blockers used label :=
  Autoflow.List.countP_lt_countP (Assoc.mem_of_find? h)
    (fun p hp => by simp only [decide_eq_true_eq, String.length_push] at hp ⊢; omega)
    (by simp) (by simp)

/-- The first of a label, the label with one hyphen, with two and so on that no other node
has. -/
def freeLabel (used : List (String × NodeId)) (n : NodeId) (label : String) : String :=
  match _h : Assoc.find? label used with
  | none => label
  | some m => if m = n then label else freeLabel used n (label.push '-')
termination_by blockers used label
decreasing_by exact blockers_push_lt _h

/-- A step of labeling, which may fail. -/
abbrev Labeling (α : Type) := EStateM GraphFault Captions α

/-- The label of a node. -/
def label (source : LabelSource) (n : NodeId) : Labeling String := fun s =>
  match source.node n with
  | none => .error (.danglingReference n) s
  | some own =>
    let label := freeLabel s.used n own
    .ok label { s with used := Assoc.put label n s.used }

/-- The labels of several nodes. -/
def labels (source : LabelSource) (ids : List NodeId) : Labeling Json := do
  return .array ((← ids.mapM (label source)).map .string)

/-- The label of an output, or else its own name and a warning. -/
def outputLabel (source : LabelSource) (n : NodeId) (output : String) : Labeling String := fun s =>
  match source.output n output with
  | some label => .ok label s
  | none => .ok output { s with warnings := s.warnings ++ [.unlabeledOutput output n] }

/-- The labeled outputs of a node. -/
def outputs (source : LabelSource) (n : NodeId) (o : Outputs) : Labeling Json := do
  return .ofPairs (← o.toList.mapM fun p => do
    let key ← outputLabel source n p.1
    return (key, ← labels source p.2))

/-- The labeled entry of a node, the children first. -/
def entry (source : LabelSource) (n : NodeId) (e : Entry) : Labeling (String × Json) := do
  let key ← label source n
  let children ← e.children.mapM (labels source)
  let next ← e.next.mapM (outputs source n)
  let fields := (children.map ("children", ·)).toList ++ (next.map ("next", ·)).toList
  return (key, .object fields)

/-- The labeled form of a graph. -/
def graph (source : LabelSource) (g : Graph) : Labeling Json := do
  let root ← g.root.mapM (label source)
  let entries ← g.entries.toList.mapM fun p => entry source p.1 p.2
  return .ofPairs ((root.map fun l => (Graph.rootKey, Json.string l)).toList ++ entries)

end Captions

namespace Graph

/-- The graph with labels in the place of ids and outputs. -/
def labeled (g : Graph) (source : LabelSource) : Except GraphFault Json :=
  match Captions.graph source g {} with
  | .ok v _ => .ok v
  | .error fault _ => .error fault

/-- The warnings raised by labeling a graph. -/
def labelWarnings (g : Graph) (source : LabelSource) : List Warning :=
  match Captions.graph source g {} with
  | .ok _ s => s.warnings
  | .error _ s => s.warnings

end Graph

end Autoflow
