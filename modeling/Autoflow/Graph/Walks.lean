import Autoflow.Graph.Slots
import Autoflow.Table.Count

/-!
# Walks through a graph

`Graph.lastPosition` follows the default outputs from the root, `Graph.descendants` collects
what lies inside a node, `Graph.previousPositions` looks for a path of slots from the root to
a node, and `Graph.validate` checks that the graph is a single tree. None of them supposes a
tree: each remembers the nodes it has met, and the number of entries not met yet goes down.
-/

namespace Autoflow.Graph

/-- The number of entries of nodes that a walk has not met. -/
def unseen (g : Graph) (seen : List NodeId) : Nat := g.ids.countP fun n => !seen.contains n

theorem unseen_cons_le (g : Graph) (n : NodeId) (seen : List NodeId) :
    g.unseen (n :: seen) ≤ g.unseen seen :=
  List.countP_mono_left fun x _ h => by simp_all

theorem unseen_cons_lt {g : Graph} {n : NodeId} {e : Entry} {seen : List NodeId}
    (he : g.find? n = some e) (hn : n ∉ seen) : g.unseen (n :: seen) < g.unseen seen :=
  Autoflow.List.countP_lt_countP (mem_ids_of_find? he) (fun x h => by simp_all) (by simpa using hn)
    (by simp)

/-- Follows the default output from a node to the last slot of the chain. -/
def lastBehind (g : Graph) (seen : List NodeId) (current : NodeId) : Except GraphFault Position :=
  if _hs : current ∈ seen then .error (.multipleIncomingEdges current)
  else
    match _he : g.find? current with
    | none => .error (.nodeNotFound current)
    | some e =>
      match e.defaultSuccessor with
      | some n => lastBehind g (current :: seen) n
      | none => .ok (.south current "")
termination_by g.unseen seen
decreasing_by exact unseen_cons_lt _he _hs

/-- The slot at the end of the chain of default outputs from the root. -/
def lastPosition (g : Graph) : Except GraphFault Position :=
  match g.root with
  | none => .ok .root
  | some r => g.lastBehind [] r

/-- Collects the nodes on a stack and everything behind and inside them, but not `origin`. -/
def reach (g : Graph) (origin : NodeId) (found : List NodeId) : List NodeId → List NodeId
  | [] => found
  | n :: stack =>
    if _hs : n = origin ∨ n ∈ found then reach g origin found stack
    else
      match _he : g.find? n with
      | none => reach g origin (n :: found) stack
      | some e => reach g origin (n :: found) (e.successors.reverse ++ stack)
termination_by stack => (g.unseen found, stack.length)
decreasing_by
  · exact Prod.Lex.right _ (Nat.lt_succ_self _)
  · rcases Nat.lt_or_eq_of_le (unseen_cons_le g n found) with h | h
    · exact Prod.Lex.left _ _ h
    · rw [h]
      exact Prod.Lex.right _ (Nat.lt_succ_self _)
  · exact Prod.Lex.left _ _ (unseen_cons_lt _he fun m => _hs (Or.inr m))

/-- The nodes reachable from the children of a node, without the node itself. -/
def descendants (g : Graph) (n : NodeId) : Except GraphFault (List NodeId) := do
  return g.reach n [] (← g.children n).reverse

/-- Searches the slots on a stack, each with the path of slots that led to it, for a node. -/
def findPath (g : Graph) (target : NodeId) (visited : List NodeId) :
    List (Position × List Position) → Option (List Position)
  | [] => none
  | (p, path) :: stack =>
    match g.nodeAt p with
    | .ok (some n) =>
      if n = target then some path
      else if _hs : n ∈ visited then findPath g target visited stack
      else
        match _he : g.find? n with
        | none => findPath g target (n :: visited) stack
        | some e =>
          findPath g target (n :: visited)
            ((e.positions n).map (fun q => (q, path ++ [q])) ++ stack)
    | _ => findPath g target visited stack
termination_by stack => (g.unseen visited, stack.length)
decreasing_by
  · exact Prod.Lex.right _ (Nat.lt_succ_self _)
  · rcases Nat.lt_or_eq_of_le (unseen_cons_le g n visited) with h | h
    · exact Prod.Lex.left _ _ h
    · rw [h]
      exact Prod.Lex.right _ (Nat.lt_succ_self _)
  · exact Prod.Lex.left _ _ (unseen_cons_lt _he _hs)
  · exact Prod.Lex.right _ (Nat.lt_succ_self _)

/-- The chain of slots from the root down to a node, empty for the root and nothing for a node
that is not reachable. Outputs are searched before children, depth first. -/
def previousPositions (g : Graph) (target : NodeId) : Option (List Position) :=
  g.findPath target [] [(.root, [])]

/-- Walks everything behind a stack of nodes, each of which may be met once and needs an
entry, and gives the nodes met. -/
def visitOnce (g : Graph) (seen : List NodeId) : List NodeId → Except GraphFault (List NodeId)
  | [] => .ok seen
  | n :: stack =>
    if _hs : n ∈ seen then .error (.multipleIncomingEdges n)
    else
      match _he : g.find? n with
      | none => .error (.danglingReference n)
      | some e => visitOnce g (n :: seen) (e.successors.reverse ++ stack)
termination_by g.unseen seen
decreasing_by exact unseen_cons_lt _he _hs

/-- Checks that the graph is a single tree that hangs from the root. -/
def validate (g : Graph) : Except GraphFault Unit := do
  let seen ← match g.root with
    | none => pure []
    | some r => g.visitOnce [] [r]
  match g.ids.find? fun n => !seen.contains n with
  | some orphan => throw (.unreachable orphan)
  | none => return ()

end Autoflow.Graph
