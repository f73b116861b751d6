import Autoflow.Workflow.Basic

/-!
# Running a workflow

A run dispatches a node, then what lies inside it once for each item of its result, then its
successors on the output that was taken. Successors share the context; each iteration works on
a copy of it, of which only the payload and the history come back. A simulation dispatches only
the nodes on the way to its last node, runs each container once and stops after that node.

The walk is written for any monad in which services are called and a run can end.
-/

namespace Autoflow

/-- A run that failed: why, and what was dispatched before. -/
structure Halt where
  failure : Failure
  history : List Record

/-- How services are called. -/
abbrev Caller (m : Type → Type) := Node → Context → m (Except ServiceFault NodeResult)

/-- Calls the service of a node, and does nothing else. -/
def Node.call {m : Type → Type} [Monad m] : Caller m :=
  fun node c => pure (node.service.dispatch node.toNodeInfo c)

section
variable {m : Type → Type} [Monad m] [MonadExceptOf Halt m]

namespace Context

/-- Goes on with a value, or ends the run. -/
def orHalt {ε α : Type} (c : Context) (toFailure : ε → Failure) (r : Except ε α) : m α :=
  match r with
  | .ok a => pure a
  | .error e => throw ⟨toFailure e, c.history⟩

end Context

/-- The fault of a run whose service does not answer. -/
def ServiceFault.toRunFault (n : NodeId) : ServiceFault → RunFault
  | improperlyConfigured reason => .misconfigured n reason
  | failed reason => .failed n reason

namespace Workflow

/-- The nodes that a simulation dispatches: those on the way to its last node, and that one. -/
def simulatedPath (w : Workflow) (last : NodeId) : Except GraphFault (List NodeId) :=
  (w.previousNodes last).map fun l => l ++ [last]

/-- The nodes that may be dispatched, all of them if there is no restriction. -/
def allowedNodes (w : Workflow) (c : Context) (allowed : Option (List NodeId)) :
    Except GraphFault (Option (List NodeId)) :=
  match allowed, c.simulateUntil with
  | none, some last => (w.simulatedPath last).map some
  | allowed, _ => .ok allowed

/-- Dispatches a node and gives its result and the context after it. -/
def dispatchOne (w : Workflow) (call : Caller m) (n : NodeId) (c : Context) :
    m (NodeResult × Context) := do
  let node ← c.orHalt .node (w.node n)
  let result ← c.orHalt (fun f => .run (f.toRunFault n)) (← call node c)
  return (result, c.afterDispatch n result)

/-- How often a container with children runs them. -/
def iterations (n : NodeId) (result : NodeResult) (c : Context) : m Nat :=
  match result.iterationCount? with
  | none => throw (Halt.mk (.run (.invalidIterationData n)) c.history)
  | some count => pure (if c.isSimulation then min count 1 else count)

/-- Runs the children of a container for an item, on a copy of the context. -/
def runIteration (step : NodeId → Context → m Context) (n : NodeId) (children : List NodeId)
    (c : Context) (index : Nat) : m Context := do
  let inner ← children.foldlM (fun c child => step child c) (c.setIteration n index)
  return c.resume inner

/-- Runs the children of a node, if it has any, once for each item of its result. -/
def runInside (w : Workflow) (step : NodeId → Context → m Context) (n : NodeId)
    (result : NodeResult) (c : Context) : m Context := do
  let children ← c.orHalt .graph (w.graph.children n)
  if children.isEmpty then
    return c
  let count ← iterations n result c
  (List.range count).foldlM (runIteration step n children) c

/-- Runs the successors of a node on the output that was taken. -/
def runNext (w : Workflow) (step : NodeId → Context → m Context) (n : NodeId)
    (result : NodeResult) (c : Context) : m Context := do
  let next ← c.orHalt .graph (w.graph.nextNodes n result.output)
  next.foldlM (fun c below => step below c) c

/-- Dispatches a node and everything below it. The number bounds the depth. -/
def dispatchWithin (w : Workflow) (call : Caller m) :
    Nat → NodeId → Option (List NodeId) → Context → m Context
  | 0, n, _, c => throw (Halt.mk (.run (.endless n)) c.history)
  | depth + 1, n, allowed, c => do
    let allowed ← c.orHalt .graph (w.allowedNodes c allowed)
    if allowed.any fun l => !l.contains n then
      return c
    let step (below : NodeId) (c : Context) := dispatchWithin w call depth below allowed c
    let (result, c) ← w.dispatchOne call n c
    if c.simulateUntil = some n then
      return c
    let c ← w.runInside step n result c
    w.runNext step n result c

/-- The depth at which a walk is given up. A walk of a tree is no deeper than its entries; a
walk that comes back to a node only as long as the data shrinks ends with the data, and values
nest at most 128 deep. -/
def depthBound (w : Workflow) : Nat := 128 * (w.graph.entries.size + 1)

/-- Dispatches a node and everything below it. -/
def dispatchWith (w : Workflow) (call : Caller m) (n : NodeId) (allowed : Option (List NodeId))
    (c : Context) : m Context :=
  w.dispatchWithin call w.depthBound n allowed c

/-- Runs the workflow from its trigger. Its simulation marker applies if the context has none. -/
def runWith (w : Workflow) (call : Caller m) (c : Context) : m Context :=
  match w.graph.root with
  | none => throw (Halt.mk (.run .noTrigger) c.history)
  | some r =>
    w.dispatchWith call r none
      (if c.isSimulation then c else c.withSimulateUntil w.simulateUntil)

end Workflow

end

/-- A part of a run: the context after it, or how it failed. -/
abbrev Walk := Except Halt Context

namespace Workflow

/-- Dispatches a node and everything below it. -/
def dispatch (w : Workflow) (n : NodeId) (allowed : Option (List NodeId)) (c : Context) : Walk :=
  w.dispatchWith Node.call n allowed c

/-- Runs the workflow from its trigger. -/
def run (w : Workflow) (c : Context) : Walk := w.runWith Node.call c

end Workflow

end Autoflow
