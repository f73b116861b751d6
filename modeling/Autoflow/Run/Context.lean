import Autoflow.Node.Map
import Autoflow.Service.Result

/-!
# The context of a run

A context carries the event payload, the history of all dispatches and what one part of the
run sees: its results, the iterations in effect and the node that ends a simulation. Contexts
copied from one another form a family with one payload and one history; results and
iterations are each member's own. A payload that is produced on demand is produced once for
the whole family.
-/

namespace Autoflow

/-- The payload of the event that started a run. -/
structure Payload where
  /-- What the producer answers, by the number of calls before. -/
  producer : Nat → Json
  /-- The value, once it is known. -/
  value : Option Json := none
  /-- How often the producer was called. -/
  calls : Nat := 0

namespace Payload

/-- A payload known from the start. -/
def known (v : Json) : Payload := { producer := fun _ => v, value := some v }

/-- A payload produced on the first access. -/
def lazy (producer : Nat → Json) : Payload := { producer }

/-- The value that the payload has for everyone who asks. -/
def get (p : Payload) : Json := p.value.getD (p.producer p.calls)

/-- The payload after an access. -/
def forced (p : Payload) : Payload :=
  match p.value with
  | some _ => p
  | none => { p with value := some (p.producer p.calls), calls := p.calls + 1 }

theorem get_forced (p : Payload) : p.forced.get = p.get := by
  cases h : p.value <;> simp [forced, get, h]

theorem forced_forced (p : Payload) : p.forced.forced = p.forced := by
  cases h : p.value <;> simp [forced, h]

end Payload

/-- One dispatch of a run. -/
structure Record where
  node : NodeId
  /-- The container iterations in effect. -/
  iterations : NodeMap Nat
  result : NodeResult
deriving DecidableEq

/-- What one part of a run sees. -/
structure Scope where
  results : NodeMap NodeResult := .empty
  /-- The index each enclosing container is at. -/
  iterations : NodeMap Nat := .empty
  /-- The node after which a simulation stops. -/
  simulateUntil : Option NodeId := none

/-- The context in which nodes are dispatched. -/
structure Context extends Scope where
  payload : Payload
  /-- Every dispatch of the run so far, in order. -/
  history : List Record := []

namespace Context

/-- A context for a payload. -/
def new (payload : Payload) : Context := { payload }

/-- A context without a payload. -/
def empty : Context := new (.known .null)

/-- The payload of the event. -/
def event (c : Context) : Json := c.payload.get

/-- Whether the run is a simulation. -/
def isSimulation (c : Context) : Bool := c.simulateUntil.isSome

/-- The context that stops after a node. -/
def withSimulateUntil (c : Context) (n : Option NodeId) : Context := { c with simulateUntil := n }

/-- The context after a dispatch. -/
def afterDispatch (c : Context) (n : NodeId) (r : NodeResult) : Context :=
  { c with
    history := c.history ++ [⟨n, c.iterations, r⟩]
    results := c.results.insert n r }

/-- The context in which a container is at an index. -/
def setIteration (c : Context) (n : NodeId) (index : Nat) : Context :=
  { c with iterations := c.iterations.insert n index }

/-- The result of a node dispatched in this context or before it was copied. -/
def result? (c : Context) (n : NodeId) : Option NodeResult := c.results.get? n

/-- The index a container is at. -/
def iteration? (c : Context) (n : NodeId) : Option Nat := c.iterations.get? n

/-- The item a container is at. -/
def item? (c : Context) (n : NodeId) : Option Json := do
  let index ← c.iteration? n
  let result ← c.result? n
  let items ← result.items?
  items[index]?

/-- The context that goes on after a part of the run in a copy of it: only the payload and the
history have moved. -/
def resume (c inner : Context) : Context :=
  { c with payload := inner.payload, history := inner.history }

end Context

end Autoflow
