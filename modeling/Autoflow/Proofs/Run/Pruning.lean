import Autoflow.Proofs.Run.Line
import Mathlib.Data.List.Infix

/-!
# What a simulation dispatches

A simulation of a valid workflow is a walk down a line (`runWith_eq_line`). `Along` is a program
that dispatches nodes in a given order, as far as it comes, each at the first item of every
container: a dispatch in front of such a program gives one for a list with one node more. So a
simulation dispatches a first part of its path, also if it fails
(`simulation_dispatches_path`).
-/

namespace Autoflow

/-- The records of a run, whether or not it fails. -/
def Walk.history : Walk → List Record
  | .ok c => c.history
  | .error halt => halt.history

/-- All containers are at their first item. -/
def AtFirst (v : NodeMap Nat) : Prop := ∀ i ∈ v.values, i = 0

instance (v : NodeMap Nat) : Decidable (AtFirst v) :=
  inferInstanceAs (Decidable (∀ i ∈ v.values, i = 0))

/-- It is enough to look at each container that is being iterated. -/
theorem atFirst_iff {v : NodeMap Nat} : AtFirst v ↔ ∀ k i, v.get? k = some i → i = 0 := by
  constructor
  · intro h k i at_k
    exact h i (NodeMap.mem_values_iff.2 ⟨k, at_k⟩)
  · intro h i mem
    obtain ⟨k, at_k⟩ := NodeMap.mem_values_iff.1 mem
    exact h k i at_k

/-- The first item of one more container keeps it so. -/
theorem AtFirst.insert {v : NodeMap Nat} (h : AtFirst v) (n : NodeId) :
    AtFirst (v.insert n 0) := by
  rw [atFirst_iff] at h ⊢
  intro k i at_k
  rw [NodeMap.get?_insert] at at_k
  split at at_k
  · cases at_k
    rfl
  · exact h k i at_k

/-- Calls and records that belong to nodes in a given order, from the first one on. -/
structure Straight (w : Workflow) (nodes : List NodeId) (calls : List ServiceCall)
    (records : List Record) : Prop where
  called : calls.map (fun call => some call.node) <+: nodes.map w.nodes.get?
  recorded : records.map Record.node <+: nodes
  first : ∀ R ∈ records, AtFirst R.iterations

namespace Straight

variable {w : Workflow} {nodes : List NodeId} {calls : List ServiceCall} {records : List Record}
  {n : NodeId} {node : Node} {c : Context}

/-- At the start nothing is called or recorded. -/
theorem nil (w : Workflow) (nodes : List NodeId) : Straight w nodes [] [] :=
  ⟨List.nil_prefix, List.nil_prefix, fun _ mem => (List.not_mem_nil mem).elim⟩

/-- A call that fails is the last one and leaves no record. -/
theorem unanswered (live : w.nodes.get? n = some node) (c : Context) :
    Straight w (n :: nodes) [⟨node, c⟩] [] := by
  refine ⟨?_, List.nil_prefix, fun _ mem => (List.not_mem_nil mem).elim⟩
  rw [List.map_cons, List.map_cons, live]
  exact List.cons_prefix_cons.2 ⟨rfl, List.nil_prefix⟩

/-- A call that is answered leaves its record, and the following nodes are next. -/
theorem answered (live : w.nodes.get? n = some node) (first : AtFirst c.iterations)
    (r : NodeResult) (h : Straight w nodes calls records) :
    Straight w (n :: nodes) (⟨node, c⟩ :: calls) (⟨n, c.iterations, r⟩ :: records) := by
  refine ⟨?_, List.cons_prefix_cons.2 ⟨rfl, h.recorded⟩, List.forall_mem_cons.2 ⟨first, h.first⟩⟩
  rw [List.map_cons, List.map_cons, live]
  exact List.cons_prefix_cons.2 ⟨rfl, h.called⟩

end Straight

/-- A program that goes on from a history dispatches nodes in a given order. -/
def Along (w : Workflow) (nodes : List NodeId) (history : List Record) (x : Logged Context) :
    Prop :=
  ∀ log, ∃ calls records, (x.run log).2 = log ++ calls ∧
    Walk.history (x.run log).1 = history ++ records ∧ Straight w nodes calls records

namespace Along

variable {w : Workflow} {nodes : List NodeId} {history : List Record} {n : NodeId}
  {c c' : Context} {x : Logged Context}

/-- To go on without a call dispatches nothing, -/
theorem pure (w : Workflow) (nodes : List NodeId) (c : Context) :
    Along w nodes c.history (Pure.pure c) := fun log =>
  ⟨[], [], (List.append_nil log).symm, (List.append_nil _).symm, .nil w nodes⟩

/-- and neither does a failure. -/
theorem throw (w : Workflow) (nodes : List NodeId) (e : Halt) :
    Along w nodes e.history (MonadExceptOf.throw e) := fun log =>
  ⟨[], [], (List.append_nil log).symm, (List.append_nil _).symm, .nil w nodes⟩

theorem ite {p : Prop} [Decidable p] {x y : Logged Context} (h : p → Along w nodes history x)
    (h' : ¬ p → Along w nodes history y) : Along w nodes history (if p then x else y) := by
  split
  · next hp => exact h hp
  · next hp => exact h' hp

/-- What comes back from a copy of the context has the same records. -/
theorem resume (h : Along w nodes history x) (c : Context) :
    Along w nodes history (x >>= fun inner => Pure.pure (c.resume inner)) := by
  intro log
  obtain ⟨calls, records, logged, recorded, straight⟩ := h log
  refine ⟨calls, records, ?_, ?_, straight⟩
  · rw [Logged.run_bind, ← logged]
    split
    · rfl
    · rfl
  · rw [Logged.run_bind, ← recorded]
    split
    · next e => rw [e]; rfl
    · next e => rw [e]

/-- A dispatch comes first, and what follows dispatches the other nodes. -/
theorem dispatched {k : NodeResult × Context → Logged Context} (first : AtFirst c.iterations)
    (next : ∀ r, Along w nodes (c.afterDispatch n r).history (k (r, c.afterDispatch n r))) :
    Along w (n :: nodes) c.history (w.dispatchOne Node.logged n c >>= k) := by
  intro log
  rw [Logged.run_bind]
  cases live : w.nodes.get? n with
  | none =>
    rw [Workflow.dispatchOne_run_of_absent live]
    exact throw w (n :: nodes) ⟨.node (.doesNotExist n), c.history⟩ log
  | some node =>
    rw [Workflow.dispatchOne_run live]
    cases node.service.dispatch node.toNodeInfo c with
    | error fault => exact ⟨_, [], rfl, (List.append_nil _).symm, .unanswered live c⟩
    | ok r =>
      obtain ⟨calls, records, logged, recorded, straight⟩ := next r (log ++ [⟨node, c⟩])
      refine ⟨⟨node, c⟩ :: calls, ⟨n, c.iterations, r⟩ :: records, ?_, ?_,
        straight.answered live first r⟩
      · exact logged.trans (List.append_assoc ..)
      · exact recorded.trans (List.append_assoc ..)

/-- To count the items of a container calls nothing. -/
theorem childCount {k : Nat → Logged Context} {r : NodeResult}
    (next : ∀ count, Along w nodes c.history (k count)) :
    Along w nodes c.history (w.childCount n r c >>= k) := by
  unfold Workflow.childCount
  split
  · exact next 0
  · unfold Workflow.iterations
    split
    · exact throw w nodes _
    · exact next _

end Along

namespace Workflow

variable {w : Workflow} {last n : NodeId} {path : List Position} {c : Context}

/-- A line dispatches the nodes on its path in order, as far as it comes. -/
theorem line_along {L : Layout} (leads : L.Leads last n path) (first : AtFirst c.iterations) :
    Along w (Position.nodes path last) c.history (w.line Node.logged last path c) := by
  induction leads generalizing c with
  | here => exact .dispatched first fun r => .pure w [] _
  | @down n next p path owner head rest ih =>
    rw [Layout.Leads.nodes_cons owner]
    simp only [line, owner]
    refine .dispatched first fun r => .childCount fun count => ?_
    cases p.placement with
    | south => exact .ite (fun _ => ih first) fun _ => .pure w _ _
    | child =>
      refine .ite (fun _ => .pure w _ _) fun _ => .resume ?_ _
      exact ih (first.insert n)

/-- The previous nodes are those that the positions on the path refer to. -/
theorem previousNodes_of_found (found : w.graph.previousPositions last = some path) :
    w.previousNodes last = .ok (path.filterMap Position.reference) := by
  simp [previousNodes, Workflow.path, found, Except.map]

/-- A simulation without a path to its last node ends before the first call. -/
theorem dispatchWithin_lost {depth : Nat} (lost : w.graph.previousPositions last = none)
    (sim : c.simulateUntil = some last) (log : List ServiceCall) :
    (w.dispatchWithin Node.logged (depth + 1) n none c).run log =
      (.error ⟨.graph (.nodeNotFound last), c.history⟩, log) := by
  have allowed : w.allowedNodes c none = .error (.nodeNotFound last) := by
    simp [allowedNodes, sim, simulatedPath, previousNodes, Workflow.path, lost, Except.map]
  rw [dispatchWithin, allowed]
  rfl

/-- The marker of the context goes before that of the workflow. -/
theorem start_of_marker {payload : Payload} {marker : Option NodeId}
    (marked : marker.or w.simulateUntil = some last) :
    w.start ((Context.new payload).withSimulateUntil marker) =
      (Context.new payload).withSimulateUntil (some last) := by
  cases marker with
  | none =>
    rw [Option.none_or] at marked
    rw [← marked]
    rfl
  | some u =>
    cases marked
    rfl

/-- A simulation of a valid workflow that is not empty dispatches nothing if there is no path to
its last node. Otherwise it dispatches nodes of the path in order, from the first one on and none
of them twice, with every container at its first item, whether or not it fails. -/
theorem simulation_dispatches_path (w : Workflow) (payload : Payload) (marker : Option NodeId)
    (last : NodeId) (valid : w.graph.validate = .ok ()) (filled : w.graph.isEmpty = false)
    (marked : marker.or w.simulateUntil = some last) :
    let c := (Context.new payload).withSimulateUntil marker
    (w.graph.previousPositions last = none →
      w.calls c = [] ∧ w.run c = .error ⟨.graph (.nodeNotFound last), []⟩) ∧
    (w.graph.previousPositions last ≠ none → ∃ before, w.previousNodes last = .ok before ∧
      (before ++ [last]).Nodup ∧
      (w.calls c).map (fun call => some call.node) <+: (before ++ [last]).map w.nodes.get? ∧
      (w.run c).history.map Record.node <+: before ++ [last] ∧
      ∀ R ∈ (w.run c).history, AtFirst R.iterations) := by
  intro c
  have tree := Graph.validate_eq_ok_iff.1 valid
  have start : w.start c = (Context.new payload).withSimulateUntil (some last) :=
    start_of_marker marked
  refine ⟨fun off => ?_, fun on => ?_⟩
  · cases root : w.graph.root with
    | none => exact absurd filled (by simp [(Graph.isEmpty_iff_of_valid valid).2 root])
    | some r =>
      have stopped : (w.runWith Node.logged c).run [] =
          (.error ⟨.graph (.nodeNotFound last), []⟩, []) := by
        rw [runWith_of_root root, start]
        exact dispatchWithin_lost off rfl []
      exact ⟨congrArg Prod.snd stopped, run_logged w c ▸ congrArg Prod.fst stopped⟩
  · obtain ⟨path, found⟩ := Option.ne_none_iff_exists'.1 on
    obtain ⟨r, root, leads⟩ := Graph.leads_of_previousPositions found
    have walked : w.runWith Node.logged c = w.line Node.logged last path (w.start c) :=
      runWith_eq_line (fun _ _ => rfl) tree Node.logged found (by rw [start]; rfl)
    have along : Along w (Position.nodes path last) [] (w.line Node.logged last path (w.start c)) := by
      rw [start]
      exact line_along leads fun i mem => (List.not_mem_nil mem).elim
    obtain ⟨calls, records, logged, recorded, straight⟩ := along []
    rw [← walked] at logged recorded
    rw [run_logged] at recorded
    refine ⟨_, previousNodes_of_found found, leads.nodup_nodes tree, ?_, ?_, ?_⟩
    · rw [show w.calls c = calls from logged]
      exact straight.called
    · rw [recorded]
      exact straight.recorded
    · rw [recorded]
      exact straight.first

/-- The way to the item node of the example goes into the container. -/
theorem previousPositions_nested :
    nested.graph.previousPositions 3 = some [.south 1 "", .child 2] := by
  refine (Graph.findPath_down (n := 1) rfl (by decide) (by decide) rfl).trans ?_
  refine (Graph.findPath_down (n := 2) rfl (by decide) (by decide) rfl).trans ?_
  refine (Graph.findPath_down (n := 4) rfl (by decide) (by decide) rfl).trans ?_
  exact Graph.findPath_hit rfl

/-- The container has two items, but the simulation dispatches the node inside for the first one
only. -/
theorem simulation_dispatches_path_nested :
    (nested.calls ((Context.new (.known .null)).withSimulateUntil (some 3))).map (·.node.id) =
        [1, 2, 3] ∧
      ∃ before, nested.previousNodes 3 = .ok before ∧ (before ++ [3]).Nodup ∧
        (nested.calls ((Context.new (.known .null)).withSimulateUntil (some 3))).map
          (fun call => some call.node) <+: (before ++ [3]).map nested.nodes.get? ∧
        (nested.run ((Context.new (.known .null)).withSimulateUntil (some 3))).history.map
          Record.node <+: before ++ [3] ∧
        ∀ R ∈ (nested.run ((Context.new (.known .null)).withSimulateUntil (some 3))).history,
          AtFirst R.iterations := by
  have valid : nested.graph.validate = .ok () := by decide +kernel
  have walked : nested.runWith Node.logged ((Context.new (.known .null)).withSimulateUntil (some 3)) =
      nested.line Node.logged 3 [.south 1 "", .child 2]
        (nested.start ((Context.new (.known .null)).withSimulateUntil (some 3))) :=
    runWith_eq_line (fun _ _ => rfl) (Graph.validate_eq_ok_iff.1 valid) Node.logged
      previousPositions_nested rfl
  refine ⟨by rw [calls, walked]; decide +kernel, ?_⟩
  exact (simulation_dispatches_path nested (.known .null) (some 3) 3 valid rfl rfl).2
    (by rw [previousPositions_nested]; exact Option.some_ne_none _)

end Workflow

end Autoflow
