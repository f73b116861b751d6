import Autoflow.Proofs.Run.Depth

/-!
# Why a run fails

Without a simulation, a run of a valid workflow needs nothing that might be missing: every node
that it comes to has an entry in the graph and a place in the table. So what ends it is the
answer to its last call (`Workflow.Grounds`): an error, or a result without the list that the
children of the node need. `run_fails_on_grounds` is the main result. It also says that the
bound on the depth plays no part: every larger one gives the same run.
-/

namespace Autoflow

/-- What ends a run that has made some calls: the answer to the last one. -/
inductive Workflow.Grounds (w : Workflow) (calls : List ServiceCall) : Halt → Prop
  | refused {n : NodeId} {node : Node} {c : Context} {fault : ServiceFault}
      (live : w.nodes.get? n = some node) (last : calls.getLast? = some ⟨node, c⟩)
      (answer : node.service.dispatch node.toNodeInfo c = .error fault) :
      Grounds w calls ⟨.run (fault.toRunFault n), c.history⟩
  /-- The node has children, but its result has no items for them. -/
  | uncounted {n : NodeId} {node : Node} {c : Context} {r : NodeResult}
      (live : w.nodes.get? n = some node) (last : calls.getLast? = some ⟨node, c⟩)
      (answer : node.service.dispatch node.toNodeInfo c = .ok r)
      (parent : w.graph.occupants (.child n) ≠ []) (bare : r.items? = none) :
      Grounds w calls ⟨.run (.invalidIterationData n), (c.afterDispatch n r).history⟩

/-- From calls with a precondition, a program has a result with a postcondition or ends on
grounds that the calls give. -/
abbrev Founded {α : Type} (w : Workflow) (P : List ServiceCall → Prop) (x : Logged α)
    (Q : α → List ServiceCall → Prop) : Prop :=
  Meets P x Q fun halt log => w.Grounds log halt

namespace Founded

variable {α β : Type} {w : Workflow} {P : List ServiceCall → Prop}
  {Q : α → List ServiceCall → Prop}

/-- What is there when it is asked for does not end the run. -/
theorem orHalt {ε : Type} {c : Context} {toFailure : ε → Failure} {r : Except ε α} {a : α}
    (h : r = .ok a) (post : ∀ log, P log → Q a log) : Founded w P (c.orHalt toFailure r) Q := by
  subst h
  exact post

/-- What each step of a loop keeps of its state holds at its end. -/
theorem foldlM {I : β → Prop} {step : β → α → Logged β} {l : List α} {b : β}
    (each : ∀ a ∈ l, ∀ b, I b → Founded w (fun _ => True) (step b a) fun b' _ => I b')
    (start : I b) : Founded w (fun _ => True) (l.foldlM step b) fun b' _ => I b' :=
  fun log _ => Meets.foldlM (I := fun b _ => I b) (fun a mem b log held => each a mem b held log trivial)
    b log start

end Founded

namespace Workflow

variable {w : Workflow} {n : NodeId} {depth : Nat} {c : Context} {node : Node} {r : NodeResult}

/-- The last call was made with a node and a context, and answered with a result. -/
structure Answered (node : Node) (c : Context) (r : NodeResult) (calls : List ServiceCall) :
    Prop where
  last : calls.getLast? = some ⟨node, c⟩
  answer : node.service.dispatch node.toNodeInfo c = .ok r

theorem dispatchOne_founded (live : w.nodes.get? n = some node) :
    Founded w (fun _ => True) (w.dispatchOne Node.logged n c) fun out log =>
      out.2 = c.afterDispatch n out.1 ∧ Answered node c out.1 log := by
  have found : w.node n = .ok node := by simp [Workflow.node, live]
  have called : Founded w (fun _ => True) (Node.logged node c) fun answer log =>
      answer = node.service.dispatch node.toNodeInfo c ∧ log.getLast? = some ⟨node, c⟩ :=
    fun log _ => ⟨rfl, List.getLast?_concat⟩
  unfold dispatchOne
  refine (Founded.orHalt (Q := fun a _ => a = node) found fun _ _ => rfl).bind fun a => ?_
  intro log e
  subst e
  refine (called.bind fun answer => ?_) log trivial
  rintro log ⟨rfl, last⟩
  cases answer : a.service.dispatch a.toNodeInfo c with
  | error fault => exact .refused live last answer
  | ok r => exact ⟨rfl, last, answer⟩

/-- A container without items is what ends the run, as its call was the last one. -/
theorem iterations_founded (live : w.nodes.get? n = some node)
    (parent : w.graph.occupants (.child n) ≠ []) :
    Founded w (Answered node c r) (iterations n r (c.afterDispatch n r)) fun _ _ => True := by
  unfold iterations
  split
  · next bare =>
    have bare : r.items? = none := Option.map_eq_none_iff.1 bare
    exact .throw fun log a => .uncounted live a.last a.answer parent bare
  · exact .pure fun _ _ => trivial

section Step

variable {step : NodeId → Context → Logged Context}
  (founded : ∀ m c, w.graph.occupants.Edge n m → c.simulateUntil = none →
    Founded w (fun _ => True) (step m c) fun c' _ => c'.simulateUntil = none)

include founded in
theorem foldlM_founded {s : Slot} (owner : s.owner? = some n) (plain : c.simulateUntil = none) :
    Founded w (fun _ => True) ((w.graph.occupants s).foldlM (fun c m => step m c) c)
      fun c' _ => c'.simulateUntil = none :=
  .foldlM (fun m mem c plain => founded m c (.of_mem mem owner) plain) plain

include founded in
theorem runInside_founded (known : n ∈ w.graph.ids) (live : w.nodes.get? n = some node)
    (plain : c.simulateUntil = none) :
    Founded w (Answered node c r) (w.runInside step n r (c.afterDispatch n r))
      fun c' _ => c'.simulateUntil = none := by
  unfold runInside
  refine (Founded.orHalt (Graph.children_of_mem_ids known) (Q := fun l log =>
    l = w.graph.occupants (.child n) ∧ Answered node c r log) fun _ a => ⟨rfl, a⟩).bind fun l => ?_
  rintro log ⟨rfl, answered⟩
  refine Meets.ite (fun _ => .pure fun _ _ => plain) (fun some => ?_) log answered
  have parent : w.graph.occupants (.child n) ≠ [] := fun e => some (List.isEmpty_iff.2 e)
  refine (iterations_founded live parent).bind fun count => ?_
  refine Founded.foldlM (I := fun c : Context => c.simulateUntil = none) (fun i _ c plain => ?_) plain
  unfold runIteration
  have inside := foldlM_founded (s := .child n) (c := c.setIteration n i) founded rfl plain
  exact inside.bind fun inner => .pure fun _ _ => plain

include founded in
theorem runNext_founded (known : n ∈ w.graph.ids) (plain : c.simulateUntil = none) :
    Founded w (fun _ => True) (w.runNext step n r c) fun c' _ => c'.simulateUntil = none := by
  unfold runNext
  refine (Founded.orHalt (Graph.nextNodes_of_mem_ids known _) (Q := fun l _ =>
    l = w.graph.occupants (.south n r.output)) fun _ _ => rfl).bind fun l => ?_
  rintro log rfl
  exact foldlM_founded founded rfl plain log trivial

end Step

theorem dispatchWithin_founded (tree : w.graph.IsTree)
    (covered : ∀ n ∈ w.graph.ids, n ∈ w.nodes.ids) (known : n ∈ w.graph.ids)
    (deep : w.graph.Deep depth n) (plain : c.simulateUntil = none) :
    Founded w (fun _ => True) (w.dispatchWithin Node.logged depth n none c)
      fun c' _ => c'.simulateUntil = none := by
  induction depth generalizing n c with
  | zero => exact absurd rfl (deep.ne_zero tree known)
  | succ depth ih =>
    obtain ⟨node, live⟩ := NodeMap.mem_ids_iff.1 (covered n known)
    have free : w.allowedNodes c none = .ok none := by simp [allowedNodes, plain]
    have below : ∀ m c, w.graph.occupants.Edge n m → c.simulateUntil = none →
        Founded w (fun _ => True) (w.dispatchWithin Node.logged depth m none c)
          fun c' _ => c'.simulateUntil = none := fun m c e plain =>
      ih (tree.mem_of_edge e).2 (deep.below tree e) plain
    unfold dispatchWithin
    refine (Founded.orHalt (Q := fun a _ => a = none) free fun _ _ => rfl).bind fun a log e => ?_
    subst e
    refine Meets.ite (P := fun _ => True) (fun _ => .pure fun _ _ => plain) (fun _ => ?_) log
      trivial
    refine (dispatchOne_founded live).bind fun out => ?_
    obtain ⟨r, c₁⟩ := out
    rintro log ⟨e, answered⟩
    simp only at e
    subst e
    refine Meets.ite (fun _ => .pure fun _ _ => plain) (fun _ => ?_) log answered
    refine (runInside_founded below known live plain).bind fun c₂ log plain => ?_
    exact runNext_founded below known plain log trivial

theorem run_grounds (tree : w.graph.IsTree) (covered : ∀ n ∈ w.graph.ids, n ∈ w.nodes.ids)
    (marker : w.simulateUntil = none) (plain : c.simulateUntil = none) {r : NodeId}
    (root : w.graph.root = some r) {halt : Halt} (failed : w.run c = .error halt) :
    w.Grounds (w.calls c) halt := by
  have known : r ∈ w.graph.ids := tree.mem (Graph.mem_occupants_root.2 root)
  have unfolded : w.runWith Node.logged c = w.dispatchWithin Node.logged w.depthBound r none c := by
    rw [runWith_of_root root, start_of_plain plain marker]
  have founded := dispatchWithin_founded tree covered known (w.deep_depthBound r) plain [] trivial
  rw [← run_logged] at failed
  unfold calls
  rw [← unfolded] at founded
  split at founded
  · next e =>
    rw [e] at failed
    cases failed
  · next e =>
    rw [e] at failed ⊢
    cases failed
    exact founded

/-- A run without a simulation of a valid workflow, with a node for every entry, comes to an end,
and the depth at which it is given up plays no part. It fails with `noTrigger` for the empty
graph alone, and otherwise because of what the service that was called last has answered. -/
theorem run_fails_on_grounds (w : Workflow) (c : Context) (valid : w.graph.validate = .ok ())
    (covered : ∀ n, n ∈ w.nodes.ids ↔ n ∈ w.graph.ids) (marker : w.simulateUntil = none)
    (plain : c.simulateUntil = none) :
    (∀ r, w.graph.root = some r → ∀ depth ≥ w.graph.entries.size,
      w.run c = w.dispatchWithin Node.call depth r none c) ∧
    ((∃ history, w.run c = .error ⟨.run .noTrigger, history⟩) ↔ w.graph.isEmpty) ∧
    ∀ halt, w.run c = .error halt →
      halt = ⟨.run .noTrigger, c.history⟩ ∨ w.Grounds (w.calls c) halt := by
  have tree := Graph.validate_eq_ok_iff.1 valid
  have known : ∀ n ∈ w.graph.ids, n ∈ w.nodes.ids := fun n mem => (covered n).2 mem
  refine ⟨fun r root depth le => ?_, ⟨?_, fun empty => ?_⟩, fun halt failed => ?_⟩
  · rw [run_eq_of_le valid root le, start_of_plain plain marker]
  · rintro ⟨history, failed⟩
    refine (Graph.isEmpty_iff_of_valid valid).2 (Option.eq_none_iff_forall_ne_some.2 fun r root => ?_)
    -- No answer of a service is that there is no trigger.
    generalize e : Halt.mk (.run .noTrigger) history = halt at failed
    cases run_grounds tree known marker plain root failed with
    | @refused n node c fault live last answer => cases fault <;> cases e
    | uncounted => cases e
  · have root := (Graph.isEmpty_iff_of_valid valid).1 empty
    exact ⟨c.history, by rw [run, runWith, root]; rfl⟩
  · cases root : w.graph.root with
    | none =>
      rw [run, runWith, root] at failed
      cases failed
      exact Or.inl rfl
    | some r => exact Or.inr (run_grounds tree known marker plain root failed)

/-- A node whose service answers without items. -/
def noItems (n : NodeId) : Node where
  id := n
  workflow := 1
  typeName := "No items"
  service := {
    edges := [⟨"", ""⟩]
    config := .null
    dispatch := fun _ _ => .ok ⟨.null, "", 200⟩ }

theorem run_fails_on_grounds_uncounted : ∃ halt,
    (nested.addNode (noItems 2)).run .empty = .error halt ∧
      halt.failure = .run (.invalidIterationData 2) ∧
      (nested.addNode (noItems 2)).Grounds ((nested.addNode (noItems 2)).calls .empty) halt := by
  have failed : ∃ halt, (nested.addNode (noItems 2)).run .empty = .error halt ∧
      halt.failure = .run (.invalidIterationData 2) := ⟨_, rfl, rfl⟩
  obtain ⟨halt, failed, reason⟩ := failed
  have covered : (nested.addNode (noItems 2)).nodes.ids = nested.graph.ids := rfl
  have outcome := (run_fails_on_grounds (nested.addNode (noItems 2)) .empty (by decide +kernel)
    (fun n => by rw [covered]; rfl) rfl rfl).2.2 halt failed
  refine ⟨halt, failed, reason, outcome.resolve_left fun e => ?_⟩
  rw [e] at reason
  cases reason

end Workflow

end Autoflow
