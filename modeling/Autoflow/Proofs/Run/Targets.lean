import Autoflow.Proofs.Graph.Search
import Autoflow.Proofs.Run.Pruning

/-!
# Which nodes a simulation comes to

A simulation looks for its last node before anything is dispatched. Nothing that it does
afterwards is a matter of the graph (`line_sound`), so a fault of the graph is the answer to that
search. In a valid graph the search misses exactly the nodes that stand, or hang from one that
stands, behind another node in its slot (`simulation_misses_behind`): the two that follow one node
on the same output of `forked` are both live, and the second has no path.
-/

namespace Autoflow

/-- A part of a run meets no fault of the graph. -/
def Sound {α : Type} (x : Except Halt α) : Prop :=
  ∀ halt, x = .error halt → ∀ f, halt.failure ≠ .graph f

namespace Sound

variable {α β : Type}

/-- A part that gives a result has no graph fault. -/
theorem pure (a : α) : Sound (Pure.pure a) := fun _ e => by cases e

/-- Two parts in a row have none if neither has. -/
theorem bind {x : Except Halt α} {f : α → Except Halt β} (h : Sound x) (h' : ∀ a, Sound (f a)) :
    Sound (x >>= f) := by
  cases x with
  | ok a => exact h' a
  | error e =>
    intro halt failed
    cases failed
    exact h e rfl

theorem ite {p : Prop} [Decidable p] {x y : Except Halt α} (h : Sound x) (h' : Sound y) :
    Sound (if p then x else y) := by
  split
  · exact h
  · exact h'

/-- A step that may fail has none if its failures are of another kind. -/
theorem orHalt {ε : Type} {toFailure : ε → Failure} (c : Context) (r : Except ε α)
    (other : ∀ e f, toFailure e ≠ .graph f) : Sound (c.orHalt toFailure r) := by
  cases r with
  | ok a => exact .pure a
  | error e =>
    intro halt failed
    cases failed
    exact other e

end Sound

namespace Workflow

variable {w : Workflow} {last n : NodeId} {c : Context}

/-- A dispatch does not ask the graph for anything. -/
theorem dispatchOne_sound (w : Workflow) (n : NodeId) (c : Context) :
    Sound (w.dispatchOne Node.call n c : Except Halt _) := by
  unfold dispatchOne
  refine (Sound.orHalt c _ fun _ _ => Failure.noConfusion).bind fun node => ?_
  refine (Sound.pure _).bind fun answer => ?_
  refine (Sound.orHalt c _ fun fault _ => ?_).bind fun r => .pure _
  exact Failure.noConfusion

theorem childCount_sound (w : Workflow) (n : NodeId) (r : NodeResult) (c : Context) :
    Sound (w.childCount n r c : Except Halt Nat) := by
  refine .ite (.pure 0) ?_
  unfold iterations
  split
  · intro halt failed f
    cases failed
    exact Failure.noConfusion
  · exact .pure _

/-- A simulation that has found its path meets no fault of the graph. -/
theorem line_sound (w : Workflow) (last : NodeId) (path : List Position) (c : Context) :
    Sound (w.line Node.call last path c : Walk) := by
  induction path generalizing c with
  | nil => exact (dispatchOne_sound w last c).bind fun out => .pure _
  | cons p path ih =>
    unfold line
    cases p.reference with
    | none => exact .pure c
    | some n =>
      refine (dispatchOne_sound w n c).bind fun out => ?_
      obtain ⟨r, c⟩ := out
      refine (childCount_sound w n r c).bind fun count => ?_
      cases p.placement with
      | south => exact .ite (ih c) (.pure c)
      | child =>
        refine .ite (.pure c) ?_
        exact (ih (c.setIteration n 0)).bind fun inner => .pure _

/-- A simulation whose last node is not found ends at once. -/
theorem run_lost {root : NodeId} (at_root : w.graph.root = some root)
    (lost : w.graph.previousPositions last = none) (sim : (w.start c).simulateUntil = some last) :
    w.run c = .error ⟨.graph (.nodeNotFound last), (w.start c).history⟩ := by
  have stopped : (w.runWith Node.logged c).run [] =
      (.error ⟨.graph (.nodeNotFound last), (w.start c).history⟩, []) := by
    rw [runWith_of_root at_root]
    exact dispatchWithin_lost lost sim []
  rw [← run_logged, stopped]

/-- A simulation up to a node that the path search finds asks the graph for nodes on that path
only. -/
theorem run_on_path_sound {path : List Position} (tree : w.graph.IsTree)
    (found : w.graph.previousPositions last = some path)
    (sim : (w.start c).simulateUntil = some last) : Sound (w.run c) := by
  rw [run, runWith_eq_line (fun _ _ => rfl) tree Node.call found sim]
  exact line_sound w last path _

/-- In a valid graph a node has a path exactly if it and all nodes above it stand first in their
slots. A simulation until a node fails with a fault of the graph exactly if the node has none; it
is that the node is not found, and nothing is dispatched. -/
theorem simulation_misses_behind (w : Workflow) (payload : Payload) (n : NodeId)
    (valid : w.graph.validate = .ok ()) (live : n ∈ w.graph.ids) :
    ((w.graph.previousPositions n).isSome ↔ w.graph.occupants.Led n) ∧
    ((∃ halt f, w.run ((Context.new payload).withSimulateUntil (some n)) = .error halt ∧
        halt.failure = .graph f) ↔ ¬ w.graph.occupants.Led n) ∧
    (¬ w.graph.occupants.Led n → w.run ((Context.new payload).withSimulateUntil (some n)) =
      .error ⟨.graph (.nodeNotFound n), []⟩) := by
  have tree := Graph.validate_eq_ok_iff.1 valid
  have found := tree.led_iff live
  have missed : ¬ w.graph.occupants.Led n →
      w.run ((Context.new payload).withSimulateUntil (some n)) =
        .error ⟨.graph (.nodeNotFound n), []⟩ := fun behind => by
    have lost : w.graph.previousPositions n = none :=
      Option.not_isSome_iff_eq_none.1 fun found' => behind (found.1 found')
    obtain ⟨root, at_root⟩ : ∃ root, w.graph.root = some root := by
      refine Option.ne_none_iff_exists'.1 fun rootless => ?_
      rw [(Graph.isTree_of_rootless rootless).1 tree] at live
      exact List.not_mem_nil live
    exact run_lost at_root lost rfl
  refine ⟨found, ⟨?_, fun behind => ⟨_, _, missed behind, rfl⟩⟩, missed⟩
  rintro ⟨halt, f, failed, fault⟩ led
  obtain ⟨path, at_path⟩ := Option.isSome_iff_exists.1 (found.2 led)
  exact run_on_path_sound tree at_path rfl halt failed f fault

/-- Two nodes follow the first one on the same output. -/
def forked : Workflow where
  id := 1
  name := "Forked"
  graph := {
    root := some 1
    entries := ((OrderedMap.empty.insert 1 ⟨some (.single "" [2, 3]), none⟩).insert 2 {}).insert 3
      {} }
  nodes := ((NodeMap.empty.insert 1 (twoItems 1)).insert 2 (twoItems 2)).insert 3 (twoItems 3)

theorem isTree_forked : forked.graph.IsTree := Graph.validate_eq_ok_iff.1 (by decide +kernel)

theorem not_led_forked : ¬ forked.graph.occupants.Led 3 := by
  intro led
  obtain ⟨s, head⟩ := led 3 .refl
  have held : (3 : NodeId) ∈ forked.graph.occupants (.south 1 "") := by decide
  cases isTree_forked.slot_unique (List.mem_of_head? head) held
  exact absurd head (by decide)

theorem previousPositions_forked : forked.graph.previousPositions 2 = some [.south 1 ""] :=
  (Graph.findPath_down (n := 1) rfl (by decide) (by decide) rfl).trans (Graph.findPath_hit rfl)

/-- The graph of `forked` is valid, and its third node has an entry but no path. -/
theorem forked_third_lost :
    forked.graph.validate = .ok () ∧ 3 ∈ forked.graph.ids ∧
      forked.graph.occupants.Reach 1 3 ∧ forked.graph.previousPositions 3 = none ∧
      forked.run ((Context.new (.known .null)).withSimulateUntil (some 3)) =
        .error ⟨.graph (.nodeNotFound 3), []⟩ := by
  have lost : forked.graph.previousPositions 3 = none := by
    refine Option.not_isSome_iff_eq_none.1 fun found => not_led_forked ?_
    exact (isTree_forked.led_iff (by decide)).1 found
  have below : forked.graph.occupants.Edge 1 3 := ⟨.south 1 "", rfl, by decide⟩
  exact ⟨by decide +kernel, by decide, .single below, lost, run_lost rfl lost rfl⟩

/-- Node 3 is the second one behind the root, so it is valid and live and no simulation comes to
it. -/
theorem simulation_misses_behind_forked :
    forked.run ((Context.new (.known .null)).withSimulateUntil (some 3)) =
        .error ⟨.graph (.nodeNotFound 3), []⟩ ∧
      forked.graph.occupants.Led 2 ∧
      ¬ ∃ halt f, forked.run ((Context.new (.known .null)).withSimulateUntil (some 2)) =
        .error halt ∧ halt.failure = .graph f := by
  have valid : forked.graph.validate = .ok () := by decide +kernel
  obtain ⟨_, _, third⟩ := simulation_misses_behind forked (.known .null) 3 valid (by decide)
  obtain ⟨found, misses, _⟩ :=
    simulation_misses_behind forked (.known .null) 2 valid (by decide)
  have led : forked.graph.occupants.Led 2 := found.1 (by rw [previousPositions_forked]; rfl)
  exact ⟨third not_led_forked, led, fun failed => misses.1 failed led⟩

end Workflow

end Autoflow
