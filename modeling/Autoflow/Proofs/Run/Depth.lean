import Autoflow.Proofs.Run.Calls
import Autoflow.Proofs.Run.Records

/-!
# The depth of a walk

A walk is given up at a depth that no walk of a tree comes to: the nodes above a node are
different ones, and there are at least as many entries as levels (`Deep.below`). So a run of a
valid workflow ends by itself, well or not (`run_ends`), and it would go the same way if it could
go deeper (`run_eq_of_le`).
-/

namespace Autoflow

namespace Graph

variable {g : Graph} {n m : NodeId} {depth : Nat}

/-- A walk that has some depth left at a node can go down to any leaf: together with the nodes
above the node it has enough for all that have an entry. -/
def Deep (g : Graph) (depth : Nat) (n : NodeId) : Prop :=
  ∃ above : List NodeId, above.Nodup ∧
    (∀ a ∈ above, a ∈ g.ids ∧ Relation.TransGen g.occupants.Edge a n) ∧
    g.ids.length ≤ depth + above.length

/-- With a level for each node the walk is deep enough, whatever is above the node. -/
theorem deep_of_length_le (h : g.ids.length ≤ depth) (n : NodeId) : g.Deep depth n := by
  refine ⟨[], List.nodup_nil, fun a mem => absurd mem List.not_mem_nil, ?_⟩
  show g.ids.length ≤ depth + 0
  omega

theorem deep_of_size_le (h : g.entries.size ≤ depth) (n : NodeId) : g.Deep depth n := by
  have size : g.ids.length = g.entries.size := List.length_map _
  exact deep_of_length_le (by omega) n

/-- At a node of the tree there is depth left: the nodes above it are fewer than all nodes. -/
theorem Deep.ne_zero (h : g.Deep depth n) (tree : g.IsTree) (hn : n ∈ g.ids) : depth ≠ 0 := by
  obtain ⟨above, nodup, high, le⟩ := h
  have nodup : (n :: above).Nodup :=
    List.nodup_cons.2 ⟨fun mem => tree.acyclic (high n mem).2, nodup⟩
  have sub : n :: above ⊆ g.ids := by
    intro a mem
    rcases List.mem_cons.1 mem with rfl | mem
    · exact hn
    · exact (high a mem).1
  have short : above.length + 1 ≤ g.ids.length := nodup.length_le_of_subset sub
  omega

/-- One level down there are one more node above and one level less, so the depth suffices there
too. -/
theorem Deep.below (h : g.Deep (depth + 1) n) (tree : g.IsTree) (e : g.occupants.Edge n m) :
    g.Deep depth m := by
  obtain ⟨above, nodup, high, le⟩ := h
  refine ⟨n :: above, List.nodup_cons.2 ⟨fun mem => tree.acyclic (high n mem).2, nodup⟩, ?_, ?_⟩
  · intro a mem
    rcases List.mem_cons.1 mem with rfl | mem
    · exact ⟨(tree.mem_of_edge e).1, .single e⟩
    · exact ⟨(high a mem).1, (high a mem).2.tail e⟩
  · rw [List.length_cons]
    omega

end Graph

/-! ## Parts of a run -/

/-- A part of a run is not given up for its depth. -/
def Ends {α : Type} (x : Except Halt α) : Prop :=
  ∀ n history, x ≠ .error ⟨.run (.endless n), history⟩

namespace Ends

variable {α β : Type}

/-- A part that gives a result is not given up. -/
theorem pure (a : α) : Ends (Pure.pure a) := fun _ _ e => by cases e

/-- Two parts in a row end if each does; the second counts only for results of the first. -/
theorem bind {x : Except Halt α} {f : α → Except Halt β} (h : Ends x)
    (h' : ∀ a, x = .ok a → Ends (f a)) : Ends (x >>= f) := by
  cases x with
  | ok a => exact h' a rfl
  | error e =>
    intro n history given_up
    cases given_up
    exact h n history rfl

theorem ite {p : Prop} [Decidable p] {x y : Except Halt α} (h : Ends x) (h' : Ends y) :
    Ends (if p then x else y) := by
  split
  · exact h
  · exact h'

/-- A step that may fail is not given up if its failures are others. -/
theorem orHalt {ε : Type} {toFailure : ε → Failure} (c : Context) (r : Except ε α)
    (other : ∀ f n, toFailure f ≠ .run (.endless n)) : Ends (c.orHalt toFailure r) := by
  intro n history given_up
  cases r with
  | ok a => cases given_up
  | error f =>
    have same : toFailure f = .run (.endless n) := congrArg Halt.failure (Except.error.inj given_up)
    exact other f n same

/-- Parts that end can be repeated over a list. -/
theorem foldlM {step : β → α → Except Halt β} {l : List α} (h : ∀ a ∈ l, ∀ b, Ends (step b a))
    (b : β) : Ends (l.foldlM step b) := by
  induction l generalizing b with
  | nil => exact pure b
  | cons a l ih =>
    rw [List.foldlM_cons]
    refine (h a List.mem_cons_self b).bind fun b' _ => ?_
    exact ih (fun a mem => h a (List.mem_cons_of_mem _ mem)) b'

end Ends

namespace Workflow

variable {w : Workflow} {n : NodeId} {depth : Nat}

/-- The bound of a run is deep enough at every node. -/
theorem deep_depthBound (w : Workflow) (n : NodeId) : w.graph.Deep w.depthBound n := by
  apply Graph.deep_of_size_le
  unfold depthBound
  omega

/-- A dispatch ends, well or not, as there are no levels in it. -/
theorem dispatchOne_ends (w : Workflow) (n : NodeId) (c : Context) :
    Ends (w.dispatchOne Node.call n c : Except Halt _) := by
  unfold dispatchOne
  refine (Ends.orHalt c _ fun f k e => by cases e).bind fun node _ => ?_
  refine (Ends.pure _).bind fun answer _ => ?_
  refine (Ends.orHalt c _ fun f k e => ?_).bind fun r _ => .pure _
  cases f <;> cases e

theorem iterations_ends (n : NodeId) (r : NodeResult) (c : Context) :
    Ends (iterations n r c : Except Halt Nat) := by
  unfold iterations
  split
  · intro k history e
    cases e
  · exact .pure _

section Step

variable {step : NodeId → Context → Walk}
  (ends : ∀ m c, w.graph.occupants.Edge n m → Ends (step m c))

include ends in
/-- The iterations of a node end if the walks of the nodes inside do. -/
theorem runInside_ends (r : NodeResult) (c : Context) : Ends (w.runInside step n r c) := by
  unfold runInside
  refine (Ends.orHalt c _ fun f k e => by cases e).bind fun children held => .ite (.pure c) ?_
  refine (iterations_ends n r c).bind fun count _ => .foldlM (fun i _ c => ?_) c
  unfold runIteration
  refine (Ends.foldlM (fun m mem c => ends m c ?_) _).bind fun inner _ => .pure _
  have held : w.graph.children n = .ok children := orHalt_eq_ok.1 held
  rw [Graph.eq_occupants_of_children held] at mem
  exact .of_mem mem rfl

include ends in
/-- The part behind a node ends if the walks of its successors do. -/
theorem runNext_ends (r : NodeResult) (c : Context) : Ends (w.runNext step n r c) := by
  unfold runNext
  refine (Ends.orHalt c _ fun f k e => by cases e).bind fun next held => ?_
  refine .foldlM (fun m mem c => ends m c ?_) c
  have held : w.graph.nextNodes n r.output = .ok next := orHalt_eq_ok.1 held
  rw [Graph.eq_occupants_of_nextNodes held] at mem
  exact .of_mem mem rfl

end Step

/-- A walk that is deep enough ends. The induction is on the depth, as each step to a successor or a
node inside takes one level. -/
theorem dispatchWithin_ends (tree : w.graph.IsTree) (hn : n ∈ w.graph.ids)
    (deep : w.graph.Deep depth n) (allowed : Option (List NodeId)) (c : Context) :
    Ends (w.dispatchWithin Node.call depth n allowed c : Walk) := by
  induction depth generalizing n allowed c with
  | zero => exact absurd rfl (deep.ne_zero tree hn)
  | succ depth ih =>
    unfold dispatchWithin
    refine (Ends.orHalt c _ fun f k e => by cases e).bind fun allowed _ => .ite (.pure c) ?_
    refine (dispatchOne_ends w n c).bind fun out _ => ?_
    obtain ⟨r, c⟩ := out
    refine .ite (.pure c) ?_
    have below : ∀ m c, w.graph.occupants.Edge n m →
        Ends (w.dispatchWithin Node.call depth m allowed c : Walk) := fun m c e =>
      ih (tree.mem_of_edge e).2 (deep.below tree e) allowed c
    exact (runInside_ends below r c).bind fun c _ => runNext_ends below r c

/-- The context in which a run starts. -/
def start (w : Workflow) (c : Context) : Context :=
  if c.isSimulation then c else c.withSimulateUntil w.simulateUntil

/-- Without a marker in the context or in the workflow a run starts in the context as it is. -/
theorem start_of_plain {c : Context} (plain : c.simulateUntil = none) (marker : w.simulateUntil = none) :
    w.start c = c := by
  have still : c.withSimulateUntil none = c := by
    rw [← plain]
    rfl
  rw [start, marker, still, ite_self]

/-- A run is the walk from the root, whatever carries it. -/
theorem runWith_of_root {m : Type → Type} [Monad m] [MonadExceptOf Halt m] {r : NodeId}
    (root : w.graph.root = some r) (call : Caller m) (c : Context) :
    w.runWith call c = w.dispatchWithin call w.depthBound r none (w.start c) := by
  rw [runWith, root]
  rfl

/-- A run of a valid workflow is never given up, whatever the services answer. -/
theorem run_ends (w : Workflow) (c : Context) (valid : w.graph.validate = .ok ()) :
    Ends (w.run c) := by
  have tree := Graph.validate_eq_ok_iff.1 valid
  cases root : w.graph.root with
  | none =>
    intro n history e
    rw [run, runWith, root] at e
    cases e
  | some r =>
    have mem : r ∈ w.graph.ids := tree.mem (Graph.mem_occupants_root.2 root)
    rw [run, runWith_of_root root]
    exact dispatchWithin_ends tree mem (w.deep_depthBound r) none _

/-- So the log of a run holds all of its calls. -/
theorem logged_run_ends (w : Workflow) (c : Context) (valid : w.graph.validate = .ok ()) :
    Ends ((w.runWith Node.logged c).run []).1 := by
  rw [run_logged]
  exact run_ends w c valid

/-! ## Other bounds -/

section Congr

variable {m : Type → Type} [Monad m] {α β : Type} {step step' : NodeId → Context → m Context}
  {depth' : Nat}

/-- Two walks over a list agree if their steps agree on its members. -/
theorem foldlM_congr {f g : β → α → m β} {l : List α} (same : ∀ a ∈ l, ∀ b, f b a = g b a)
    (b : β) : l.foldlM f b = l.foldlM g b := by
  induction l generalizing b with
  | nil => rfl
  | cons a l ih =>
    rw [List.foldlM_cons, List.foldlM_cons, same a List.mem_cons_self]
    congr 1
    funext b'
    exact ih (fun a mem => same a (List.mem_cons_of_mem _ mem)) b'

variable [LawfulMonad m] [MonadExceptOf Halt m]

section Step

variable (same : ∀ k c, w.graph.occupants.Edge n k → step k c = step' k c)

include same in
/-- The iterations of a node look at the walks of the nodes inside only. -/
theorem runInside_congr (known : n ∈ w.graph.ids) (r : NodeResult) (c : Context) :
    w.runInside step n r c = w.runInside step' n r c := by
  simp only [runInside, Graph.children_of_mem_ids known, Context.orHalt, pure_bind]
  have inside : ∀ c i, runIteration step n (w.graph.occupants (.child n)) c i =
      runIteration step' n (w.graph.occupants (.child n)) c i := by
    intro c i
    unfold runIteration
    rw [foldlM_congr fun k mem c => same k c (.of_mem mem rfl)]
  rw [show runIteration step n (w.graph.occupants (.child n)) = _ from
    funext fun c => funext fun i => inside c i]

include same in
/-- The part behind a node looks at the walks of its successors only. -/
theorem runNext_congr (known : n ∈ w.graph.ids) (r : NodeResult) (c : Context) :
    w.runNext step n r c = w.runNext step' n r c := by
  simp only [runNext, Graph.nextNodes_of_mem_ids known, Context.orHalt, pure_bind]
  exact foldlM_congr (fun k mem c => same k c (.of_mem mem rfl)) c

end Step

/-- A walk that can go down to every leaf goes the same way if it can go deeper. -/
theorem dispatchWithin_congr (tree : w.graph.IsTree) (known : n ∈ w.graph.ids)
    (deep : w.graph.Deep depth n) (deep' : w.graph.Deep depth' n) (call : Caller m)
    (allowed : Option (List NodeId)) (c : Context) :
    w.dispatchWithin call depth n allowed c = w.dispatchWithin call depth' n allowed c := by
  induction depth generalizing n depth' allowed c with
  | zero => exact absurd rfl (deep.ne_zero tree known)
  | succ depth ih =>
    cases depth' with
    | zero => exact absurd rfl (deep'.ne_zero tree known)
    | succ depth' =>
      have same : ∀ allowed k c, w.graph.occupants.Edge n k →
          w.dispatchWithin call depth k allowed c = w.dispatchWithin call depth' k allowed c :=
        fun allowed k c e =>
          ih (tree.mem_of_edge e).2 (deep.below tree e) (deep'.below tree e) allowed c
      simp only [dispatchWithin]
      congr 1
      funext allowed
      simp only [runInside_congr (same allowed) known, runNext_congr (same allowed) known]

end Congr

/-- A run of a valid workflow may be given up at any depth that has a level for each entry. -/
theorem run_eq_of_le {r : NodeId} {c : Context} (valid : w.graph.validate = .ok ())
    (root : w.graph.root = some r) (le : w.graph.entries.size ≤ depth) :
    w.run c = w.dispatchWithin Node.call depth r none (w.start c) := by
  have tree := Graph.validate_eq_ok_iff.1 valid
  have known : r ∈ w.graph.ids := tree.mem (Graph.mem_occupants_root.2 root)
  rw [run, runWith_of_root root]
  exact dispatchWithin_congr tree known (w.deep_depthBound r) (Graph.deep_of_size_le le r)
    Node.call none _

end Workflow

end Autoflow
