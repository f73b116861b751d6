import Autoflow.Run.Walk

/-!
# The service calls of a run

The walk runs in any monad in which services are called. In `Logged` every call is written down
before it is made, with the node and the context that the service gets, and `Workflow.calls` is
the log of a run. Writing it changes nothing: without the log, the run is the same
(`run_logged`). `Meets` is the triple for logged programs, with a postcondition for each way to
end. `Safe` is the instance in which all calls keep a property and results have another one.
-/

namespace Autoflow

/-- A call of a service. -/
structure ServiceCall where
  node : Node
  context : Context

/-- Programs that may end a run and write down service calls, also those before the end. -/
abbrev Logged := ExceptT Halt (StateM (List ServiceCall))

/-- Calls the service of a node and writes that down. -/
def Node.logged : Caller Logged := fun node c => do
  modify fun log => log ++ [⟨node, c⟩]
  Node.call node c

/-- The service calls of a run, in order. -/
def Workflow.calls (w : Workflow) (c : Context) : List ServiceCall :=
  ((w.runWith Node.logged c).run []).2

variable {α β γ : Type}

/-- A program that goes on with the result of another one is run on the log that this one left, and
not at all if the run has ended. -/
theorem Logged.run_bind (x : Logged α) (f : α → Logged β) (log : List ServiceCall) :
    (x >>= f).run log = match (x.run log).1 with
      | .ok a => (f a).run (x.run log).2
      | .error e => (.error e, (x.run log).2) := by
  simp only [bind, ExceptT.bind, ExceptT.mk, ExceptT.bindCont, ExceptT.run, StateT.bind]
  rcases x log with ⟨r, l⟩
  cases r <;> rfl

/-! ## Leaving out the log -/

/-- A logged program is a plain one when the log is left out. -/
def Erases (x : Logged α) (y : Except Halt α) : Prop := ∀ log, (x.run log).1 = y

namespace Erases

theorem pure (a : α) : Erases (Pure.pure a) (Pure.pure a) := fun _ => rfl

theorem throw (e : Halt) : Erases (MonadExceptOf.throw e : Logged α) (MonadExceptOf.throw e) :=
  fun _ => rfl

theorem bind {x : Logged α} {y : Except Halt α} {f : α → Logged β} {g : α → Except Halt β}
    (h : Erases x y) (h' : ∀ a, Erases (f a) (g a)) : Erases (x >>= f) (y >>= g) := by
  intro log
  have first := h log
  rw [Logged.run_bind, first]
  cases y with
  | error e => rfl
  | ok a => exact h' a _

/-- A loop erases to a loop if its steps do. -/
theorem foldlM {f : β → γ → Logged β} {g : β → γ → Except Halt β}
    (h : ∀ b c, Erases (f b c) (g b c)) (l : List γ) (b : β) :
    Erases (l.foldlM f b) (l.foldlM g b) := by
  induction l generalizing b with
  | nil => exact pure b
  | cons c l ih =>
    rw [List.foldlM_cons, List.foldlM_cons]
    exact (h b c).bind ih

theorem ite {p : Prop} [Decidable p] {x x' : Logged α} {y y' : Except Halt α}
    (h : Erases x y) (h' : Erases x' y') :
    Erases (if p then x else x') (if p then y else y') := by
  split
  · exact h
  · exact h'

/-- Asking for something writes nothing down. -/
theorem orHalt {ε : Type} (c : Context) (toFailure : ε → Failure) (r : Except ε α) :
    Erases (c.orHalt toFailure r) (c.orHalt toFailure r) := by
  cases r with
  | ok a => exact pure a
  | error e => exact throw _

end Erases

namespace Workflow

variable {w : Workflow} {step : NodeId → Context → Logged Context} {step' : NodeId → Context → Walk}

/-- The one place where the two walks differ: the call is written down before it is made. -/
theorem dispatchOne_erases (w : Workflow) (n : NodeId) (c : Context) :
    Erases (w.dispatchOne Node.logged n c) (w.dispatchOne Node.call n c) := by
  unfold dispatchOne
  refine (Erases.orHalt _ _ _).bind fun node => .bind ?_ fun answer => ?_
  · exact fun _ => rfl
  · exact (Erases.orHalt _ _ _).bind fun r => .pure _

/-- What lies inside a node is run the same way if each step is. -/
theorem runInside_erases (h : ∀ n c, Erases (step n c) (step' n c)) (n : NodeId) (r : NodeResult)
    (c : Context) : Erases (w.runInside step n r c) (w.runInside step' n r c) := by
  unfold runInside
  refine (Erases.orHalt _ _ _).bind fun children => .ite (.pure c) ?_
  refine .bind ?_ fun count => .foldlM (fun c i => ?_) _ c
  · unfold iterations
    split
    · exact .throw _
    · exact .pure _
  · unfold runIteration
    exact (Erases.foldlM (fun c child => h child c) children _).bind fun inner => .pure _

/-- So are the successors of a node. -/
theorem runNext_erases (h : ∀ n c, Erases (step n c) (step' n c)) (n : NodeId) (r : NodeResult)
    (c : Context) : Erases (w.runNext step n r c) (w.runNext step' n r c) := by
  unfold runNext
  exact (Erases.orHalt _ _ _).bind fun next => .foldlM (fun c below => h below c) next c

/-- By induction on the depth, a whole walk goes the same way with the log and without. -/
theorem dispatchWithin_erases (w : Workflow) (depth : Nat) (n : NodeId)
    (allowed : Option (List NodeId)) (c : Context) :
    Erases (w.dispatchWithin Node.logged depth n allowed c)
      (w.dispatchWithin Node.call depth n allowed c) := by
  induction depth generalizing n allowed c with
  | zero => exact .throw _
  | succ depth ih =>
    unfold dispatchWithin
    refine (Erases.orHalt _ _ _).bind fun allowed => .ite (.pure c) ?_
    refine (dispatchOne_erases w n c).bind fun ⟨r, c⟩ => .ite (.pure c) ?_
    refine (runInside_erases (fun n c => ih n allowed c) n r c).bind fun c => ?_
    exact runNext_erases (fun n c => ih n allowed c) n r c

/-- A run goes the same way when its service calls are written down. -/
theorem run_logged (w : Workflow) (c : Context) :
    ((w.runWith Node.logged c).run []).1 = w.run c := by
  unfold run runWith
  split
  · rfl
  · exact dispatchWithin_erases w _ _ _ _ []

end Workflow

/-! ## One call -/

namespace Workflow

variable {w : Workflow} {n : NodeId}

/-- A dispatch of a node that is not there calls nothing. -/
theorem dispatchOne_run_of_absent (absent : w.nodes.get? n = none) (c : Context)
    (log : List ServiceCall) : (w.dispatchOne Node.logged n c).run log =
      (.error ⟨.node (.doesNotExist n), c.history⟩, log) := by
  simp only [dispatchOne, node, absent]
  rfl

/-- A dispatch of a live node is one call. -/
theorem dispatchOne_run {node : Node} (live : w.nodes.get? n = some node) (c : Context)
    (log : List ServiceCall) : (w.dispatchOne Node.logged n c).run log =
      ((match node.service.dispatch node.toNodeInfo c with
        | .ok r => .ok (r, c.afterDispatch n r)
        | .error fault => .error ⟨.run (fault.toRunFault n), c.history⟩), log ++ [⟨node, c⟩]) := by
  have found : w.node n = .ok node := by simp [Workflow.node, live]
  have called : (Node.logged node c).run log =
      (.ok (node.service.dispatch node.toNodeInfo c), log ++ [⟨node, c⟩]) := rfl
  rw [dispatchOne, found, show (c.orHalt Failure.node (.ok node) : Logged Node) = pure node from rfl,
    pure_bind, Logged.run_bind, called]
  cases node.service.dispatch node.toNodeInfo c with
  | ok r => rfl
  | error fault => rfl

end Workflow

/-! ## Programs with pre- and postconditions -/

/-- From calls with a precondition, a program has a result with one postcondition or ends the run
with another one, both about the calls that are written down then. -/
def Meets (P : List ServiceCall → Prop) (x : Logged α) (Q : α → List ServiceCall → Prop)
    (E : Halt → List ServiceCall → Prop) : Prop :=
  ∀ log, P log → match x.run log with
    | (.ok a, log') => Q a log'
    | (.error halt, log') => E halt log'

namespace Meets

variable {P : List ServiceCall → Prop} {Q : α → List ServiceCall → Prop}
  {R : β → List ServiceCall → Prop} {E : Halt → List ServiceCall → Prop}

theorem pure {a : α} (h : ∀ log, P log → Q a log) : Meets P (Pure.pure a) Q E := h

/-- A program that ends the run owes its second postcondition. -/
theorem throw {e : Halt} (h : ∀ log, P log → E e log) :
    Meets P (MonadExceptOf.throw e : Logged α) Q E := h

/-- A weaker precondition will do. -/
theorem pre {P' : List ServiceCall → Prop} {x : Logged α} (h : Meets P x Q E)
    (le : ∀ log, P' log → P log) : Meets P' x Q E := fun log start => h log (le log start)

/-- What holds after the first part is what the second one may start from. If the first part ends
the run, the second one is left out and the calls stay as they are. -/
theorem bind {x : Logged α} {f : α → Logged β} (h : Meets P x Q E)
    (h' : ∀ a, Meets (Q a) (f a) R E) : Meets P (x >>= f) R E := by
  intro log start
  have first := h log start
  rw [show (x >>= f).run log = _ from Logged.run_bind x f log]
  split at first
  · next a log' e =>
    rw [e]
    exact h' a log' first
  · next halt log' e =>
    rw [e]
    exact first

theorem ite {p : Prop} [Decidable p] {x y : Logged α} (h : p → Meets P x Q E)
    (h' : ¬ p → Meets P y Q E) : Meets P (if p then x else y) Q E := by
  split
  · next hp => exact h hp
  · next hp => exact h' hp

/-- What is asked for is there, or the run ends with the failure that says that it is not. -/
theorem orHalt {ε : Type} {c : Context} {toFailure : ε → Failure} {r : Except ε α}
    (ok : ∀ a, r = .ok a → ∀ log, P log → Q a log)
    (error : ∀ e, r = .error e → ∀ log, P log → E ⟨toFailure e, c.history⟩ log) :
    Meets P (c.orHalt toFailure r) Q E := by
  cases r with
  | ok a => exact ok a rfl
  | error e => exact error e rfl

/-- What each step of a loop keeps holds at its end. -/
theorem foldlM {I : β → List ServiceCall → Prop} {step : β → α → Logged β} {l : List α}
    (each : ∀ a ∈ l, ∀ b, Meets (I b) (step b a) I E) (b : β) :
    Meets (I b) (l.foldlM step b) I E := by
  induction l generalizing b with
  | nil => exact .pure fun _ held => held
  | cons a l ih =>
    rw [List.foldlM_cons]
    exact (each a List.mem_cons_self b).bind fun b' =>
      ih (fun a mem => each a (List.mem_cons_of_mem _ mem)) b'

end Meets

/-! ## Properties of all calls -/

/-- All calls of a program have a property if those before it do, and its result, if there is
one, has another. -/
def Safe (P : ServiceCall → Prop) (x : Logged α) (Q : α → Prop) : Prop :=
  Meets (fun log => ∀ call ∈ log, P call) x (fun a log => (∀ call ∈ log, P call) ∧ Q a)
    fun _ log => ∀ call ∈ log, P call

namespace Safe

variable {P : ServiceCall → Prop} {Q Q' : α → Prop} {R : β → Prop}

/-- Whichever way the program ends, its calls have the property. -/
theorem calls {x : Logged α} (h : Safe P x Q) : ∀ call ∈ (x.run []).2, P call := by
  have ended := h [] fun _ mem => (List.not_mem_nil mem).elim
  split at ended
  · next e =>
    rw [e]
    exact ended.1
  · next e =>
    rw [e]
    exact ended

theorem pure {a : α} (h : Q a) : Safe P (Pure.pure a) Q := fun _ safe => ⟨safe, h⟩

theorem throw (e : Halt) : Safe P (MonadExceptOf.throw e : Logged α) Q := fun _ safe => safe

/-- The second part is asked to be safe only for results that the first one can have. -/
theorem bind {x : Logged α} {f : α → Logged β} (h : Safe P x Q)
    (h' : ∀ a, Q a → Safe P (f a) R) : Safe P (x >>= f) R :=
  Meets.bind h fun a log held => h' a held.2 log held.1

/-- A result may be known to have less. -/
theorem mono {x : Logged α} (h : Safe P x Q) (le : ∀ a, Q a → Q' a) : Safe P x Q' := by
  have same : x >>= Pure.pure = x := bind_pure x
  rw [← same]
  exact h.bind fun a post => .pure (le a post)

theorem ite {p : Prop} [Decidable p] {x y : Logged α} (h : p → Safe P x Q)
    (h' : ¬ p → Safe P y Q) : Safe P (if p then x else y) Q := Meets.ite h h'

theorem orHalt {ε : Type} (c : Context) (toFailure : ε → Failure) (r : Except ε α) :
    Safe P (c.orHalt toFailure r) fun a => r = .ok a :=
  Meets.orHalt (fun _ e _ safe => ⟨safe, e⟩) fun _ _ _ safe => safe

/-- A call is safe if it has the property itself. The answer may be anything. -/
theorem logged {node : Node} {c : Context} (h : P ⟨node, c⟩) :
    Safe P (Node.logged node c) fun _ => True := by
  intro log safe
  refine ⟨fun call mem => ?_, trivial⟩
  rcases List.mem_append.1 mem with mem | mem
  · exact safe call mem
  · rw [List.mem_singleton.1 mem]
    exact h

end Safe

end Autoflow
