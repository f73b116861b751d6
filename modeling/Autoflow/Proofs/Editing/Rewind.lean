import Autoflow.Proofs.Editing.Requests
import Mathlib.Data.List.Infix

/-!
# Undo and redo

A timeline is a desk with a history, together with the workflows that each action went between
when it was first done. Both stacks of the history read as lists of actions to do again, those
that can be undone through their inverses, and undoing one is redoing it from the other list. A
desk is poised between two such lists if each leads on from its workflow and the trash keeps
what they need. Doing the first action of one list leaves the desk poised, with the inverse on
the other (`Poised.advance`), and so does a request (`Poised.request`), so every undo and redo
succeeds and leads back to where it should (`run_rewinds`).
-/

namespace Autoflow

/-- What can be asked of an editor with a history. -/
inductive Event where
  | request (r : Request)
  | undo
  | redo

/-- An action with the workflows before and after it. -/
structure Mark where
  action : Action
  before : Workflow
  after : Workflow

/-- A desk with a history, and the workflows around each action of it. -/
structure Timeline where
  desk : Desk
  history : History := {}
  /-- The actions that can be undone, the latest first. -/
  done : List Mark := []
  /-- The actions that can be redone, the latest first. -/
  undone : List Mark := []

namespace Timeline

/-- The timeline after an event, whether it succeeded or not. -/
def after (env : Setup) (t : Timeline) : Event → Timeline
  | .request r =>
    match r.perform env t.desk with
    | .ok (_, a) d => ⟨d, t.history.push a, ⟨a, t.desk.workflow, d.workflow⟩ :: t.done, []⟩
    | .error _ d => { t with desk := d }
  | .undo =>
    match t.history.undo env t.desk, t.done with
    | .ok (_, history) d, m :: done => ⟨d, history, done, m :: t.undone⟩
    | .ok (_, history) d, [] => { t with desk := d, history }
    | .error _ d, _ => { t with desk := d }
  | .redo =>
    match t.history.redo env t.desk, t.undone with
    | .ok (_, history) d, m :: undone => ⟨d, history, m :: t.done, undone⟩
    | .ok (_, history) d, [] => { t with desk := d, history }
    | .error _ d, _ => { t with desk := d }

/-- The timeline after several events. -/
def run (env : Setup) (t : Timeline) (events : List Event) : Timeline := events.foldl (after env) t

end Timeline

/-- The same graph up to order and the same live nodes. -/
structure Workflow.Alike (w w' : Workflow) : Prop where
  graph : w.graph.Alike w'.graph
  nodes : w.nodes = w'.nodes

namespace Action

/-- An action as far as doing it again goes: a copy comes back like any node that was created. -/
def plain : Action → Action
  | duplicate _ n => create n
  | a => a

variable (a : Action)

/-- Doing an action again does not tell a copy from a creation, -/
theorem redo_plain (env : Setup) : a.plain.redo env = a.redo env := by
  cases a <;> rfl

/-- so to invert it twice gives the action but for that, -/
theorem inverse_inverse : a.inverse.inverse = a.plain := by
  cases a <;> rfl

/-- and to invert it once does not depend on it. -/
theorem inverse_plain : a.plain.inverse = a.inverse := by
  cases a <;> rfl

end Action

namespace Mark

/-- An action with workflows that it spans. -/
structure Sound (registry : Registry) (m : Mark) : Prop where
  before : m.before.Neat registry
  after : m.after.Neat registry
  pruned : m.before.graph.Pruned
  pruned' : m.after.graph.Pruned
  spans : m.action.Spans registry m.before m.after

/-- The way back. -/
def inverse (m : Mark) : Mark := ⟨m.action.inverse, m.after, m.before⟩

/-- The way on, as far as doing it again goes. -/
def plain (m : Mark) : Mark := { m with action := m.action.plain }

/-- What an action takes out of the trash is kept there. -/
def Kept (m : Mark) (trash : Trash) : Prop := m.action.Kept m.after trash

/-- Two actions take different nodes out of the trash. -/
def Apart (m m' : Mark) : Prop := ∀ n, m.action.wanted = some n → m'.action.wanted ≠ some n

variable {registry : Registry} {m m' : Mark}

/-- What an action spans is spanned by its inverse, the other way round. -/
theorem Sound.inverse (h : m.Sound registry) : m.inverse.Sound registry :=
  ⟨h.after, h.before, h.pruned', h.pruned, h.spans.inverse⟩

/-- Two actions that want different nodes do so in both directions. -/
theorem Apart.symm (h : m.Apart m') : m'.Apart m := fun n wanted wanted' => h n wanted' wanted

theorem inverse_inverse (m : Mark) : m.inverse.inverse = m.plain := by
  simp only [inverse, plain, Action.inverse_inverse]

theorem inverse_plain (m : Mark) : m.plain.inverse = m.inverse := by
  simp only [inverse, plain, Action.inverse_plain]

end Mark

namespace Desk

/-- Actions that lead on from a workflow, one after the other. -/
def Chain (registry : Registry) (w : Workflow) : List Mark → Prop
  | [] => True
  | m :: marks => w.Matches m.before ∧ m.Sound registry ∧ Chain registry m.after marks

/-- A desk from where two lists of actions lead on. -/
structure Poised (registry : Registry) (drawn : Nat) (d : Desk) (past future : List Mark) :
    Prop where
  tidy : d.Tidy registry drawn
  neat : d.workflow.Neat registry
  pruned : d.workflow.graph.Pruned
  behind : Chain registry d.workflow past
  ahead : Chain registry d.workflow future
  kept : ∀ m ∈ past ++ future, m.Kept d.editor.trash
  apart : (past ++ future).Pairwise Mark.Apart

variable {registry : Registry} {drawn : Nat} {d d' : Desk} {w w' : Workflow} {m : Mark}
  {past future : List Mark}

/-- A chain goes on from any workflow that matches. -/
theorem Chain.congr (h : Chain registry w future) (same : w'.Matches w) :
    Chain registry w' future := by
  cases future with
  | nil => trivial
  | cons m future => exact ⟨same.trans h.1, h.2⟩

namespace Poised

/-- The actions that can be undone and those that can be redone play the same part, the other way
round. -/
theorem symm (h : Poised registry drawn d past future) : Poised registry drawn d future past where
  tidy := h.tidy
  neat := h.neat
  pruned := h.pruned
  behind := h.ahead
  ahead := h.behind
  kept m hm := h.kept m (List.mem_append.2 (List.mem_append.1 hm).symm)
  apart := (List.perm_append_comm.pairwise_iff Mark.Apart.symm).2 h.apart

/-- The workflow on a poised desk is the one from which the first action leads on. -/
theorem alike (h : Poised registry drawn d past (m :: future)) : d.workflow.Alike m.before := by
  obtain ⟨here, sound, _⟩ := h.ahead
  refine ⟨h.pruned.alike sound.pruned (fun n => ?_) here.layout, here.nodes⟩
  rw [h.neat.ids, here.nodes, sound.before.ids]

/-- Nothing happened to a poised desk. -/
theorem of_idle (h : Poised registry drawn d past future) (idle : Idle d d') :
    ∃ k, k ≤ drawn + 1 ∧ Poised registry k d' past future := by
  obtain ⟨k, _, le, tidy⟩ := h.tidy.of_idle idle
  refine ⟨k, le, ?_⟩
  rcases idle with rfl | rfl
  · exact { h with tidy }
  · exact ⟨tidy, h.neat, h.pruned, h.behind, h.ahead, h.kept, h.apart⟩

/-- An action was done that takes nothing out of the trash that others need. -/
theorem follow (tidy : d.Tidy registry drawn) (pruned : d.workflow.graph.Pruned) {drawn' : Nat}
    (did : Did registry drawn' m.action m.before m.after d d') (sound : m.Sound registry)
    (behind : Chain registry m.before past) (ahead : Chain registry m.after future)
    (kept : ∀ m' ∈ past ++ future, m'.Kept d.editor.trash)
    (apart : (past ++ future).Pairwise Mark.Apart)
    (unwanted : ∀ m' ∈ past ++ future, m.Apart m') :
    Poised registry drawn' d' (m.inverse :: past) future := by
  have unthrown : ∀ m' ∈ past ++ future, m.inverse.Apart m' := by
    intro m' hm' n wanted wanted'
    exact (kept m' hm').trashed wanted' (tidy.apart n (did.live n wanted))
  refine ⟨did.tidy, did.reached.neat did.tidy.fits sound.after, did.pruned pruned,
    ⟨did.reached, sound.inverse, behind⟩, ahead.congr did.reached, fun m' hm' => ?_,
    List.pairwise_cons.2 ⟨unthrown, apart⟩⟩
  rcases List.mem_cons.1 hm' with rfl | hm'
  · exact did.kept
  · refine (kept m' hm').congr fun n wanted => did.trash n (fun e => ?_) (fun e => ?_)
    · exact unwanted m' hm' n e wanted
    · exact unthrown m' hm' n e wanted

section Steps

variable {env : Setup} (accepting : env.Accepting) (named : env.registry.Named)
  (scripts : env.registry.Scripts)

include accepting scripts in
/-- The first action of a list is done again, and the way back is the first of the other list. -/
theorem advance (h : Poised env.registry drawn d past (m :: future)) :
    ∃ d', m.action.redo env d = .ok () d' ∧
      Poised env.registry drawn d' (m.inverse :: past) future := by
  obtain ⟨here, sound, rest⟩ := h.ahead
  have apart := (List.perm_middle.pairwise_iff Mark.Apart.symm).1 h.apart
  obtain ⟨unwanted, apart⟩ := List.pairwise_cons.1 apart
  have kept : ∀ m' ∈ m :: (past ++ future), m'.Kept d.editor.trash := fun m' hm' =>
    h.kept m' (List.perm_middle.mem_iff.2 hm')
  obtain ⟨d', run, did⟩ := redo_did accepting h.tidy here sound.before sound.after scripts
    sound.spans (kept m List.mem_cons_self)
  exact ⟨d', run, follow h.tidy h.pruned did sound (h.behind.congr here.symm) rest
    (fun m' hm' => kept m' (List.mem_cons_of_mem _ hm')) apart unwanted⟩

include accepting named scripts in
/-- A request that succeeds leaves the desk poised with nothing ahead. -/
theorem request (h : Poised env.registry drawn d past future) (room : drawn < UInt64.size)
    (plain : d.workflow.OnlyRoutersBranch env.registry) {r : Request} {shown : Option Node}
    {a : Action} (run : r.perform env d = .ok (shown, a) d') :
    ∃ k, k ≤ drawn + 1 ∧ Poised env.registry k d'
      (Mark.inverse ⟨a, d.workflow, d'.workflow⟩ :: past) [] := by
  obtain ⟨k, le, requested⟩ :=
    request_requested accepting named scripts h.tidy h.neat plain room run
  have kept : ∀ m' ∈ past ++ [], m'.Kept d.editor.trash := by
    intro m' hm'
    rw [List.append_nil] at hm'
    exact h.kept m' (List.mem_append_left _ hm')
  have apart : (past ++ []).Pairwise Mark.Apart := by
    rw [List.append_nil]
    exact (List.pairwise_append.1 h.apart).1
  have sound : Mark.Sound env.registry ⟨a, d.workflow, d'.workflow⟩ :=
    ⟨h.neat, requested.neat, h.pruned, requested.did.pruned h.pruned, requested.spans⟩
  refine ⟨k, le, follow h.tidy h.pruned requested.did sound h.behind trivial kept apart ?_⟩
  intro m' hm' n wanted wanted'
  exact (kept m' hm').trashed wanted' (requested.fresh n wanted)

end Steps

end Poised

end Desk

namespace Timeline

open Desk

/-- Undo and redo succeed as long as there is something to undo or redo. They lead to the workflow
before the action and to the one after it. -/
structure Rewinds (env : Setup) (t : Timeline) : Prop where
  undoable : t.history.undoable = t.done.map Mark.action
  redoable : t.history.redoable = t.undone.map Mark.action
  undo : ∀ m done, t.done = m :: done → ∃ history d,
    t.history.undo env t.desk = .ok (some m.action, history) d ∧ d.workflow.Alike m.before
  redo : ∀ m undone, t.undone = m :: undone → ∃ history d,
    t.history.redo env t.desk = .ok (some m.action, history) d ∧ d.workflow.Alike m.after

/-- The desk is poised between the actions that can be undone and those that can be redone. -/
structure Steady (registry : Registry) (drawn : Nat) (t : Timeline) : Prop where
  undoable : t.history.undoable = t.done.map Mark.action
  redoable : t.history.redoable = t.undone.map Mark.action
  poised : Poised registry drawn t.desk (t.done.map Mark.inverse) (t.undone.map Mark.plain)

variable {env : Setup} {drawn : Nat} {t : Timeline} {m : Mark} {marks : List Mark}

section Steps

variable (accepting : env.Accepting) (named : env.registry.Named)
  (scripts : env.registry.Scripts)

include accepting scripts in
/-- The latest action that can be undone is undone, and it is the next one to redo. -/
theorem Steady.undo (h : t.Steady env.registry drawn) (done : t.done = m :: marks) :
    ∃ history d, t.history.undo env t.desk = .ok (some m.action, history) d ∧
      Steady env.registry drawn ⟨d, history, marks, m :: t.undone⟩ := by
  have poised := h.poised.symm
  rw [done, List.map_cons] at poised
  obtain ⟨d, run, poised⟩ := poised.advance accepting scripts
  rw [Mark.inverse_inverse, ← List.map_cons] at poised
  have undo : t.history.undo env t.desk =
      .ok (some m.action, ⟨marks.map Mark.action, m.action :: t.history.redoable⟩) d := by
    have undoable := h.undoable
    rw [done, List.map_cons] at undoable
    unfold History.undo
    rw [undoable]
    refine Edit.bind_eq_ok.2 ⟨(), d, ?_, rfl⟩
    rw [Action.undo_eq_redo]
    exact run
  exact ⟨_, d, undo, rfl, by rw [h.redoable]; rfl, poised.symm⟩

include accepting scripts in
/-- The latest one that can be redone is redone, and it is the next one to undo. -/
theorem Steady.redo (h : t.Steady env.registry drawn) (undone : t.undone = m :: marks) :
    ∃ history d, t.history.redo env t.desk = .ok (some m.action, history) d ∧
      Steady env.registry drawn ⟨d, history, m :: t.done, marks⟩ := by
  have poised := h.poised
  rw [undone, List.map_cons] at poised
  obtain ⟨d, run, poised⟩ := poised.advance accepting scripts
  rw [Mark.inverse_plain, ← List.map_cons] at poised
  have redo : t.history.redo env t.desk =
      .ok (some m.action, ⟨m.action :: t.history.undoable, marks.map Mark.action⟩) d := by
    have redoable := h.redoable
    rw [undone, List.map_cons] at redoable
    unfold History.redo
    rw [redoable]
    refine Edit.bind_eq_ok.2 ⟨(), d, ?_, rfl⟩
    rw [← Action.redo_plain]
    exact run
  exact ⟨_, d, redo, by rw [h.undoable]; rfl, rfl, poised⟩

include accepting scripts in
/-- From a steady timeline everything can be undone and redone, step by step. -/
theorem Steady.rewinds (h : t.Steady env.registry drawn) : t.Rewinds env where
  undoable := h.undoable
  redoable := h.redoable
  undo m done e := by
    obtain ⟨history, d, run, steady⟩ := h.undo accepting scripts e
    exact ⟨history, d, run, steady.poised.alike⟩
  redo m undone e := by
    obtain ⟨history, d, run, steady⟩ := h.redo accepting scripts e
    exact ⟨history, d, run, steady.poised.symm.alike⟩

include accepting named scripts in
/-- Every event keeps a timeline steady and draws at most one id. -/
theorem Steady.step (h : t.Steady env.registry drawn) (room : drawn < UInt64.size)
    (plain : t.desk.workflow.OnlyRoutersBranch env.registry) (e : Event) :
    ∃ k, k ≤ drawn + 1 ∧ (t.after env e).Steady env.registry k := by
  cases e with
  | request r =>
    cases run : r.perform env t.desk with
    | ok result d =>
      obtain ⟨shown, a⟩ := result
      obtain ⟨k, le, poised⟩ := h.poised.request accepting named scripts room plain run
      refine ⟨k, le, ?_⟩
      simp only [after, run]
      exact ⟨by rw [History.push, h.undoable]; rfl, rfl, poised⟩
    | error f d =>
      obtain ⟨k, le, poised⟩ := h.poised.of_idle (Edit.request_error accepting run)
      refine ⟨k, le, ?_⟩
      simp only [after, run]
      exact ⟨h.undoable, h.redoable, poised⟩
  | undo =>
    refine ⟨drawn, Nat.le_succ _, ?_⟩
    cases done : t.done with
    | nil =>
      have run : t.history.undo env t.desk = .ok (none, t.history) t.desk := by
        have undoable := h.undoable
        rw [done, List.map_nil] at undoable
        unfold History.undo
        rw [undoable]
        rfl
      simp only [after, run, done]
      exact done ▸ h
    | cons m marks =>
      obtain ⟨history, d, run, steady⟩ := h.undo accepting scripts done
      simp only [after, run, done]
      exact steady
  | redo =>
    refine ⟨drawn, Nat.le_succ _, ?_⟩
    cases undone : t.undone with
    | nil =>
      have run : t.history.redo env t.desk = .ok (none, t.history) t.desk := by
        have redoable := h.redoable
        rw [undone, List.map_nil] at redoable
        unfold History.redo
        rw [redoable]
        rfl
      simp only [after, run, undone]
      exact undone ▸ h
    | cons m marks =>
      obtain ⟨history, d, run, steady⟩ := h.redo accepting scripts undone
      simp only [after, run, undone]
      exact steady

include accepting named scripts in
/-- The run lemma, by induction on the events: a timeline stays steady, with one id for each event
at most. -/
theorem Steady.run (h : t.Steady env.registry drawn) (events : List Event)
    (room : drawn + events.length ≤ UInt64.size) (plain : ∀ past, past <+: events →
      (t.run env past).desk.workflow.OnlyRoutersBranch env.registry) :
    ∃ k, (t.run env events).Steady env.registry k := by
  induction events generalizing t drawn with
  | nil => exact ⟨drawn, h⟩
  | cons e events ih =>
    rw [List.length_cons] at room
    obtain ⟨k, le, steady⟩ :=
      h.step accepting named scripts (by omega) (plain [] List.nil_prefix) e
    exact ih steady (by omega) fun past before =>
      plain (e :: past) (List.cons_prefix_cons.2 ⟨rfl, before⟩)

end Steps

/-- A new editor with an empty workflow and an empty history. -/
def start (nodeCache : Bool) (id : WorkflowId) (name : String) : Timeline where
  desk := .start nodeCache id name

/-- An empty desk without a history is steady. -/
theorem steady_start (registry : Registry) (nodeCache : Bool) (id : WorkflowId) (name : String) :
    (start nodeCache id name).Steady registry 0 := by
  have tidy := Desk.tidy_start registry nodeCache id name
  have empty : ∀ s, Graph.empty.occupants s = [] := by
    intro s
    cases s <;> rfl
  have neat : (Desk.start nodeCache id name).workflow.Neat registry :=
    ⟨tidy.fits, fun s => (congrArg List.length (empty s)).trans_le (Nat.zero_le 1),
      fun held => absurd (empty _) held, nofun⟩
  refine ⟨rfl, rfl, tidy, neat, Graph.pruned_empty, trivial, trivial, ?_, List.Pairwise.nil⟩
  intro m hm
  exact absurd hm List.not_mem_nil

/-- Every undo and redo succeeds in every session that starts with an empty workflow, as long as
only routers expose outputs besides the default one. Ids are counted in 64 bits, so the events
must not be more than there are ids. -/
theorem run_rewinds (branchUid : Nat → String) (nodeCache : Bool) (id : WorkflowId) (name : String)
    (events : List Event) (room : events.length ≤ UInt64.size) (plain : ∀ past, past <+: events →
      ((start nodeCache id name).run (.builtin branchUid) past).desk.workflow.OnlyRoutersBranch
        .builtin) :
    ((start nodeCache id name).run (.builtin branchUid) events).Rewinds (.builtin branchUid) := by
  have accepting : (Setup.builtin branchUid).Accepting := fun _ => rfl
  have start := steady_start .builtin nodeCache id name
  obtain ⟨k, steady⟩ := start.run accepting Registry.named_builtin Registry.scripts_builtin events
    (by omega) plain
  exact steady.rewinds accepting Registry.scripts_builtin

/-- A session around a router, in which one request is refused. -/
def branching : List Event := [
  .request (.create "periodic" {} .root), .request (.create "router" {} (.south 1 "")),
  .request (.create "create_row" {} (.south 2 "branch")), .request (.move 3 (.child 1)),
  .request (.update 3 { label := some "Row" }), .request (.replace 3 "http_request" none),
  .undo, .undo, .redo, .request (.move 3 (.south 1 "")), .request (.delete 2 none), .undo, .undo]

/-- In the end four actions are left to undo and two to redo, and each of them works. -/
theorem run_rewinds_branching :
    ((start true 1 "Sample").run (.builtin fun _ => "branch") branching).done.length = 4 ∧
      ((start true 1 "Sample").run (.builtin fun _ => "branch") branching).undone.length = 2 ∧
      ((start true 1 "Sample").run (.builtin fun _ => "branch") branching).Rewinds
        (.builtin fun _ => "branch") := by
  have plain : ∀ past ∈ branching.inits, ((start true 1 "Sample").run
      (.builtin fun _ => "branch") past).desk.workflow.OnlyRoutersBranch .builtin := by
    decide +kernel
  refine ⟨by decide +kernel, by decide +kernel, run_rewinds _ _ _ _ _ (by decide) ?_⟩
  exact fun past before => plain past ((List.mem_inits _ _).2 before)

end Timeline

end Autoflow
