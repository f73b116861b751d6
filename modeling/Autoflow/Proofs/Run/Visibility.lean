import Mathlib.Data.List.Forall2
import Autoflow.Proofs.Graph.Validation
import Autoflow.Proofs.Run.Calls
import Autoflow.Proofs.Run.Records

/-!
# What a service sees of a run

The results of a context are those of the records whose iterations agree with its own. Every
walk keeps this (`Coherent`) as long as no record is about a task that is still to come
(`Ready`): the records that a walk adds are covered by its tasks (`Grown`), and tasks of a tree
are apart. The walk is a logged program, so the property holds of every service call of a run,
whether or not the run succeeds (`calls_show`). The records are those of the calls before it
(`calls_recorded`).
-/

namespace Autoflow

/-- A map has all that another one has. -/
def NodeMap.Within {ν : Type} (u v : NodeMap ν) : Prop := ∀ p ∈ u.toList, v.get? p.1 = some p.2

instance {ν : Type} [DecidableEq ν] (u v : NodeMap ν) : Decidable (u.Within v) :=
  inferInstanceAs (Decidable (∀ p ∈ u.toList, v.get? p.1 = some p.2))

namespace NodeMap

variable {ν : Type} {u v : NodeMap ν}

theorem within_iff : u.Within v ↔ ∀ k x, u.get? k = some x → v.get? k = some x := by
  constructor
  · intro h k x hx
    exact h (k, x) ((Assoc.mem_iff_find? (nodup_keys u.sorted)).2 hx)
  · rintro h ⟨k, x⟩ mem
    exact h k x ((Assoc.mem_iff_find? (nodup_keys u.sorted)).1 mem)

/-- Maps with the same keys are equal if one is within the other. -/
theorem Within.eq (h : u.Within v) (keys : ∀ k, k ∈ u.ids ↔ k ∈ v.ids) : u = v := by
  refine ext_get? fun k => ?_
  cases hv : v.get? k with
  | none => exact get?_eq_none_iff.2 fun mem => get?_eq_none_iff.1 hv ((keys k).1 mem)
  | some x =>
    obtain ⟨y, hy⟩ := mem_ids_iff.1 ((keys k).2 (mem_ids_iff.2 ⟨x, hv⟩))
    rw [hy, ← within_iff.1 h k y hy, hv]

end NodeMap

/-- The records of a node in the iterations of a context or around them. -/
def Context.visible (c : Context) (m : NodeId) : List Record :=
  c.history.filter fun R => R.node = m ∧ R.iterations.Within c.iterations

/-- What a context shows of a node is the result of the one visible record of it, or nothing. -/
def Context.Shows (c : Context) (m : NodeId) : Prop :=
  (c.visible m).map Record.result = (c.result? m).toList

variable {L : Layout} {D : Set NodeId} {t : Task} {tasks more : List Task} {c c' c'' : Context}
  {n m : NodeId} {i count : Nat} {output : String}

/-- A context whose records are keyed by containers and that shows what it should. -/
structure Coherent (L : Layout) (c : Context) : Prop where
  placed : ∀ R ∈ c.history, L.Placed R.task
  shows : ∀ m, c.Shows m

/-- A context in which tasks can be run: none of what they cover has happened. -/
structure Ready (L : Layout) (tasks : List Task) (c : Context) : Prop extends Coherent L c where
  apart : tasks.Pairwise L.Apart
  waiting : ∀ t ∈ tasks, L.Placed t
  fresh : ∀ t ∈ tasks, ∀ R ∈ c.history, ¬ L.Covers t R.task

/-- A part of a run keeps the iterations and adds only records that its tasks cover. -/
structure Grown (L : Layout) (tasks : List Task) (c c' : Context) : Prop extends
    Coherent L c' where
  iterations : c'.iterations = c.iterations
  history : ∃ l, c'.history = c.history ++ l ∧ ∀ R ∈ l, ∃ t ∈ tasks, L.Covers t R.task

namespace Grown

theorem refl (h : Coherent L c) : Grown L tasks c c :=
  ⟨h, rfl, [], (List.append_nil _).symm, fun _ mem => by cases mem⟩

theorem append (h : Grown L tasks c c') (h' : Grown L more c' c'') :
    Grown L (tasks ++ more) c c'' := by
  obtain ⟨l, e, covered⟩ := h.history
  obtain ⟨l', e', covered'⟩ := h'.history
  refine ⟨h'.toCoherent, h'.iterations.trans h.iterations, l ++ l', ?_, fun R mem => ?_⟩
  · rw [e', e, List.append_assoc]
  · rcases List.mem_append.1 mem with mem | mem
    · obtain ⟨t, ht, cov⟩ := covered R mem
      exact ⟨t, List.mem_append_left _ ht, cov⟩
    · obtain ⟨t, ht, cov⟩ := covered' R mem
      exact ⟨t, List.mem_append_right _ ht, cov⟩

end Grown

namespace Ready

theorem left (h : Ready L (tasks ++ more) c) : Ready L tasks c :=
  ⟨h.toCoherent, (List.pairwise_append.1 h.apart).1,
    fun t ht => h.waiting t (List.mem_append_left _ ht),
    fun t ht => h.fresh t (List.mem_append_left _ ht)⟩

/-- Tasks wait while others that are apart from them run. -/
theorem right (h : Ready L (tasks ++ more) c) (grown : Grown L tasks c c') : Ready L more c' := by
  obtain ⟨_, restApart, across⟩ := List.pairwise_append.1 h.apart
  refine ⟨grown.toCoherent, restApart, fun t ht => h.waiting t (List.mem_append_right _ ht), ?_⟩
  intro t ht R hR covers
  obtain ⟨l, e, covered⟩ := grown.history
  rw [e] at hR
  rcases List.mem_append.1 hR with hR | hR
  · exact h.fresh t (List.mem_append_right _ ht) R hR covers
  · obtain ⟨s, hs, covers'⟩ := covered R hR
    exact across s hs t ht _ covers' covers

end Ready

/-! ## Steps of a walk -/

/-- Two records of one node whose iterations agree are about the same task. -/
theorem Layout.Placed.eq_of_within {R : Record} (hR : L.Placed R.task) (ht : L.Placed t)
    (node : R.node = t.node) (within : R.iterations.Within t.iterations) : R.task = t := by
  have keys : ∀ k, k ∈ R.iterations.ids ↔ k ∈ t.iterations.ids := by
    intro k
    refine (hR k).trans ?_
    rw [ht k]
    exact iff_of_eq (congrArg _ node)
  have e := within.eq keys
  cases t
  simp only at node e
  rw [Record.task, node, e]

/-- A dispatch makes its own result visible and no other one. -/
theorem Coherent.afterDispatch (h : Coherent L c) (keyed : L.Placed ⟨n, c.iterations⟩)
    (fresh : ∀ R ∈ c.history, ¬ L.Covers ⟨n, c.iterations⟩ R.task) (r : NodeResult) :
    Coherent L (c.afterDispatch n r) := by
  refine ⟨fun R hR => ?_, fun m => ?_⟩
  · rcases List.mem_append.1 hR with hR | hR
    · exact h.placed R hR
    · rw [List.mem_singleton.1 hR]
      exact keyed
  · have before := h.shows m
    have refl : c.iterations.Within c.iterations := NodeMap.within_iff.2 fun _ _ hx => hx
    have history : (c.afterDispatch n r).visible m = c.visible m ++
        [Task.record ⟨n, c.iterations⟩ r].filter
          fun R => R.node = m ∧ R.iterations.Within c.iterations :=
      List.filter_append ..
    by_cases e : n = m
    · subst e
      have none_before : c.visible n = [] := by
        refine List.filter_eq_nil_iff.2 fun R hR held => ?_
        obtain ⟨node, within⟩ := of_decide_eq_true held
        have same := (h.placed R hR).eq_of_within keyed node within
        exact fresh R hR (same ▸ .refl L R.task)
      rw [Context.Shows, history, none_before]
      simp [Context.result?, Context.afterDispatch, NodeMap.get?_insert, Task.record, refl]
    · rw [Context.Shows] at before ⊢
      rw [history]
      simp [Context.result?, Context.afterDispatch, NodeMap.get?_insert, Task.record, e, before]

/-- A record that no task of an iteration covers agrees with the iteration if it agrees with
what is around it. -/
theorem within_insert_iff {R : Record} {v : NodeMap Nat} (tree : L.IsTree D)
    (keyed : L.Placed ⟨n, v⟩) (hR : L.Placed R.task)
    (off : ∀ t ∈ L.inner ⟨n, v⟩ i, ¬ L.Covers t R.task) :
    R.iterations.Within (v.insert n i) ↔ R.iterations.Within v := by
  have new : v.get? n = none := tree.not_mem_ids keyed
  rw [NodeMap.within_iff, NodeMap.within_iff]
  constructor
  · intro h k x hx
    have at_k := h k x hx
    rw [NodeMap.get?_insert] at at_k
    split at at_k
    · next e =>
      subst e
      -- The record is inside the container, at the same index: a task of the iteration covers it.
      exfalso
      obtain ⟨d, hd, reach⟩ := (hR n).1 (NodeMap.mem_ids_of_get? hx)
      refine off ⟨d, v.insert n i⟩ (Layout.mem_inner_iff.2 ⟨hd, rfl⟩) ⟨reach, fun k away => ?_⟩
      cases hk : (v.insert n i).get? k with
      | none =>
        cases hy : R.iterations.get? k with
        | none => exact hy
        | some y =>
          have := h k y hy
          rw [hk] at this
          cases this
      | some y =>
        have inside : L.Inside k R.node := by
          rcases NodeMap.mem_ids_insert.1 (NodeMap.mem_ids_of_get? hk) with e | mem
          · exact e ▸ ⟨d, hd, reach⟩
          · exact (((keyed k).1 mem).of_edge (.of_mem hd rfl)).of_reach reach
        obtain ⟨z, hz⟩ := NodeMap.mem_ids_iff.1 ((hR k).2 inside)
        have := h k z hz
        rw [hk] at this
        cases this
        exact hz
    · exact at_k
  · intro h k x hx
    have at_k := h k x hx
    rw [NodeMap.get?_insert, if_neg, at_k]
    rintro rfl
    rw [new] at at_k
    cases at_k

/-- An iteration sees what its container sees. -/
theorem Coherent.setIteration (tree : L.IsTree D) (h : Coherent L c)
    (keyed : L.Placed ⟨n, c.iterations⟩)
    (fresh : ∀ t ∈ L.inner ⟨n, c.iterations⟩ i, ∀ R ∈ c.history, ¬ L.Covers t R.task) :
    Coherent L (c.setIteration n i) := by
  refine ⟨h.placed, fun m => ?_⟩
  have same : (c.setIteration n i).visible m = c.visible m := by
    refine List.filter_congr fun R hR => ?_
    have iff := within_insert_iff (i := i) tree keyed (h.placed R hR) fun t ht => fresh t ht R hR
    simp only [Context.setIteration, iff]
  unfold Context.Shows
  rw [same]
  exact h.shows m

/-- After an iteration its container sees what it saw before. -/
theorem Coherent.resume (tree : L.IsTree D) (h : Coherent L c) (keyed : L.Placed ⟨n, c.iterations⟩)
    (grown : Grown L (L.inner ⟨n, c.iterations⟩ i) (c.setIteration n i) c') :
    Coherent L (c.resume c') := by
  refine ⟨grown.placed, fun m => ?_⟩
  obtain ⟨l, e, covered⟩ := grown.history
  have same : (c.resume c').visible m = c.visible m := by
    have hidden : ∀ R ∈ l, ¬ R.iterations.Within c.iterations := by
      intro R hR within
      obtain ⟨t, ht, covers⟩ := covered R hR
      have index := tree.get?_of_covers_inner ht covers
      have outer := NodeMap.within_iff.1 within n i index
      rw [tree.not_mem_ids keyed] at outer
      cases outer
    have : l.filter (fun R => R.node = m ∧ R.iterations.Within c.iterations) = [] :=
      List.filter_eq_nil_iff.2 fun R hR held => hidden R hR (of_decide_eq_true held).2
    have history : c'.history = c.history ++ l := e
    simp only [Context.visible, Context.resume, history, List.filter_append, this, List.append_nil]
  unfold Context.Shows
  rw [same]
  exact h.shows m

/-- After a dispatch the tasks that are left behind can be run. -/
theorem Ready.spawned (tree : L.IsTree D) (h : Ready L [⟨n, c.iterations⟩] c) (r : NodeResult)
    (count : Nat) (output : String) :
    Ready L (L.spawned ⟨n, c.iterations⟩ count output) (c.afterDispatch n r) := by
  have keyed := h.waiting _ List.mem_cons_self
  have fresh := h.fresh _ List.mem_cons_self
  refine ⟨h.afterDispatch keyed fresh r, tree.spawned_apart _ _ _,
    fun t ht => tree.placed_spawned keyed ht, fun t ht R hR covers => ?_⟩
  rcases List.mem_append.1 hR with hR | hR
  · exact fresh R hR ((Layout.Covers.spawned ht).trans covers)
  · rw [List.mem_singleton.1 hR] at covers
    exact tree.not_covers_spawned ht covers

/-! ## Walks -/

/-- All calls of a part of a run show what they should. -/
abbrev Sees {α : Type} (x : Logged α) (Q : α → Prop) : Prop :=
  Safe (fun call => ∀ m, call.context.Shows m) x Q

/-- Parts of a run that grow a context can follow one another. -/
theorem Sees.foldlM {β : Type} {step : Context → β → Logged Context} {parts : β → List Task}
    {v : NodeMap Nat} (each : ∀ b c, c.iterations = v → Ready L (parts b) c →
      Sees (step c b) (Grown L (parts b) c)) (l : List β) (hv : c.iterations = v)
    (ready : Ready L (l.flatMap parts) c) :
    Sees (l.foldlM step c) (Grown L (l.flatMap parts) c) := by
  induction l generalizing c with
  | nil => exact .pure (.refl ready.toCoherent)
  | cons b l ih =>
    rw [List.flatMap_cons] at ready ⊢
    rw [List.foldlM_cons]
    refine (each b c hv ready.left).bind fun c₁ grown => ?_
    refine (ih (grown.iterations.trans hv) (ready.right grown)).mono fun c₂ grown' => ?_
    exact grown.append grown'

namespace Workflow

variable {w : Workflow}

section Step

variable {step : NodeId → Context → Logged Context} {r : NodeResult}
  (sees : ∀ n c, Ready L [⟨n, c.iterations⟩] c →
    Sees (step n c) (Grown L [⟨n, c.iterations⟩] c))

end Step

theorem Grown.dispatched {r : NodeResult} (h : Grown L (L.spawned ⟨n, c.iterations⟩ count output)
    (c.afterDispatch n r) c') : Grown L [⟨n, c.iterations⟩] c c' := by
  obtain ⟨l, e, covered⟩ := h.history
  refine ⟨h.toCoherent, h.iterations, Task.record ⟨n, c.iterations⟩ r :: l, ?_, fun R hR => ?_⟩
  · rw [e]
    simp [Context.afterDispatch, Task.record]
  · refine ⟨_, List.mem_cons_self, ?_⟩
    rcases List.mem_cons.1 hR with rfl | hR
    · exact .refl L _
    · obtain ⟨t, ht, covers⟩ := covered R hR
      exact (Layout.Covers.spawned ht).trans covers

end Workflow

/-! ## The records behind a call -/

namespace Workflow

variable {w : Workflow} {start : List Record} {calls : List ServiceCall}

/-- A record is that of a call: it names the node that was called and the iterations in which it
was called, and has what the service answered. -/
structure Leaves (w : Workflow) (call : ServiceCall) (R : Record) : Prop where
  live : w.nodes.get? R.node = some call.node
  iterations : R.iterations = call.context.iterations
  answer : call.node.service.dispatch call.node.toNodeInfo call.context = .ok R.result

/-- A history goes on from its start with one record for each call, in order. -/
def Recorded (w : Workflow) (start : List Record) (calls : List ServiceCall)
    (history : List Record) : Prop :=
  ∃ records, history = start ++ records ∧ List.Forall₂ w.Leaves calls records

/-- At each of the calls, those before it are recorded. -/
def Noted (w : Workflow) (start : List Record) (calls : List ServiceCall) : Prop :=
  ∀ before call after, calls = before ++ call :: after →
    w.Recorded start before call.context.history

/-- The calls so far are recorded in a context, as they were at each of them. -/
structure Kept (w : Workflow) (start : List Record) (c : Context) (calls : List ServiceCall) :
    Prop where
  noted : w.Noted start calls
  recorded : w.Recorded start calls c.history

theorem Kept.of_history (kept : w.Kept start c calls) (same : c'.history = c.history) :
    w.Kept start c' calls := ⟨kept.noted, same ▸ kept.recorded⟩

/-- A call in a context in which all calls before it are recorded. -/
theorem Kept.called (kept : w.Kept start c calls) (node : Node) :
    w.Noted start (calls ++ [⟨node, c⟩]) := by
  intro before call after e
  rcases List.eq_nil_or_concat' after with rfl | ⟨after, last, rfl⟩
  · obtain ⟨rfl, same⟩ := List.append_inj' e rfl
    cases same
    exact kept.recorded
  · rw [← List.cons_append, ← List.append_assoc] at e
    exact kept.noted before call after (List.append_inj' e rfl).1

/-- A part of a run that starts with its calls recorded ends so, and notes all calls in any case. -/
abbrev Keeps (w : Workflow) (start : List Record) (c : Context) (x : Logged Context) : Prop :=
  Meets (w.Kept start c) x (w.Kept start) fun _ => w.Noted start

/-- Asking for something calls nothing. -/
theorem keeps_orHalt {ε α : Type} {toFailure : ε → Failure} {r : Except ε α}
    {next : α → Logged Context} (keeps : ∀ a, w.Keeps start c (next a)) :
    w.Keeps start c (c.orHalt toFailure r >>= next) :=
  Meets.bind (Q := fun _ => w.Kept start c)
    (.orHalt (fun _ _ _ kept => kept) fun _ _ _ kept => kept.noted) keeps

/-- A dispatch notes its call, and records it if the service answers. -/
theorem dispatchOne_keeps (w : Workflow) (n : NodeId) (c : Context) :
    Meets (w.Kept start c) (w.dispatchOne Node.logged n c) (fun out => w.Kept start out.2)
      fun _ => w.Noted start := by
  intro log kept
  cases live : w.nodes.get? n with
  | none =>
    rw [dispatchOne_run_of_absent live]
    exact kept.noted
  | some node =>
    rw [dispatchOne_run live]
    cases answer : node.service.dispatch node.toNodeInfo c with
    | error fault => exact kept.called node
    | ok r =>
      obtain ⟨records, e, leaves⟩ := kept.recorded
      have last : w.Leaves ⟨node, c⟩ ⟨n, c.iterations, r⟩ := ⟨live, rfl, answer⟩
      refine ⟨kept.called node, records ++ [⟨n, c.iterations, r⟩], ?_,
        List.rel_append leaves (.cons last .nil)⟩
      rw [← List.append_assoc, ← e]
      rfl

section Step

variable {step : NodeId → Context → Logged Context} {r : NodeResult}
  (keeps : ∀ n c, w.Keeps start c (step n c))

include keeps in
/-- What lies inside a node starts from the calls that were made and goes on from there. -/
theorem runInside_keeps (n : NodeId) (c : Context) :
    w.Keeps start c (w.runInside step n r c) := by
  unfold runInside
  refine keeps_orHalt fun children => ?_
  refine .ite (fun _ => .pure fun _ kept => kept) fun _ => ?_
  refine .bind (Q := fun _ => w.Kept start c) ?_ fun count => .foldlM (fun i _ c => ?_) c
  · unfold iterations
    split
    · exact .throw fun _ kept => kept.noted
    · exact .pure fun _ kept => kept
  · -- An iteration starts with the history of its container and gives its own history back.
    unfold runIteration
    have inside : w.Keeps start (c.setIteration n i)
        (children.foldlM (fun c d => step d c) (c.setIteration n i)) :=
      .foldlM (fun d _ c => keeps d c) _
    refine Meets.pre (P := w.Kept start (c.setIteration n i)) ?_ fun _ kept => kept.of_history rfl
    exact inside.bind fun inner => .pure fun _ kept => kept.of_history rfl

include keeps in
/-- The successors are the steps of one loop, and each goes on where the last one ended. -/
theorem runNext_keeps (n : NodeId) (c : Context) : w.Keeps start c (w.runNext step n r c) := by
  unfold runNext
  exact keeps_orHalt fun next => .foldlM (fun below _ c => keeps below c) c

end Step

/-- By induction on the depth, a walk keeps the records of its calls. -/
theorem dispatchWithin_keeps (w : Workflow) (depth : Nat) (n : NodeId)
    (allowed : Option (List NodeId)) (c : Context) :
    w.Keeps start c (w.dispatchWithin Node.logged depth n allowed c) := by
  induction depth generalizing n allowed c with
  | zero => exact .throw fun _ kept => kept.noted
  | succ depth ih =>
    unfold dispatchWithin
    refine keeps_orHalt fun allowed => ?_
    refine .ite (fun _ => .pure fun _ kept => kept) fun _ => ?_
    refine (dispatchOne_keeps w n c).bind fun out => ?_
    obtain ⟨r, c₁⟩ := out
    refine .ite (fun _ => .pure fun _ kept => kept) fun _ => ?_
    refine (runInside_keeps (fun n c => ih n allowed c) n c₁).bind fun c₂ => ?_
    exact runNext_keeps (fun n c => ih n allowed c) n c₂

/-- At every service call of a run, and at the end of one that succeeds, the history goes on from
that at the start with the records of the calls before, one for each call and in order. -/
theorem calls_recorded (w : Workflow) (c : Context) : w.Noted c.history (w.calls c) ∧
    ∀ c', w.run c = .ok c' → w.Recorded c.history (w.calls c) c'.history := by
  have started : ∀ c', c'.history = c.history → w.Kept c.history c' [] := fun c' same =>
    ⟨fun before call after e => by simp at e, [], by rw [same, List.append_nil], .nil⟩
  have kept : Meets (· = []) (w.runWith Node.logged c) (w.Kept c.history)
      fun _ => w.Noted c.history := by
    unfold runWith
    split
    · exact .throw fun log e => e ▸ (started c rfl).noted
    · rintro log rfl
      refine dispatchWithin_keeps w _ _ none _ [] (started _ ?_)
      split
      · rfl
      · rfl
  have ended := kept [] rfl
  rw [← run_logged]
  unfold calls
  split at ended
  · next e =>
    rw [e]
    refine ⟨ended.noted, fun c' same => ?_⟩
    cases same
    exact ended.recorded
  · next e =>
    rw [e]
    exact ⟨ended, nofun⟩

end Workflow

end Autoflow
