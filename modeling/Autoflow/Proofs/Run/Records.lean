import Autoflow.Proofs.Checks
import Autoflow.Proofs.Graph.Descent
import Autoflow.Proofs.Graph.Validation
import Autoflow.Proofs.Run.Tasks
import Autoflow.Run.Walk

/-!
# The history of a run

`Runs` says which records a list of tasks leaves: each task one record, then those of the tasks
it leaves behind. A walk without a simulation adds to the history what its task leaves
(`dispatchWithin_ran`, by induction on the depth), and in a tree this determines which records
there are, how often and in which order. `Graph.Accounts` spells that out and
`run_accounts` is the main result.
-/

namespace Autoflow

/-- The tasks that a task with a result leaves behind. -/
def Layout.left (L : Layout) (t : Task) (r : NodeResult) : List Task :=
  L.spawned t (r.iterationCount?.getD 0) r.output

/-- The records that tasks leave, one after the other. -/
inductive Runs (L : Layout) : List Task → List Record → Prop
  | nil : Runs L [] []
  | cons {t : Task} {r : NodeResult} {tasks : List Task} {below after : List Record}
      (inside : Runs L (L.left t r) below) (rest : Runs L tasks after) :
      Runs L (t :: tasks) (t.record r :: (below ++ after))

namespace Runs

open Layout

variable {L : Layout} {D : Set NodeId} {t : Task} {tasks more : List Task}
  {history after : List Record} {R P : Record}

/-- Two lists of tasks in a row leave their records in a row. -/
theorem append (h : Runs L tasks history) (h' : Runs L more after) :
    Runs L (tasks ++ more) (history ++ after) := by
  induction h with
  | nil => exact h'
  | cons inside _ _ ih =>
    rw [List.cons_append, List.cons_append, List.append_assoc]
    exact .cons inside ih

/-- The records of one task are its own, then those of what it leaves behind. -/
theorem single {r : NodeResult} (h : Runs L (L.left t r) history) :
    Runs L [t] (t.record r :: history) := by
  have := Runs.cons h .nil
  rwa [List.append_nil] at this

/-- A record is about a task or about one that an earlier record left behind. -/
theorem origin (h : Runs L tasks history) (hR : R ∈ history) :
    R.task ∈ tasks ∨ ∃ P ∈ history, R.task ∈ L.left P.task P.result := by
  induction h with
  | nil => cases hR
  | @cons t r tasks below after _ _ ihBelow ihAfter =>
    rcases List.mem_cons.1 hR with rfl | hR
    · exact Or.inl List.mem_cons_self
    · rcases List.mem_append.1 hR with hR | hR
      · refine Or.inr ?_
        rcases ihBelow hR with mem | ⟨P, hP, mem⟩
        · exact ⟨t.record r, List.mem_cons_self, mem⟩
        · exact ⟨P, List.mem_cons_of_mem _ (List.mem_append_left _ hP), mem⟩
      · rcases ihAfter hR with mem | ⟨P, hP, mem⟩
        · exact Or.inl (List.mem_cons_of_mem _ mem)
        · exact Or.inr ⟨P, List.mem_cons_of_mem _ (List.mem_append_right _ hP), mem⟩

/-- Every task has a record. -/
theorem exists_record (h : Runs L tasks history) (ht : t ∈ tasks) : ∃ R ∈ history, R.task = t := by
  induction h with
  | nil => cases ht
  | @cons u r _ _ _ _ _ _ ih =>
    rcases List.mem_cons.1 ht with rfl | ht
    · exact ⟨t.record r, List.mem_cons_self, rfl⟩
    · obtain ⟨R, hR, e⟩ := ih ht
      exact ⟨R, List.mem_cons_of_mem _ (List.mem_append_right _ hR), e⟩

/-- Every task that a record leaves behind has a record. -/
theorem complete (h : Runs L tasks history) (hP : P ∈ history)
    (ht : t ∈ L.left P.task P.result) : ∃ R ∈ history, R.task = t := by
  induction h with
  | nil => cases hP
  | cons inside _ ihBelow ihAfter =>
    rcases List.mem_cons.1 hP with rfl | hP
    · obtain ⟨R, hR, e⟩ := inside.exists_record ht
      exact ⟨R, List.mem_cons_of_mem _ (List.mem_append_left _ hR), e⟩
    · rcases List.mem_append.1 hP with hP | hP
      · obtain ⟨R, hR, e⟩ := ihBelow hP
        exact ⟨R, List.mem_cons_of_mem _ (List.mem_append_left _ hR), e⟩
      · obtain ⟨R, hR, e⟩ := ihAfter hP
        exact ⟨R, List.mem_cons_of_mem _ (List.mem_append_right _ hR), e⟩

/-- Every record is about something below one of the tasks. -/
theorem covers (h : Runs L tasks history) (hR : R ∈ history) :
    ∃ t ∈ tasks, L.Covers t R.task := by
  induction h with
  | nil => cases hR
  | @cons u r _ _ _ _ _ ihBelow ihAfter =>
    rcases List.mem_cons.1 hR with rfl | hR
    · exact ⟨u, List.mem_cons_self, .refl L u⟩
    · rcases List.mem_append.1 hR with hR | hR
      · obtain ⟨s, hs, c⟩ := ihBelow hR
        exact ⟨u, List.mem_cons_self, (Covers.spawned hs).trans c⟩
      · obtain ⟨s, hs, c⟩ := ihAfter hR
        exact ⟨s, List.mem_cons_of_mem _ hs, c⟩

/-- In a tree, the iterations of every record are those of the containers around its node. -/
theorem placed (h : Runs L tasks history) (tree : L.IsTree D) (keyed : ∀ t ∈ tasks, L.Placed t)
    (hR : R ∈ history) : L.Placed R.task := by
  induction h with
  | nil => cases hR
  | cons _ _ ihBelow ihAfter =>
    have head := keyed _ List.mem_cons_self
    rcases List.mem_cons.1 hR with rfl | hR
    · exact head
    · rcases List.mem_append.1 hR with hR | hR
      · exact ihBelow (fun s hs => tree.placed_spawned head hs) hR
      · exact ihAfter (fun s hs => keyed s (List.mem_cons_of_mem _ hs)) hR

/-- Of two records, the earlier one is about another task than the later one, and not about one
that the later one leaves behind. -/
def Precedes (L : Layout) (R S : Record) : Prop :=
  R.task ≠ S.task ∧ R.task ∉ L.left S.task S.result

/-- In a tree, the records are in the order in which tasks are left behind, and no task has two. -/
theorem precedes (h : Runs L tasks history) (tree : L.IsTree D) (apart : tasks.Pairwise L.Apart) :
    history.Pairwise (Precedes L) := by
  -- A record that comes up in two parts would be covered by two tasks that are apart.
  have of_apart : ∀ {t s : Task} {R S : Record}, L.Apart t s → L.Covers t R.task →
      L.Covers s S.task → Precedes L R S := by
    intro t s R S apart ht hs
    refine ⟨fun e => apart _ ht (e ▸ hs), fun mem => apart _ ht (hs.trans (.spawned mem))⟩
  induction h with
  | nil => exact .nil
  | @cons t r tasks below after inside rest ihBelow ihAfter =>
    obtain ⟨headApart, restApart⟩ := List.pairwise_cons.1 apart
    refine List.pairwise_cons.2 ⟨fun S hS => ?_, List.pairwise_append.2
      ⟨ihBelow (tree.spawned_apart _ _ _), ihAfter restApart, fun R hR S hS => ?_⟩⟩
    · rcases List.mem_append.1 hS with hS | hS
      · obtain ⟨s, hs, c⟩ := inside.covers hS
        have off : ¬ L.Covers S.task t := fun back => tree.not_covers_spawned hs (c.trans back)
        refine ⟨fun e => off ?_, fun mem => off (.spawned mem)⟩
        rw [← e]
        exact .refl L t
      · obtain ⟨s, hs, c⟩ := rest.covers hS
        exact of_apart (headApart s hs) (.refl L t) c
    · obtain ⟨s, hs, c⟩ := inside.covers hR
      obtain ⟨u, hu, c'⟩ := rest.covers hS
      exact of_apart (headApart u hu) ((Covers.spawned hs).trans c) c'

end Runs

/-! ## The walk -/

/-- A part of a run goes on in the same scope and adds to the history what its tasks leave. -/
structure Ran (L : Layout) (tasks : List Task) (c c' : Context) : Prop where
  iterations : c'.iterations = c.iterations
  simulateUntil : c'.simulateUntil = c.simulateUntil
  history : ∃ l, c'.history = c.history ++ l ∧ Runs L tasks l

namespace Ran

variable {L : Layout} {tasks more : List Task} {c c' c'' : Context}

/-- A part in which no task is run leaves the context as it is. -/
theorem refl (L : Layout) (c : Context) : Ran L [] c c :=
  ⟨rfl, rfl, [], (List.append_nil _).symm, .nil⟩

/-- Two parts in a row add their records in a row. -/
theorem append (h : Ran L tasks c c') (h' : Ran L more c' c'') : Ran L (tasks ++ more) c c'' := by
  obtain ⟨l, e, r⟩ := h.history
  obtain ⟨l', e', r'⟩ := h'.history
  refine ⟨h'.iterations.trans h.iterations, h'.simulateUntil.trans h.simulateUntil, l ++ l', ?_,
    r.append r'⟩
  rw [e', e, List.append_assoc]

/-- A dispatch adds the record of its task, and what follows adds those that the task leaves
behind. -/
theorem dispatched {n : NodeId} {r : NodeResult}
    (h : Ran L (L.left ⟨n, c.iterations⟩ r) (c.afterDispatch n r) c') :
    Ran L [⟨n, c.iterations⟩] c c' := by
  obtain ⟨l, e, runs⟩ := h.history
  refine ⟨h.iterations, h.simulateUntil, _, ?_, runs.single⟩
  rw [e]
  simp [Context.afterDispatch, Task.record]

end Ran

namespace Workflow

variable {w : Workflow} {L : Layout} {c c' : Context} {n : NodeId}

/-- A fallible step goes on exactly if it does not fail. -/
theorem orHalt_eq_ok {ε α : Type} {toFailure : ε → Failure} {r : Except ε α} {a : α} :
    (c.orHalt toFailure r : Except Halt α) = .ok a ↔ r = .ok a := by
  cases r <;> simp [Context.orHalt, throw, throwThe, MonadExceptOf.throw, pure, Except.pure]

/-- What a dispatch changes in the context is what it writes down. -/
theorem dispatchOne_eq_ok {r : NodeResult}
    (h : (w.dispatchOne Node.call n c : Except Halt _) = .ok (r, c')) :
    c' = c.afterDispatch n r := by
  unfold dispatchOne at h
  simp only [Except.bind_eq_ok] at h
  obtain ⟨_, _, _, _, _, _, done⟩ := h
  cases done
  rfl

/-- A walk over a list runs the tasks of each member, all in the same iterations. -/
theorem foldlM_ran {β : Type} {step : Context → β → Walk} {tasks : β → List Task}
    {v : NodeMap Nat} (each : ∀ b c c', c.iterations = v → c.simulateUntil = none →
      step c b = .ok c' → Ran L (tasks b) c c') (l : List β)
    (hv : c.iterations = v) (plain : c.simulateUntil = none) (h : l.foldlM step c = .ok c') :
    Ran L (l.flatMap tasks) c c' := by
  induction l generalizing c with
  | nil =>
    cases h
    exact .refl L _
  | cons b l ih =>
    rw [List.foldlM_cons, Except.bind_eq_ok] at h
    obtain ⟨c₁, first, rest⟩ := h
    have ran := each b c c₁ hv plain first
    rw [List.flatMap_cons]
    exact ran.append (ih (ran.iterations.trans hv) (ran.simulateUntil.trans plain) rest)

section Step

variable {step : NodeId → Context → Walk} {r : NodeResult}
  (ran : ∀ n c c', c.simulateUntil = none → step n c = .ok c' → Ran L [⟨n, c.iterations⟩] c c')

include ran in
theorem foldlM_step_ran {l : List NodeId} (plain : c.simulateUntil = none)
    (h : l.foldlM (fun c n => step n c) c = .ok c') :
    Ran L (l.map fun n => ⟨n, c.iterations⟩) c c' := by
  rw [List.map_eq_flatMap]
  refine foldlM_ran (fun n c₁ c₂ e plain h => ?_) l rfl plain h
  rw [← e]
  exact ran n c₁ c₂ plain h

include ran in
/-- One iteration runs the nodes inside, at its index. -/
theorem runIteration_ran {v : NodeMap Nat} {i : Nat} (hv : c.iterations = v)
    (plain : c.simulateUntil = none)
    (h : runIteration step n (L (.child n)) c i = .ok c') : Ran L (L.inner ⟨n, v⟩ i) c c' := by
  subst hv
  unfold runIteration at h
  obtain ⟨last, inside, done⟩ := Except.bind_eq_ok.1 h
  cases done
  have still : (c.setIteration n i).simulateUntil = none := plain
  obtain ⟨l, e, runs⟩ := (foldlM_step_ran ran still inside).history
  exact ⟨rfl, rfl, l, e, runs⟩

include ran in
/-- All iterations run the nodes inside at each index, one after the other. -/
theorem runInside_ran {v : NodeMap Nat} (hL : L = w.graph.occupants) (hv : c.iterations = v)
    (plain : c.simulateUntil = none) (h : w.runInside step n r c = .ok c') :
    Ran L ((List.range (r.iterationCount?.getD 0)).flatMap (L.inner ⟨n, v⟩)) c c' := by
  unfold runInside at h
  simp only [Except.bind_eq_ok, orHalt_eq_ok] at h
  obtain ⟨children, hc, h⟩ := h
  have held : children = L (.child n) := hL ▸ Graph.eq_occupants_of_children hc
  subst held
  split at h
  · next none =>
    cases h
    have : (List.range (r.iterationCount?.getD 0)).flatMap (L.inner ⟨n, v⟩) = [] := by
      have empty : L (.child n) = [] := List.isEmpty_iff.1 none
      simp [Layout.inner, empty]
    rw [this]
    exact .refl L _
  · obtain ⟨count, items, h⟩ := Except.bind_eq_ok.1 h
    have : count = r.iterationCount?.getD 0 := by
      unfold Workflow.iterations at items
      split at items
      · cases items
      · next k hk =>
        cases items
        simp [hk, Context.isSimulation, plain]
    subst this
    exact foldlM_ran (fun i _ _ e plain h => runIteration_ran ran e plain h) _ hv plain h

include ran in
/-- Behind a node, the successors on the output of its result are run. -/
theorem runNext_ran (hL : L = w.graph.occupants) (plain : c.simulateUntil = none)
    (h : w.runNext step n r c = .ok c') : Ran L (L.behind ⟨n, c.iterations⟩ r.output) c c' := by
  unfold runNext at h
  simp only [Except.bind_eq_ok, orHalt_eq_ok] at h
  obtain ⟨next, hn, h⟩ := h
  have held : next = L (.south n r.output) := hL ▸ Graph.eq_occupants_of_nextNodes hn
  subst held
  exact foldlM_step_ran ran plain h

end Step

/-- A walk without a simulation that succeeds has run its task. -/
theorem dispatchWithin_ran {depth : Nat} (plain : c.simulateUntil = none)
    (h : (w.dispatchWithin Node.call depth n none c : Walk) = .ok c') :
    Ran w.graph.occupants [⟨n, c.iterations⟩] c c' := by
  induction depth generalizing n c c' with
  | zero => cases h
  | succ depth ih =>
    simp only [dispatchWithin, Except.bind_eq_ok, orHalt_eq_ok] at h
    obtain ⟨allowed, ha, h⟩ := h
    have free : allowed = none := by
      simp only [allowedNodes, plain] at ha
      cases ha
      rfl
    subst free
    have ran : ∀ n c c', c.simulateUntil = none →
        (w.dispatchWithin Node.call depth n none c : Walk) = .ok c' →
        Ran w.graph.occupants [⟨n, c.iterations⟩] c c' := fun _ _ _ plain h => ih plain h
    simp only [Option.any_none, Bool.false_eq_true, if_false, Except.bind_eq_ok] at h
    obtain ⟨⟨r, c₁⟩, one, h⟩ := h
    have e := dispatchOne_eq_ok one
    subst e
    have still : (c.afterDispatch n r).simulateUntil = none := plain
    simp only [still, reduceCtorEq, if_false, Except.bind_eq_ok] at h
    obtain ⟨c₂, inside, next⟩ := h
    have ranInside := runInside_ran ran rfl rfl still inside
    have ranNext := runNext_ran ran rfl (ranInside.simulateUntil.trans still) next
    rw [ranInside.iterations] at ranNext
    exact Ran.dispatched (ranInside.append ranNext)

end Workflow

/-! ## Histories of trees -/

/-- A history holds the records that the graph and the results in it ask for, and no others. -/
structure Graph.Accounts (g : Graph) (history : List Record) : Prop where
  /-- A record is keyed by the containers that hold its node. -/
  keys : ∀ R ∈ history, ∀ k,
    k ∈ R.iterations.ids ↔ ∃ l, g.descendants k = .ok l ∧ R.node ∈ l
  once : history.Pairwise fun R S => ¬ (R.node = S.node ∧ R.iterations = S.iterations)
  root : ∃ r, g.root = some r ∧
    ∃ R, history.filter (fun R => R.node = r) = [R] ∧ R.iterations = .empty
  /-- A node on an output runs where the owner has taken that output. -/
  south : ∀ p o, ∀ n ∈ g.occupants (.south p o), ∀ v,
    (∃ R ∈ history, R.node = n ∧ R.iterations = v) ↔
      ∃ P ∈ history, P.node = p ∧ P.iterations = v ∧ P.result.output = o
  /-- A node in a container runs once for each item of the container. -/
  child : ∀ c, ∀ n ∈ g.occupants (.child c), ∀ v,
    (∃ R ∈ history, R.node = n ∧ R.iterations = v) ↔
      ∃ C ∈ history, C.node = c ∧ C.iterations = v.erase c ∧
        ∃ i items, v.get? c = some i ∧ C.result.items? = some items ∧ i < items.length
  south_after : ∀ (i j : Nat) P R, history[i]? = some P → history[j]? = some R →
    (∃ o, R.node ∈ g.occupants (.south P.node o)) → R.iterations = P.iterations → i < j
  child_after : ∀ (i j : Nat) C R, history[i]? = some C → history[j]? = some R →
    R.node ∈ g.occupants (.child C.node) → C.iterations = R.iterations.erase C.node → i < j

theorem NodeMap.erase_insert {v : NodeMap Nat} {n : NodeId} {i : Nat} (h : v.get? n = none) :
    (v.insert n i).erase n = v := by
  refine NodeMap.ext_get? fun k => ?_
  rw [get?_erase, get?_insert]
  by_cases e : n = k
  · subst e
    rw [if_pos rfl, h]
  · rw [if_neg e, if_neg e]

theorem NodeMap.insert_erase {v : NodeMap Nat} {n : NodeId} {i : Nat} (h : v.get? n = some i) :
    (v.erase n).insert n i = v := by
  refine NodeMap.ext_get? fun k => ?_
  rw [get?_insert, get?_erase]
  by_cases e : n = k
  · subst e
    rw [if_pos rfl, h]
  · rw [if_neg e, if_neg e]

theorem eq_singleton_of_nodup {α : Type} {l : List α} {a : α} (nodup : l.Nodup) (mem : a ∈ l)
    (all : ∀ b ∈ l, b = a) : l = [a] := by
  rw [List.eq_replicate_of_mem all] at nodup mem ⊢
  have short := List.nodup_replicate.1 nodup
  have long := List.length_pos_of_mem mem
  rw [List.length_replicate] at long
  rw [Nat.le_antisymm short long]
  rfl

namespace Runs

variable {g : Graph} {r : NodeId} {history : List Record} {R P : Record} {v : NodeMap Nat}
  {n p c : NodeId} {o : String} {i j : Nat}

/-- A node is iterated once for each item of its result. -/
theorem lt_iterationCount_iff {result : NodeResult} :
    i < result.iterationCount?.getD 0 ↔ ∃ items, result.items? = some items ∧ i < items.length := by
  cases h : result.items? <;> simp [NodeResult.iterationCount?, h]

section

variable (runs : Runs g.occupants [⟨r, .empty⟩] history) (tree : g.IsTree)
  (root : g.root = some r)

include runs tree in
/-- No task has two records, -/
theorem nodup_tasks : (history.map Record.task).Nodup :=
  List.pairwise_map.2 ((runs.precedes tree (List.pairwise_singleton _ _)).imp fun h => h.1)

include runs tree in
/-- so a record is determined by its task. -/
theorem eq_of_task_eq (hR : R ∈ history) (hP : P ∈ history) (e : R.task = P.task) : R = P :=
  List.inj_on_of_nodup_map (runs.nodup_tasks tree) hR hP e

include runs tree in
/-- A record comes after the one that left its task behind. -/
theorem lt_of_mem_left (hP : history[i]? = some P) (hR : history[j]? = some R)
    (mem : R.task ∈ g.occupants.left P.task P.result) : i < j := by
  obtain ⟨hi, rfl⟩ := List.getElem?_eq_some_iff.1 hP
  obtain ⟨hj, rfl⟩ := List.getElem?_eq_some_iff.1 hR
  rcases Nat.lt_trichotomy i j with lt | eq | gt
  · exact lt
  · subst eq
    exact absurd (Layout.Covers.refl _ _) (tree.not_covers_spawned mem)
  · have pairs := List.pairwise_iff_getElem.1 (runs.precedes tree (List.pairwise_singleton _ _))
    exact absurd mem (pairs j i hj hi gt).2

include runs tree root in
/-- A record of a node in a slot of another node has an origin there. -/
theorem origin_of_owned {s : Slot} {a : NodeId} (hR : R ∈ history) (mem : R.node ∈ g.occupants s)
    (os : s.owner? = some a) :
    ∃ P ∈ history, R.task ∈ g.occupants.left P.task P.result := by
  rcases runs.origin hR with e | earlier
  · have node : R.node = r := congrArg Task.node (List.mem_singleton.1 e)
    rw [node] at mem
    rw [tree.slot_unique mem (Graph.mem_occupants_root.2 root)] at os
    cases os
  · exact earlier

include runs tree root in
/-- A successor has a record exactly where the node before it has one with the output between
them. -/
theorem south_iff (hn : n ∈ g.occupants (.south p o)) :
    (∃ R ∈ history, R.node = n ∧ R.iterations = v) ↔
      ∃ P ∈ history, P.node = p ∧ P.iterations = v ∧ P.result.output = o := by
  constructor
  · rintro ⟨R, hR, rfl, rfl⟩
    obtain ⟨P, hP, mem⟩ := runs.origin_of_owned tree root hR hn rfl
    rcases Layout.mem_spawned_iff.1 mem with ⟨_, _, inside, _⟩ | ⟨next, e⟩
    · cases tree.slot_unique hn inside
    · cases tree.slot_unique hn next
      exact ⟨P, hP, rfl, e.symm, rfl⟩
  · rintro ⟨P, hP, rfl, rfl, rfl⟩
    have mem : Task.mk n P.iterations ∈ g.occupants.left P.task P.result :=
      Layout.mem_spawned_iff.2 (Or.inr ⟨hn, rfl⟩)
    obtain ⟨R, hR, e⟩ := runs.complete hP mem
    exact ⟨R, hR, congrArg Task.node e, congrArg Task.iterations e⟩

include runs tree root in
/-- A node inside has a record for each item of its container, at the index of the item. -/
theorem child_iff (hn : n ∈ g.occupants (.child c)) :
    (∃ R ∈ history, R.node = n ∧ R.iterations = v) ↔
      ∃ C ∈ history, C.node = c ∧ C.iterations = v.erase c ∧
        ∃ i items, v.get? c = some i ∧ C.result.items? = some items ∧ i < items.length := by
  constructor
  · rintro ⟨R, hR, rfl, rfl⟩
    obtain ⟨C, hC, mem⟩ := runs.origin_of_owned tree root hR hn rfl
    rcases Layout.mem_spawned_iff.1 mem with ⟨i, lt, inside, e⟩ | ⟨next, _⟩
    · cases tree.slot_unique hn inside
      obtain ⟨items, he, lt⟩ := lt_iterationCount_iff.1 lt
      have start := tree.placed_root (Graph.mem_occupants_root.2 root)
      have new := tree.not_mem_ids (runs.placed tree start hC)
      have e : R.iterations = C.iterations.insert C.node i := e
      refine ⟨C, hC, rfl, ?_, i, items, ?_, he, lt⟩
      · rw [e]
        exact (NodeMap.erase_insert new).symm
      · rw [e, NodeMap.get?_insert]
        exact if_pos rfl
    · cases tree.slot_unique hn next
  · rintro ⟨C, hC, rfl, e, i, items, hi, he, lt⟩
    have mem : Task.mk n v ∈ g.occupants.left C.task C.result := by
      refine Layout.mem_spawned_iff.2 (Or.inl ⟨i, lt_iterationCount_iff.2 ⟨items, he, lt⟩, hn, ?_⟩)
      exact (e ▸ NodeMap.insert_erase hi : C.iterations.insert C.node i = v).symm
    obtain ⟨R, hR, e⟩ := runs.complete hC mem
    exact ⟨R, hR, congrArg Task.node e, congrArg Task.iterations e⟩

include runs tree root in
/-- The root has one record, outside all iterations. -/
theorem exists_root_record :
    ∃ R, history.filter (fun R => R.node = r) = [R] ∧ R.iterations = .empty := by
  obtain ⟨R, hR, e⟩ := runs.exists_record List.mem_cons_self
  have node : R.node = r := congrArg Task.node e
  refine ⟨R, eq_singleton_of_nodup ((runs.nodup_tasks tree).of_map.filter _) ?_ ?_,
    congrArg Task.iterations e⟩
  · exact List.mem_filter.2 ⟨hR, decide_eq_true node⟩
  · intro S hS
    obtain ⟨hS, node⟩ := List.mem_filter.1 hS
    refine runs.eq_of_task_eq tree hS hR ?_
    rcases runs.origin hS with top | ⟨P, _, mem⟩
    · rw [e, List.mem_singleton.1 top]
    · have held := Graph.mem_occupants_root.2 root
      rw [← of_decide_eq_true node] at held
      exact absurd (Layout.edge_of_mem_spawned mem) (tree.not_edge_of_mem_root held)

include runs tree root in
/-- The records that the trigger's task leaves in a tree are those the graph asks for. -/
theorem accounts : g.Accounts history where
  keys R hR k := by
    have start := tree.placed_root (Graph.mem_occupants_root.2 root)
    refine (runs.placed tree start hR k).trans ?_
    constructor
    · intro inside
      have hk : k ∈ g.ids := by
        obtain ⟨d, hd, _⟩ := inside
        exact Graph.owner_mem_ids hd rfl
      refine ⟨_, Graph.descendants_eq hk, ?_⟩
      exact tree.mem_reach_iff.2 inside
    · rintro ⟨l, hl, mem⟩
      exact (tree.mem_descendants_iff hl).1 mem
  once := by
    refine (runs.precedes tree (List.pairwise_singleton _ _)).imp fun {R S} h both => h.1 ?_
    rw [Record.task, Record.task, both.1, both.2]
  root := ⟨r, root, runs.exists_root_record tree root⟩
  south _ _ _ hn _ := runs.south_iff tree root hn
  child _ _ hn _ := runs.child_iff tree root hn
  south_after i j P R hP hR := by
    rintro ⟨o, mem⟩ e
    have here := List.mem_of_getElem? hR
    obtain ⟨P', hP', node, same, out⟩ := (runs.south_iff tree root mem).1 ⟨R, here, rfl, rfl⟩
    have eq := runs.eq_of_task_eq tree hP' (List.mem_of_getElem? hP)
      (by rw [Record.task, Record.task, node, same, e])
    subst eq
    exact runs.lt_of_mem_left tree hP hR
      (Layout.mem_spawned_iff.2 (Or.inr ⟨by rw [out]; exact mem, e⟩))
  child_after i j C R hC hR := by
    intro mem e
    have here := List.mem_of_getElem? hR
    obtain ⟨C', hC', node, same, index, items, hi, he, lt⟩ :=
      (runs.child_iff tree root mem).1 ⟨R, here, rfl, rfl⟩
    have eq := runs.eq_of_task_eq tree hC' (List.mem_of_getElem? hC)
      (by rw [Record.task, Record.task, node, same, e])
    subst eq
    refine runs.lt_of_mem_left tree hC hR (Layout.mem_spawned_iff.2 (Or.inl
      ⟨index, lt_iterationCount_iff.2 ⟨items, he, lt⟩, mem, ?_⟩))
    exact (e ▸ NodeMap.insert_erase hi : C'.iterations.insert C'.node index = R.iterations).symm

end

end Runs

namespace Workflow

variable {w : Workflow} {c : Context}

/-- A run of a valid workflow without a simulation that succeeds leaves exactly the records that
the graph and the results ask for, whatever the services answer. -/
theorem run_accounts (w : Workflow) (payload : Payload) (valid : w.graph.validate = .ok ())
    (marker : w.simulateUntil = none) (h : w.run (.new payload) = .ok c) :
    w.graph.Accounts c.history := by
  unfold run runWith at h
  split at h
  · cases h
  · next r root =>
    have start : (if (Context.new payload).isSimulation then Context.new payload
        else (Context.new payload).withSimulateUntil w.simulateUntil) = .new payload := by
      simp [Context.isSimulation, Context.new, Context.withSimulateUntil, marker]
    rw [start] at h
    obtain ⟨l, e, runs⟩ := (dispatchWithin_ran rfl h).history
    rw [show c.history = l from e]
    exact runs.accounts (Graph.validate_eq_ok_iff.1 valid) root

/-- A node whose service answers with two items. -/
def twoItems (n : NodeId) : Node where
  id := n
  workflow := 1
  typeName := "Two items"
  service := {
    edges := [⟨"", ""⟩]
    config := .null
    dispatch := fun _ _ => .ok ⟨.object [("results", .array [.null, .null])], "", 200⟩ }

/-- A trigger and behind it a container, with a node inside and a node behind it. -/
def nested : Workflow where
  id := 1
  name := "Nested"
  graph := {
    root := some 1
    entries := (((OrderedMap.empty.insert 1 ⟨some (.single "" [2]), none⟩).insert 2
      ⟨some (.single "" [4]), some [3]⟩).insert 3 {}).insert 4 {} }
  nodes := (((NodeMap.empty.insert 1 (twoItems 1)).insert 2 (twoItems 2)).insert 3
    (twoItems 3)).insert 4 (twoItems 4)

/-- Node 3 stands inside node 2, which has two items, and is dispatched for each of them. -/
theorem run_accounts_nested :
    ∃ c, nested.run (.new (.known .null)) = .ok c ∧
      c.history.map Record.node = [1, 2, 3, 3, 4] ∧ nested.graph.Accounts c.history :=
  ⟨_, rfl, rfl, run_accounts nested _ (by decide +kernel) rfl rfl⟩

end Workflow

end Autoflow
