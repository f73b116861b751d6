import Autoflow.Proofs.Editing.Commits
import Autoflow.Proofs.Editing.Custody
import Autoflow.Proofs.Editing.Draws

/-!
# Operations on mirrored desks

An operation does to a mirrored desk with the ids exchanged what it does to the desk, whether it
succeeds or not and whether its save is refused or not (`Operation.mirrored`). That a success is
mirrored is known; a failure is, because a success on the mirrored desk would be mirrored back.
-/

namespace Autoflow

/-! ## Ids exchanged and exchanged back -/

section

variable (σ : Equiv.Perm NodeId)

@[simp] theorem Position.relabel_symm (p : Position) : (p.relabel σ).relabel σ.symm = p := by
  simp [relabel, Option.map_map]

@[simp] theorem Action.relabel_symm (a : Action) : (a.relabel σ).relabel σ.symm = a := by
  cases a <;> simp [relabel]

@[simp] theorem Request.relabel_symm (r : Request) : (r.relabel σ).relabel σ.symm = r := by
  cases r <;> simp [relabel]

@[simp] theorem History.relabel_symm (h : History) : (h.relabel σ).relabel σ.symm = h := by
  have back : Action.relabel σ.symm ∘ Action.relabel σ = id := funext (Action.relabel_symm σ)
  simp [relabel, back]

@[simp] theorem Operation.relabel_symm (o : Operation) : (o.relabel σ).relabel σ.symm = o := by
  cases o with
  | simulate n => simp [relabel, Option.map_map]
  | _ => simp [relabel]

end

namespace Action

variable (f : NodeId → NodeId) (a : Action)

theorem claims_relabel : (a.relabel f).claims = a.claims.map f := by
  cases a <;> rfl

theorem leftover_relabel : (a.relabel f).leftover = a.leftover.map f := by
  cases a <;> rfl

end Action

namespace Operation

open Desk Edit

theorem claims_relabel (f : NodeId → NodeId) (o : Operation) :
    (o.relabel f).claims = o.claims.map f := by
  cases o with
  | request r => cases r <;> rfl
  | restore n | restoreReplaced n trashed | simulate m => rfl
  | undo h =>
    obtain ⟨_ | ⟨a, rest⟩, redoable⟩ := h
    · rfl
    · change (a.relabel f).inverse.claims = a.inverse.claims.map f
      rw [Action.inverse_relabel, Action.claims_relabel]
  | redo h =>
    obtain ⟨undoable, _ | ⟨a, rest⟩⟩ := h
    · rfl
    · exact a.claims_relabel f

theorem leftover_relabel (f : NodeId → NodeId) (o : Operation) :
    (o.relabel f).leftover = o.leftover.map f := by
  cases o with
  | request r | restore n | restoreReplaced n trashed | simulate m => rfl
  | undo h =>
    obtain ⟨_ | ⟨a, rest⟩, redoable⟩ := h
    · rfl
    · change (a.relabel f).inverse.leftover = a.inverse.leftover.map f
      rw [Action.inverse_relabel, Action.leftover_relabel]
  | redo h =>
    obtain ⟨undoable, _ | ⟨a, rest⟩⟩ := h
    · rfl
    · exact a.leftover_relabel f

/-! ## The nodes claimed -/

/-- An operation on a live node meets no node of another workflow in the trash. -/
def Apart (o : Operation) (d : Desk) : Prop :=
  ∀ n, o.claims.head? = some n → n ∈ d.workflow.nodes.ids → d.Clear o.claims

variable {σ : Equiv.Perm NodeId} {env env' : Setup} {d d' e e' : Desk} {o : Operation}
  {made : Option NodeId} {f : Failure}

instance (o : Operation) (d : Desk) : Decidable (o.Apart d) :=
  inferInstanceAs (Decidable (∀ n ∈ o.claims.head?, n ∈ d.workflow.nodes.ids →
    ∀ m ∈ o.claims, ∀ e ∈ d.editor.trash.get? m, e.workflow = d.workflow.id))

theorem Apart.clear (apart : o.Apart d)
    (live : ∀ n, o.claims.head? = some n → n ∈ d.workflow.nodes.ids) : d.Clear o.claims := by
  cases first : o.claims.head? with
  | none =>
    rw [List.head?_eq_none_iff] at first
    rw [first]
    exact fun n mem => absurd mem List.not_mem_nil
  | some n => exact apart n first (live n first)

/-- An operation that succeeds found the node live that it claims first. -/
theorem live_of_claims (accepting : env.Accepting) (run : o.perform env d = .ok made e) :
    ∀ n, o.claims.head? = some n → n ∈ d.workflow.nodes.ids := by
  have redo : ∀ {a : Action} {u : Unit}, a.redo env d = .ok u e → ∀ n, a.claims.head? = some n →
      n ∈ d.workflow.nodes.ids := by
    intro a u run n first
    cases a with
    | create _ | update _ _ _ | duplicate _ _ | move _ _ _ => cases first
    | delete m =>
      cases first
      obtain ⟨node, done, _⟩ := map_eq_ok.1 run
      obtain ⟨_, _, _, hn, _⟩ := (delete_eq_ok accepting).1 done
      exact NodeMap.mem_ids_of_get? hn
    | replace m _ former _ =>
      cases first
      obtain ⟨r, done, _⟩ := map_eq_ok.1 run
      obtain ⟨_, _, _, _, _, _, hn, _⟩ := (restoreReplaced_eq_ok accepting).1 done
      exact NodeMap.mem_ids_of_get? hn
  intro n first
  cases o with
  | request r =>
    obtain ⟨shown, asked, _⟩ := map_eq_ok.1 run
    cases r with
    | create _ _ _ | update _ _ | duplicate _ | move _ _ => cases first
    | delete m actor =>
      cases first
      obtain ⟨node, done, _⟩ := map_eq_ok.1 asked
      obtain ⟨_, _, _, hn, _⟩ := (delete_eq_ok accepting).1 done
      exact NodeMap.mem_ids_of_get? hn
    | replace m typeName actor =>
      cases first
      obtain ⟨r, done, _⟩ := map_eq_ok.1 asked
      obtain ⟨_, _, _, _, _, _, hn, _⟩ := (replace_eq_ok accepting).1 done
      exact NodeMap.mem_ids_of_get? hn
  | restore _ | simulate _ => cases first
  | restoreReplaced m trashed =>
    cases first
    obtain ⟨r, done, _⟩ := map_eq_ok.1 run
    obtain ⟨_, _, _, _, _, _, hn, _⟩ := (restoreReplaced_eq_ok accepting).1 done
    exact NodeMap.mem_ids_of_get? hn
  | undo h =>
    obtain ⟨_ | ⟨a, rest⟩, redoable⟩ := h
    · cases first
    · obtain ⟨shown, asked, _⟩ := map_eq_ok.1 run
      obtain ⟨u, done, _⟩ := map_eq_ok.1 asked
      rw [Action.undo_eq_redo] at done
      exact redo done n first
  | redo h =>
    obtain ⟨undoable, _ | ⟨a, rest⟩⟩ := h
    · cases first
    · obtain ⟨shown, asked, _⟩ := map_eq_ok.1 run
      obtain ⟨u, done, _⟩ := map_eq_ok.1 asked
      exact redo done n first

/-! ## With some saves refused -/

/-- An operation that did not come to a save does the same if saves are refused. -/
theorem perform_of_quiet (run : o.perform env.unfailing d = .ok made e)
    (quiet : e.editor.store = d.editor.store) : o.perform env d = .ok made e := by
  have accepting := env.accepting_unfailing
  refine Operation.induct (P := fun _ x => ∀ a e, x env.unfailing d = .ok a e →
    e.editor.store = d.editor.store → x env d = .ok a e)
    ?_ ?_ ?_ ?_ ?_ ?_ ?_ ?_ ?_ ?_ ?_ o made e run quiet
  · exact fun a _ _ run _ => run
  · intro _ _ _ x g ih b e run quiet
    obtain ⟨a, done, same⟩ := map_eq_ok.1 run
    exact map_eq_ok.2 ⟨a, ih a e done quiet, same⟩
  · intro typeName values p node e run quiet
    obtain ⟨_, _, _, _, _, _, _, _, _, _, _, rfl⟩ := (create_eq_ok accepting).1 run
    exact absurd quiet (saved_ne (store_counted _ _))
  · exact fun n values u e run _ => run
  · intro n actor node e run quiet
    obtain ⟨_, _, _, _, _, _, _, _, _, rfl⟩ := (delete_eq_ok accepting).1 run
    exact absurd quiet (saved_ne rfl)
  · intro n node e run quiet
    obtain ⟨_, _, _, _, _, _, _, _, rfl⟩ := (restore_eq_ok accepting).1 run
    exact absurd quiet (saved_ne rfl)
  · intro n node e run quiet
    obtain ⟨_, _, _, _, _, _, _, _, _, _, rfl⟩ := (duplicate_eq_ok accepting).1 run
    exact absurd quiet (saved_ne rfl)
  · intro n typeName actor r e run quiet
    obtain ⟨_, _, _, _, _, _, _, _, _, _, _, _, _, _, _, rfl⟩ := (replace_eq_ok accepting).1 run
    exact absurd quiet (saved_ne (store_counted _ _))
  · intro n trashed r e run quiet
    obtain ⟨_, _, _, _, _, _, _, _, _, _, _, rfl⟩ := (restoreReplaced_eq_ok accepting).1 run
    exact absurd quiet (saved_ne rfl)
  · intro n p m e run quiet
    obtain ⟨_, _, _, _, _, _, _, _, _, _, _, _, _, _, rfl⟩ := (move_eq_ok accepting).1 run
    exact absurd quiet (saved_ne rfl)
  · exact fun m u e run _ => run

/-- An operation whose save is accepted does the same if others are refused. -/
theorem perform_of_free (free : env.saveFault (d.editor.store.attempts + 1) = none) :
    o.perform env d = o.perform env.unfailing d := by
  have runs := o.savesLast env d
  generalize o.perform env d = r at runs
  generalize o.perform env.unfailing d = r' at runs
  cases runs with
  | done quiet | failed quiet | saved free => rfl
  | refused h => exact absurd (h.fault.symm.trans free) (Option.some_ne_none _)

/-- An operation that succeeds with all saves accepted does the same, or its save is refused. -/
theorem perform_cases (run : o.perform env.unfailing d = .ok made e) :
    (o.perform env d = .ok made e ∧ (e.editor.store = d.editor.store ∨
      env.saveFault (d.editor.store.attempts + 1) = none)) ∨
    ∃ f e₁, o.perform env d = .error f e₁ ∧ Refused env o.leftover d e e₁ f := by
  have runs := o.savesLast env d
  rw [run] at runs
  generalize o.perform env d = r at runs
  cases runs with
  | done quiet => exact Or.inl ⟨rfl, Or.inl quiet⟩
  | saved free => exact Or.inl ⟨rfl, Or.inr free⟩
  | refused h => exact Or.inr ⟨_, _, rfl, h⟩

/-- An operation that comes to a save fails if that is refused. -/
theorem fails_of_fault (run : o.perform env.unfailing d = .ok made e)
    (saves : e.editor.store ≠ d.editor.store)
    (fault : env.saveFault (d.editor.store.attempts + 1) ≠ none) :
    ∃ f e₁, o.perform env d = .error f e₁ ∧ Refused env o.leftover d e e₁ f := by
  rcases perform_cases run with ⟨_, quiet | free⟩ | fails
  · exact absurd quiet saves
  · exact absurd free fault
  · exact fails

/-- An operation that fails with all saves accepted fails so if saves are refused. -/
theorem perform_of_error (run : o.perform env.unfailing d = .error f e) :
    o.perform env d = .error f e := by
  have runs := o.savesLast env d
  rw [run] at runs
  generalize o.perform env d = r at runs
  cases runs with
  | failed quiet | saved free => rfl

/-- The workflow keeps its id. -/
theorem keepsId (o : Operation) (env : Setup) :
    Within (fun d e => e.workflow.id = d.workflow.id) (o.perform env) :=
  (o.ends env).mono fun h => by
    cases h with
    | beside id | revised id => exact id
    | committed h => exact h.id

/-! ## Mirrored runs -/

/-- Only the workflow and its nodes in the trash decide which desks are mirrored. -/
theorem mirrors_of_refused (h : d.Mirrors σ d') (done : e.Mirrors σ e')
    (same : e.workflow.id = d.workflow.id) {left : Option NodeId} {f f' : Failure} {e₁ e₁' : Desk}
    (refused : Refused env left d e e₁ f) (refused' : Refused env' (left.map σ) d' e' e₁' f') :
    e₁.Mirrors σ e₁' where
  workflow := by
    rw [refused.workflow, refused'.workflow]
    exact done.workflow
  trash n := by
    have same' : e'.workflow.id = d'.workflow.id :=
      (done.workflow.id.trans same).trans h.workflow.id.symm
    have kept : e₁.own n = if left = some n then d.own n else e.own n := by
      unfold own Trash.own?
      rw [refused.workflow, refused.trash n, same]
      split <;> rfl
    have kept' : e₁'.own (σ n) = if left = some n then d'.own (σ n) else e'.own (σ n) := by
      unfold own Trash.own?
      rw [refused'.workflow, refused'.trash (σ n), same']
      have there : left.map σ = some (σ n) ↔ left = some n := by
        cases left <;> simp
      by_cases at_n : left = some n
      · rw [if_pos (there.2 at_n), if_pos at_n]
      · rw [if_neg (mt there.1 at_n), if_neg at_n]
    rw [kept, kept', h.trash n, done.trash n]
    split <;> rfl

/-- A workflow and its mirror image draw ids for the same operations. -/
theorem draws_mirrors_iff {registry : Registry} {w w' : Workflow} (h : w.Relabels σ w')
    (filed : w.Filed) (filed' : w'.Filed) :
    (o.relabel σ).Draws registry w' ↔ o.Draws registry w := by
  refine ⟨fun draws => ?_, Draws.mirrors h filed⟩
  have back := draws.mirrors h.symm filed'
  rwa [relabel_symm] at back

/-- An operation only drew an id where it had to. -/
theorem draws_of_next (o : Operation) (env : Setup) (d : Desk)
    (next : ((o.perform env).left d).editor.nextId = d.editor.nextId.next) :
    o.Draws env.registry d.workflow := by
  by_contra no
  exact Session.next_ne _ (next.symm.trans ((o.drawsIf env d).2 no))

/-- An operation fails on a mirrored desk if it fails on the desk and all saves are accepted. -/
theorem fails_mirrored (alike : Alike env env' d d') (h : d.Mirrors σ d') (filed : d.Filed)
    (filed' : d'.Filed) (apart : o.Apart d) (apart' : (o.relabel σ).Apart d')
    (fresh : o.Draws env.registry d.workflow → σ d.editor.nextId = d'.editor.nextId)
    (run : o.perform env.unfailing d = .error f e) :
    ∃ f' e', (o.relabel σ).perform env'.unfailing d' = .error f' e' := by
  cases run' : (o.relabel σ).perform env'.unfailing d' with
  | error f' e' => exact ⟨f', e', rfl⟩
  | ok made' e' =>
    have alike' : Alike env'.unfailing env.unfailing d' d :=
      ⟨alike.registry.symm, alike.branch.symm, rfl⟩
    have fresh' : e'.editor.nextId = d'.editor.nextId.next →
        σ.symm d'.editor.nextId = d.editor.nextId := by
      intro next
      have left : ((o.relabel σ).perform env'.unfailing).left d' = e' := by
        rw [Edit.left, run']
      have draws := draws_of_next (o.relabel σ) env'.unfailing d' (left ▸ next)
      rw [Setup.unfailing, alike.registry, draws_mirrors_iff h.workflow filed.workflow
        filed'.workflow] at draws
      exact (Equiv.symm_apply_eq σ).2 (fresh draws).symm
    have live' := live_of_claims env'.accepting_unfailing run'
    have clear : d.Clear ((o.relabel σ).claims.map σ.symm) := by
      have all : d.Clear o.claims := apart.clear fun n first => h.workflow.mem_nodes.1
        (live' (σ n) (by rw [claims_relabel, List.head?_map, first, Option.map_some]))
      rw [claims_relabel, List.map_map]
      simpa using all
    obtain ⟨e₁, back, _⟩ := Operation.echoes env'.accepting_unfailing env.accepting_unfailing alike'
      h.symm filed' (apart'.clear live') clear fresh' run'
    rw [relabel_symm, run] at back
    cases back

/-- An operation does to a mirrored desk what it does to the desk. -/
theorem mirrored (alike : Alike env env' d d') (h : d.Mirrors σ d') (filed : d.Filed)
    (filed' : d'.Filed) (apart : o.Apart d) (apart' : (o.relabel σ).Apart d')
    (fresh : o.Draws env.registry d.workflow → σ d.editor.nextId = d'.editor.nextId) :
    ((o.relabel σ).perform env').outcome d' = ((o.perform env).outcome d).map (Option.map σ) ∧
      ((o.perform env).left d).Mirrors σ (((o.relabel σ).perform env').left d') := by
  cases run : o.perform env.unfailing d with
  | error f e =>
    obtain ⟨f', e', run'⟩ := fails_mirrored alike h filed filed' apart apart' fresh run
    have idle := (o.idle_of_error env.accepting_unfailing filed run).drew
    have idle' := ((o.relabel σ).idle_of_error env'.accepting_unfailing filed' run').drew
    simp only [Edit.outcome, Edit.left, perform_of_error run, perform_of_error run',
      Option.map_none, true_and]
    exact h.of_eq idle.workflow idle.trash idle'.workflow idle'.trash
  | ok made e =>
    have fresh' : e.editor.nextId = d.editor.nextId.next → σ d.editor.nextId = d'.editor.nextId := by
      intro next
      have left : (o.perform env.unfailing).left d = e := by rw [Edit.left, run]
      exact fresh (draws_of_next o env.unfailing d (left ▸ next))
    have live := live_of_claims env.accepting_unfailing run
    have clear' : d'.Clear (o.claims.map σ) := by
      rw [← claims_relabel]
      refine apart'.clear fun m first => ?_
      rw [claims_relabel, List.head?_map] at first
      obtain ⟨n, head, rfl⟩ := Option.map_eq_some_iff.1 first
      exact h.workflow.mem_nodes.2 (live n head)
    obtain ⟨e', run', done, saves⟩ := Operation.echoes env.accepting_unfailing
      env'.accepting_unfailing ⟨alike.registry, alike.branch, rfl⟩ h filed (apart.clear live)
      clear' fresh' run
    by_cases quiet : e.editor.store = d.editor.store
    · simp only [Edit.outcome, Edit.left, perform_of_quiet run quiet,
        perform_of_quiet run' (saves.1 quiet), Option.map_some, true_and]
      exact done
    · have save := alike.save
      cases verdict : env.saveFault (d.editor.store.attempts + 1) with
      | none =>
        rw [verdict] at save
        simp only [Edit.outcome, Edit.left, perform_of_free verdict, perform_of_free save, run,
          run', Option.map_some, true_and]
        exact done
      | some fault =>
        have some_fault : some fault ≠ none := Option.some_ne_none fault
        obtain ⟨f, e₁, fails, refused⟩ := fails_of_fault run quiet (verdict ▸ some_fault)
        obtain ⟨f', e₁', fails', refused'⟩ :=
          fails_of_fault run' (mt saves.2 quiet) (save ▸ verdict ▸ some_fault)
        have same := (o.keepsId env.unfailing).ok run
        rw [leftover_relabel] at refused'
        simp only [Edit.outcome, Edit.left, fails, fails', Option.map_none, true_and]
        exact mirrors_of_refused h done same refused refused'

end Operation

end Autoflow
