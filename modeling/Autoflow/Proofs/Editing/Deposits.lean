import Autoflow.Proofs.Editing.Replicas

/-!
# How nodes got into the trash

An operation that throws a node away records the node, its workflow and its slot as they are then,
and no other step puts anything into the trash (`Session.Filed.deposit`). So an entry in the trash
goes back to one step of the session, and it was there ever since (`Session.opened_deposited`).
-/

namespace Autoflow

/-- An edit threw a node away: the entry has the live node, its workflow and its slot, and it only
says that the node was deleted if that is what the edit did. -/
structure Desk.Discards (env : Setup) (d d' : Desk) (n : NodeId) (entry : TrashEntry) : Prop where
  live : d.workflow.nodes.get? n = some entry.node
  home : entry.workflow = d.workflow.id
  slot : ∃ p, d.workflow.graph.position n = .ok p ∧ entry.position = some p
  deletion : entry.reason = .deleted → ∃ actor, Edit.delete env n actor d = .ok entry.node d'

namespace Operation

open Edit Desk

variable {env : Setup} {d d' : Desk} {n m : NodeId} {e entry : TrashEntry}

/-- What is in the trash after a node was thrown away was there, or it is the new entry. -/
theorem discards_of_put (new : d.Discards env d' m e)
    (held : (if m = n then some e else d.editor.trash.get? n) = some entry) :
    d.editor.trash.get? n = some entry ∨ d.Discards env d' n entry := by
  split at held
  · next same =>
    cases held
    subst same
    exact Or.inr new
  · exact Or.inl held

/-- What is in the trash after a node was taken out was there before. -/
theorem of_takenBack (held : (takenBack d m).editor.trash.get? n = some entry) :
    d.editor.trash.get? n = some entry := by
  rw [get?_takenBack] at held
  split at held
  · cases held
  · exact held

/-- What an operation finds in the trash it leaves as it is or takes out, and what it puts there is
a live node that it throws away. -/
theorem discards (o : Operation) (accepting : env.Accepting) (filed : d.Filed)
    {made : Option NodeId} (run : o.perform env d = .ok made d')
    (held : d'.editor.trash.get? n = some entry) :
    d.editor.trash.get? n = some entry ∨ d.Discards env d' n entry := by
  refine Operation.induct (P := fun {α} _ x => ∀ (a : α) d', x env d = .ok a d' →
    ∀ {n entry}, d'.editor.trash.get? n = some entry →
      d.editor.trash.get? n = some entry ∨ d.Discards env d' n entry)
    ?_ ?_ ?_ ?_ ?_ ?_ ?_ ?_ ?_ ?_ ?_ o made d' run held
  · intro α a b d' run n entry held
    obtain ⟨_, rfl⟩ := pure_eq_ok.1 run
    exact Or.inl held
  · intro α β left x g ih b d' run
    obtain ⟨a, done, _⟩ := map_eq_ok.1 run
    exact ih a d' done
  · intro typeName values p node d' run n entry held
    obtain ⟨_, _, _, _, _, _, _, _, _, _, _, rfl⟩ := (create_eq_ok accepting).1 run
    rw [trash_saved, trash_counted] at held
    exact Or.inl held
  · intro m values u d' run n entry held
    obtain ⟨_, _, _, _, _, _, _, rfl⟩ := update_eq_ok.1 run
    exact Or.inl held
  · intro m actor node d' run n entry held
    have deleted := run
    obtain ⟨_, p, _, hn, _, _, at_p, _, _, rfl⟩ := (delete_eq_ok accepting).1 run
    have put := get?_thrownAway (e := deletion d node actor p) (filed.workflow.id hn) d n
    exact discards_of_put ⟨hn, rfl, ⟨p, at_p, rfl⟩, fun _ => ⟨actor, deleted⟩⟩
      (put.symm.trans held)
  · intro m node d' run n entry held
    obtain ⟨_, _, _, _, _, _, _, _, rfl⟩ := (restore_eq_ok accepting).1 run
    exact Or.inl (of_takenBack held)
  · intro m node d' run n entry held
    obtain ⟨_, _, _, _, _, _, _, _, _, _, rfl⟩ := (duplicate_eq_ok accepting).1 run
    exact Or.inl held
  · intro m typeName actor r d' run n entry held
    obtain ⟨old, _, _, _, p, _, hn, _, _, _, _, at_p, _, _, _, rfl⟩ :=
      (replace_eq_ok accepting).1 run
    have put := get?_thrownAway (e := retirement d old actor p) (filed.workflow.id hn) d.drawn n
    rw [trash_saved, trash_counted] at held
    exact discards_of_put (e := retirement d old actor p) ⟨hn, rfl, ⟨p, at_p, rfl⟩, nofun⟩
      (put.symm.trans held)
  · intro m trashed r d' run n entry held
    obtain ⟨_, old, p, _, _, _, hn, at_p, _, _, _, rfl⟩ := (restoreReplaced_eq_ok accepting).1 run
    have put := get?_thrownAway (e := retirement d old none p) (filed.workflow.id hn) d n
    exact discards_of_put (e := retirement d old none p) ⟨hn, rfl, ⟨p, at_p, rfl⟩, nofun⟩
      (put.symm.trans (of_takenBack held))
  · intro m p moved d' run n entry held
    obtain ⟨_, _, _, _, _, _, _, _, _, _, _, _, _, _, rfl⟩ := (move_eq_ok accepting).1 run
    exact Or.inl held
  · intro m u d' run n entry held
    obtain ⟨_, rfl⟩ := simulate_eq_ok.1 run
    exact Or.inl held

end Operation

namespace Session

/-- A step throws a node away. -/
def Deposits (s : Session) (step : Step) (n : NodeId) (entry : TrashEntry) : Prop :=
  ∃ name o d d', step = .operate name o ∧ s.desk? name = some d ∧ s.after step = s.keep name d' ∧
    d.Discards s.setup d' n entry

/-- An entry is in the trash before a run and after each of its steps. -/
def Holds (s : Session) (steps : List Step) (n : NodeId) (entry : TrashEntry) : Prop :=
  ∀ later, later <+: steps → (s.run later).editor.trash.get? n = some entry

/-- An entry was put into the trash by a step of a run and was there ever since. -/
def Deposited (s : Session) (steps : List Step) (n : NodeId) (entry : TrashEntry) : Prop :=
  ∃ before step later, steps = before ++ step :: later ∧ (s.run before).Deposits step n entry ∧
    ((s.run before).after step).Holds later n entry

variable {s : Session} {step : Step} {steps : List Step} {n : NodeId} {entry : TrashEntry}

theorem Holds.cons (held : s.editor.trash.get? n = some entry)
    (after : (s.after step).Holds steps n entry) : s.Holds (step :: steps) n entry := by
  intro later first
  rcases List.prefix_cons_iff.1 first with rfl | ⟨rest, rfl, start⟩
  · exact held
  · exact after rest start

/-- An operation takes place on the desk of its workflow, if there is one. -/
theorem operate_cases (s : Session) (name : String) (o : Operation) : s.operate name o = s ∨
    ∃ d d', s.desk? name = some d ∧ s.operate name o = s.keep name d' ∧
      ((∃ made, o.perform s.setup d = .ok made d') ∨ ∃ f, o.perform s.setup d = .error f d') := by
  have ends : Edit.Within (fun d d' => (∃ made, o.perform s.setup d = .ok made d') ∨
      ∃ f, o.perform s.setup d = .error f d') (o.perform s.setup) :=
    ⟨fun run => Or.inl ⟨_, run⟩, fun run => Or.inr ⟨_, run⟩⟩
  rcases leave_cases ends s name with same | ⟨d, d', here, outcome, same⟩
  · exact Or.inl same
  · exact Or.inr ⟨d, d', here, same, outcome⟩

/-- What is in the trash after a step was there before or was thrown away in this step. -/
theorem Filed.deposit (filed : s.Filed) (accepting : s.setup.Accepting)
    (held : (s.after step).editor.trash.get? n = some entry) :
    s.editor.trash.get? n = some entry ∨ s.Deposits step n entry := by
  have unmoved : ∀ {name} {d d' : Desk}, s.desk? name = some d →
      d'.editor.trash = d.editor.trash → d'.editor.trash.get? n = some entry →
      s.editor.trash.get? n = some entry := by
    intro name d d' here same held
    rwa [same, (desk?_eq_some.1 here).2] at held
  have idle : ∀ {α : Type} (e : Edit α) {name}, Edit.Within
      (fun d d' => d'.editor.trash = d.editor.trash) e →
      (s.leave name e).editor.trash.get? n = some entry → s.editor.trash.get? n = some entry := by
    intro α e name within held
    rcases leave_cases within s name with same | ⟨d, d', here, trash, same⟩
    · rwa [same] at held
    · rw [same] at held
      exact unmoved here trash held
  cases step with
  | operate name o =>
    rcases operate_cases s name o with same | ⟨d, d', here, same, outcome⟩
    · exact Or.inl (same ▸ held)
    · change (s.operate name o).editor.trash.get? n = some entry at held
      rw [same] at held
      rcases outcome with ⟨made, run⟩ | ⟨f, run⟩
      · rcases o.discards accepting (filed.desk here) run held with old | new
        · exact Or.inl (unmoved here rfl old)
        · exact Or.inr ⟨name, o, d, d', rfl, here, same, new⟩
      · have drew := (o.idle_of_error accepting (filed.desk here) run).drew
        exact Or.inl (unmoved here drew.trash held)
  | copy name copyName id title =>
    refine Or.inl ?_
    change (s.copy name copyName id title).editor.trash.get? n = some entry at held
    rcases copy_cases s name copyName id title with ⟨same, _⟩ | ⟨d, d', here, outcome⟩
    · exact same ▸ held
    · rcases outcome with ⟨w, run, same⟩ | ⟨f, run, same⟩ <;> rw [same] at held
      · obtain ⟨_, _, trash⟩ := Edit.duplicateWorkflow_ok (filed.desk here).workflow run
        exact unmoved here trash held
      · exact unmoved here (Edit.duplicateWorkflow_error accepting run).drew.trash held
  | list name => exact Or.inl (idle Edit.listNodes (.of_run (fun _ => rfl) fun _ => rfl) held)
  | reserve name =>
    exact Or.inl (idle Edit.reserveIds (.of_run Edit.reserveIds_run fun _ => rfl) held)

/-- What is in the trash after a run was there all the time, or a step of the run threw it away. -/
theorem Filed.deposited (filed : s.Filed) (accepting : s.setup.Accepting) (steps : List Step)
    (held : (s.run steps).editor.trash.get? n = some entry) :
    s.Holds steps n entry ∨ s.Deposited steps n entry := by
  induction steps generalizing s with
  | nil =>
    refine Or.inl fun later first => ?_
    rw [List.prefix_nil.1 first]
    exact held
  | cons step steps ih =>
    rcases ih (filed.after step) (setup_after s step ▸ accepting) held with all | earlier
    · rcases filed.deposit accepting (all [] List.nil_prefix) with old | new
      · exact Or.inl (all.cons old)
      · exact Or.inr ⟨[], step, steps, rfl, new, all⟩
    · obtain ⟨before, step', later, rfl, new, all⟩ := earlier
      exact Or.inr ⟨step :: before, step', later, rfl, new, all⟩

/-- Whatever is in the trash of a session that started with empty workflows was thrown away by one
of its steps. -/
theorem opened_deposited (setup : Setup) (accepting : setup.Accepting) (nodeCache : Bool)
    (shelf : List (String × WorkflowId × String)) (steps : List Step)
    (held : ((opened setup nodeCache shelf).run steps).editor.trash.get? n = some entry) :
    (opened setup nodeCache shelf).Deposited steps n entry := by
  rcases (filed_opened setup nodeCache shelf).deposited accepting steps held with all | deposited
  · cases all [] List.nil_prefix
  · exact deposited

end Session

end Autoflow
