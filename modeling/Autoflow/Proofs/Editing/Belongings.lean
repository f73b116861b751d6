import Autoflow.Proofs.Editing.Reflections

/-!
# What belongs to a workflow

The trash is common to all workflows, and each of its entries belongs to one. As long as an
operation meets no node of another workflow there, it leaves what belongs to other workflows alone
and only makes nodes live that its workflow had in the trash or that are new (`Operation.minds`).
-/

namespace Autoflow

namespace Desk

/-- A node of the workflow at hand, live or in the trash. -/
def Sees (d : Desk) (n : NodeId) : Prop :=
  n ∈ d.workflow.nodes.ids ∨ ∃ entry, d.own n = some entry

/-- Under each id the trash is as it was, or what was there and what is there now belongs to the
workflow at hand. -/
def TrashMinded (d e : Desk) : Prop :=
  ∀ n, e.editor.trash.get? n = d.editor.trash.get? n ∨
    d.Clear [n] ∧ ∀ entry, e.editor.trash.get? n = some entry →
      entry.workflow = d.workflow.id ∧ n ∈ d.workflow.nodes.ids

/-- Only nodes of the workflow at hand and a new one came and went. -/
structure Minds (d e : Desk) : Prop where
  id : e.workflow.id = d.workflow.id
  trash : d.TrashMinded e
  live : ∀ n ∈ e.workflow.nodes.ids, d.Sees n ∨
    n = d.editor.nextId ∧ e.editor.nextId = d.editor.nextId.next

variable {env : Setup} {d e : Desk} {n : NodeId} {w : WorkflowId} {entry : TrashEntry}

/-! ## The trash -/

theorem clear_of_none (free : d.editor.trash.get? n = none) : d.Clear [n] := by
  intro m mem entry held
  rw [List.mem_singleton.1 mem, free] at held
  cases held

theorem clear_of_some (held : d.editor.trash.get? n = some entry)
    (home : entry.workflow = d.workflow.id) : d.Clear [n] := by
  intro m mem other held'
  rw [List.mem_singleton.1 mem, held] at held'
  cases held'
  exact home

theorem TrashMinded.of_eq (same : e.editor.trash = d.editor.trash) : d.TrashMinded e :=
  fun n => Or.inl (by rw [same])

/-- A live node was thrown away. -/
theorem trashMinded_of_put (entry : TrashEntry) (live : n ∈ d.workflow.nodes.ids)
    (free : d.editor.trash.get? n = none) (home : entry.workflow = d.workflow.id)
    (trash : ∀ k, e.editor.trash.get? k = if n = k then some entry else d.editor.trash.get? k) :
    d.TrashMinded e := by
  intro k
  by_cases same : n = k
  · subst same
    refine Or.inr ⟨clear_of_none free, fun other held => ?_⟩
    rw [trash n, if_pos rfl] at held
    cases held
    exact ⟨home, live⟩
  · exact Or.inl (by rw [trash k, if_neg same])

/-- A node of the workflow was taken out. -/
theorem TrashMinded.takenBack {e' : Desk} (h : d.TrashMinded e) (clear : d.Clear [n])
    (trash : ∀ k, e'.editor.trash.get? k = if n = k then none else e.editor.trash.get? k) :
    d.TrashMinded e' := by
  intro k
  by_cases same : n = k
  · subst same
    refine Or.inr ⟨clear, fun other held => ?_⟩
    rw [trash n, if_pos rfl] at held
    cases held
  · rw [trash k, if_neg same]
    exact h k

theorem TrashMinded.after_refusal {left : Option NodeId} {f : Failure} {e₁ : Desk}
    (h : d.TrashMinded e) (refused : Refused env left d e e₁ f) : d.TrashMinded e₁ := by
  intro n
  rw [refused.trash n]
  split
  · exact Or.inl rfl
  · exact h n

/-! ## What follows -/

theorem Idle.minds (idle : d.Idle e) : d.Minds e where
  id := by rw [idle.drew.workflow]
  trash := .of_eq idle.drew.trash
  live n mem := by
    rw [idle.drew.workflow] at mem
    exact Or.inl (Or.inl mem)

theorem Minds.after_refusal {left : Option NodeId} {f : Failure} {e₁ : Desk} (h : d.Minds e)
    (refused : Refused env left d e e₁ f) : d.Minds e₁ where
  id := by rw [refused.workflow, h.id]
  trash := h.trash.after_refusal refused
  live n mem := by
    rw [refused.workflow] at mem
    rw [refused.nextId]
    exact h.live n mem

/-- What belongs to other workflows stays as it was. -/
theorem Minds.own_other (h : d.Minds e) (other : w ≠ d.workflow.id) (n : NodeId) :
    e.editor.trash.own? w n = d.editor.trash.own? w n := by
  unfold Trash.own?
  rcases h.trash n with same | ⟨clear, after⟩
  · rw [same]
  · have none_before : (d.editor.trash.get? n).filter (fun e => e.workflow = w) = none := by
      refine Option.filter_eq_none_iff.2 fun entry held => ?_
      have home := clear n List.mem_cons_self entry held
      simpa [home] using other.symm
    have none_after : (e.editor.trash.get? n).filter (fun e => e.workflow = w) = none := by
      refine Option.filter_eq_none_iff.2 fun entry held => ?_
      have home := (after entry held).1
      simpa [home] using other.symm
    rw [none_before, none_after]

/-- If the trash only has nodes of the workflow, so it does afterwards. -/
theorem Minds.home (h : d.Minds e)
    (home : ∀ n entry, d.editor.trash.get? n = some entry → entry.workflow = d.workflow.id) :
    ∀ n entry, e.editor.trash.get? n = some entry → entry.workflow = e.workflow.id := by
  intro n entry held
  rw [h.id]
  rcases h.trash n with same | ⟨_, after⟩
  · exact home n entry (same ▸ held)
  · exact (after entry held).1

/-- A node that is seen afterwards was seen before or is new. -/
theorem Minds.sees (h : d.Minds e) (seen : e.Sees n) :
    d.Sees n ∨ n = d.editor.nextId ∧ e.editor.nextId = d.editor.nextId.next := by
  rcases seen with live | ⟨entry, held⟩
  · exact h.live n live
  · rw [own, h.id] at held
    rcases h.trash n with same | ⟨_, after⟩
    · rw [Trash.own?, same] at held
      exact Or.inl (Or.inr ⟨entry, held⟩)
    · exact Or.inl (Or.inl (after entry (Trash.own?_eq_some.1 held).1).2)

end Desk

namespace Operation

open Desk Edit

variable {env : Setup} {d e : Desk} {o : Operation} {made : Option NodeId} {n : NodeId}

theorem mem_claims_of_leftover (h : o.leftover = some n) : n ∈ o.claims := by
  have redo : ∀ a : Action, a.leftover = some n → n ∈ a.claims := by
    intro a h
    cases a <;> cases h
    exact List.mem_cons_of_mem _ List.mem_cons_self
  cases o with
  | request _ | restore _ | simulate _ => cases h
  | restoreReplaced m trashed =>
    cases h
    exact List.mem_cons_of_mem _ List.mem_cons_self
  | undo h' =>
    obtain ⟨_ | ⟨a, rest⟩, redoable⟩ := h'
    · cases h
    · exact redo a.inverse h
  | redo h' =>
    obtain ⟨undoable, _ | ⟨a, rest⟩⟩ := h'
    · cases h
    · exact redo a h

/-- An operation that succeeds only touches what the trash has of its workflow, if it does so with
what is left over. -/
theorem trashMinded (accepting : env.Accepting) (filed : d.Filed)
    (clear : ∀ n, o.leftover = some n → d.Clear [n]) (run : o.perform env d = .ok made e) :
    d.TrashMinded e := by
  refine Operation.induct (P := fun {α} left x => (∀ n, left = some n → d.Clear [n]) →
    ∀ (a : α) e, x env d = .ok a e → d.TrashMinded e)
    ?_ ?_ ?_ ?_ ?_ ?_ ?_ ?_ ?_ ?_ ?_ o clear made e run
  · intro α a _ b e run
    obtain ⟨_, rfl⟩ := pure_eq_ok.1 run
    exact .of_eq rfl
  · intro α β left x g ih clear b e run
    obtain ⟨a, done, _⟩ := map_eq_ok.1 run
    exact ih clear a e done
  · intro typeName values p _ node e run
    obtain ⟨_, _, _, _, _, _, _, _, _, _, _, rfl⟩ := (create_eq_ok accepting).1 run
    exact .of_eq (by rw [trash_saved, trash_counted]; rfl)
  · intro n values _ u e run
    obtain ⟨_, _, _, _, _, _, _, rfl⟩ := update_eq_ok.1 run
    exact .of_eq rfl
  · intro n actor _ node e run
    obtain ⟨_, p, _, hn, _, _, _, _, free, rfl⟩ := (delete_eq_ok accepting).1 run
    have id := filed.workflow.id hn
    exact trashMinded_of_put (deletion d node actor p) (NodeMap.mem_ids_of_get? hn)
      (id ▸ free) rfl (get?_thrownAway id d)
  · intro n _ node e run
    obtain ⟨entry, p, _, he, hp, _, _, _, rfl⟩ := (restore_eq_ok accepting).1 run
    exact (TrashMinded.of_eq rfl).takenBack
      (clear_of_some he (recordedPosition_eq_ok.1 hp).1) (get?_takenBack d n)
  · intro n _ node e run
    obtain ⟨_, _, _, _, _, _, _, _, _, _, rfl⟩ := (duplicate_eq_ok accepting).1 run
    exact .of_eq rfl
  · intro n typeName actor _ r e run
    obtain ⟨old, _, _, _, p, _, hn, _, _, _, _, _, _, free, _, rfl⟩ :=
      (replace_eq_ok accepting).1 run
    have id := filed.workflow.id hn
    refine trashMinded_of_put (retirement d old actor p) (NodeMap.mem_ids_of_get? hn)
      (id ▸ free) rfl fun k => ?_
    rw [trash_saved, trash_counted]
    exact get?_thrownAway (e := retirement d old actor p) id d.drawn k
  · intro n trashed clear r e run
    obtain ⟨_, old, p, g, _, _, hn, _, _, free, _, rfl⟩ := (restoreReplaced_eq_ok accepting).1 run
    have id := filed.workflow.id hn
    have out : d.TrashMinded (thrownAway d (retirement d old none p)) :=
      trashMinded_of_put _ (NodeMap.mem_ids_of_get? hn) (id ▸ free) rfl (get?_thrownAway id d)
    exact out.takenBack (clear trashed rfl) (get?_takenBack _ trashed)
  · intro n p _ m e run
    obtain ⟨_, _, _, _, _, _, _, _, _, _, _, _, _, _, rfl⟩ := (move_eq_ok accepting).1 run
    exact .of_eq rfl
  · intro m _ u e run
    obtain ⟨_, rfl⟩ := simulate_eq_ok.1 run
    exact .of_eq rfl

/-- A node that an operation made live was of the workflow or is new. -/
theorem sees_of_live (accepting : env.Accepting) (filed : d.Filed) (minded : d.TrashMinded e)
    (run : o.perform env d = .ok made e) (live : n ∈ e.workflow.nodes.ids) :
    d.Sees n ∨ n = d.editor.nextId ∧ e.editor.nextId = d.editor.nextId.next := by
  obtain ⟨out, into, back, exchange⟩ := o.exchange accepting filed run
  rcases (exchange.mem_nodes n).1 live with new | ⟨_, old⟩
  · obtain ⟨node, rfl, rfl⟩ := Option.map_eq_some_iff.1 new
    have arrival := exchange.arrival
    generalize e.editor.nextId = next at arrival
    cases arrival with
    | fresh _ id => exact Or.inr ⟨id, rfl⟩
    | version _ live _ => exact Or.inl (Or.inl live)
    | back _ trashed =>
      -- The entry is gone, so the trash was changed there.
      obtain ⟨entry, held, _⟩ := Option.map_eq_some_iff.1 trashed
      have gone : e.editor.trash.node? node.id = none := by rw [exchange.trash, if_pos rfl]
      rcases minded node.id with same | ⟨clear, _⟩
      · rw [Trash.node?, same, held] at gone
        cases gone
      · exact Or.inl (Or.inr ⟨entry, clear.own_eq.trans held⟩)
  · exact Or.inl (Or.inl old)

/-- An operation that meets no node of another workflow in the trash minds its own ones. -/
theorem minds (o : Operation) (env : Setup) (filed : d.Filed) (apart : o.Apart d) :
    d.Minds ((o.perform env).left d) := by
  have accepting := env.accepting_unfailing
  unfold Edit.left
  cases run : o.perform env.unfailing d with
  | error f e =>
    rw [perform_of_error run]
    exact (o.idle_of_error accepting filed run).minds
  | ok made e =>
    have clear := apart.clear (live_of_claims accepting run)
    have minded := trashMinded accepting filed (fun n left m mem =>
      clear m (List.mem_singleton.1 mem ▸ mem_claims_of_leftover left)) run
    have done : d.Minds e := ⟨(o.keepsId env.unfailing).ok run, minded,
      fun n => sees_of_live accepting filed minded run⟩
    rcases perform_cases run with ⟨real, _⟩ | ⟨f, e₁, real, refused⟩
    · rw [real]
      exact done
    · rw [real]
      exact done.after_refusal refused

end Operation

end Autoflow
