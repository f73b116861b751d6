import Autoflow.Editing.Actions
import Autoflow.Proofs.Editing.Tidy
import Autoflow.Proofs.Graph.Entries

/-!
# Edits that fail

An edit whose saves are accepted fails before it changes anything but the counter of ids: the
checks come first, graphs are rewired on a copy or by a step that fails cleanly, and what follows
cannot fail. Only bringing a node back takes it out of the trash before the graph is asked, so
there the live nodes have to stand in the graph (`restore_error`).
-/

namespace Autoflow.Edit

open Desk (Idle)

variable {α β : Type} {env : Setup} {d d' : Desk} {f : Failure} {n : NodeId} {p : Position}

/-! ## Steps -/

/-- What follows an edit of the graph that fails cleanly is what makes a chain fail, unless
nothing was changed. -/
theorem onGraph_bind_failed {e : Graph.Edit Unit} {k : Unit → Edit β}
    (clean : ∀ {f g'}, e d.workflow.graph = .error f g' → g' = d.workflow.graph)
    (h : (onGraph e >>= k) d = .error f d') : d = d' ∨ ∃ g,
      k () { d with workflow := { d.workflow with graph := g } } = .error f d' := by
  cases run : e d.workflow.graph with
  | ok _ g => exact Or.inr ⟨g, (onGraph_bind_error run).1 h⟩
  | error fault g =>
    have stop : onGraph e d = .error (.graph fault) d := by
      simp only [onGraph, run]
      rw [clean run]
    rcases bind_eq_error.1 h with h | ⟨_, _, h, _⟩
    · rw [stop] at h
      cases h
      exact Or.inl rfl
    · rw [stop] at h
      cases h

theorem throwAway_bind_failed {e : TrashEntry} {k : Unit → Edit β}
    (h : (throwAway e >>= k) d = .error f d') : d = d' ∨ k () (thrownAway d e) = .error f d' := by
  cases new : d.editor.trash.get? e.node.id with
  | none =>
    rw [throwAway_bind new] at h
    exact Or.inr h
  | some old =>
    rcases bind_eq_error.1 h with h | ⟨_, _, h, _⟩
    · rw [throwAway_fails new] at h
      cases h
      exact Or.inl rfl
    · rw [throwAway_fails new] at h
      cases h

/-- An edit whose result is only looked at fails as the edit does. -/
theorem map_eq_error {x : Edit α} {g : α → β} :
    (x >>= fun a => pure (g a)) d = .error f d' ↔ x d = .error f d' := by
  rw [bind_eq_error]
  refine or_iff_left ?_
  rintro ⟨_, _, _, h⟩
  exact pure_ne_error h

/-! ## Edits of one workflow -/

section Edits

variable (accepting : env.Accepting)

include accepting in
theorem create_error {typeName : String} {values : NodeValues}
    (h : create env typeName values p d = .error f d') : Idle d d' := by
  unfold create at h
  rw [workflow_bind] at h
  rcases check_bind_error h with e | ⟨type, _, h⟩
  · exact Or.inl e
  rcases check_bind_error h with e | ⟨reference, _, h⟩
  · exact Or.inl e
  rcases check_bind_error h with e | ⟨_, _, h⟩
  · exact Or.inl e
  rcases check_bind_error h with e | ⟨_, _, h⟩
  · exact Or.inl e
  rw [nextBranch_bind] at h
  rcases newNode_bind_error h with e | ⟨service, _, h⟩
  · exact Or.inr e
  rcases onGraph_bind_failed Graph.insert_error h with e | ⟨g, h⟩
  · exact Or.inr e
  rw [modifyWorkflow_bind, countBranch_bind, commit_bind accepting] at h
  exact absurd h pure_ne_error

theorem update_error {values : NodeValues} (h : update env n values d = .error f d') :
    Idle d d' := by
  unfold update at h
  rw [workflow_bind] at h
  rcases check_bind_error h with e | ⟨node, _, h⟩
  · exact Or.inl e
  rcases check_bind_error h with e | ⟨type, _, h⟩
  · exact Or.inl e
  cases hs : values.service with
  | none =>
    rw [hs] at h
    cases h
  | some config =>
    rw [hs] at h
    rcases check_bind_error h with e | ⟨service, _, h⟩
    · exact Or.inl e
    rcases check_bind_error h with e | ⟨_, _, h⟩
    · exact Or.inl e
    cases h

include accepting in
theorem delete_error {actor : Option String} (h : delete env n actor d = .error f d') :
    Idle d d' := by
  unfold delete at h
  rw [workflow_bind] at h
  rcases check_bind_error h with e | ⟨node, _, h⟩
  · exact Or.inl e
  rcases check_bind_error h with e | ⟨type, _, h⟩
  · exact Or.inl e
  rcases check_bind_error h with e | ⟨_, _, h⟩
  · exact Or.inl e
  rcases check_bind_error h with e | ⟨p, _, h⟩
  · exact Or.inl e
  rcases check_bind_error h with e | ⟨g, _, h⟩
  · exact Or.inl e
  rcases throwAway_bind_failed h with e | h
  · exact Or.inl e
  rw [modifyWorkflow_bind, commit_bind accepting] at h
  exact absurd h pure_ne_error

include accepting in
/-- The slot of a node that comes back belongs to a live node, which has to stand in the graph. -/
theorem restore_error (held : ∀ r, r ∈ d.workflow.nodes.ids → r ∈ d.workflow.graph.ids)
    (h : restore env n d = .error f d') : Idle d d' := by
  unfold restore at h
  rw [workflow_bind, editor_bind] at h
  rcases check_bind_error h with e | ⟨entry, he, h⟩
  · exact Or.inl e
  rcases check_bind_error h with e | ⟨p, hp, h⟩
  · exact Or.inl e
  rcases check_bind_error h with e | ⟨_, hc, h⟩
  · exact Or.inl e
  have managed : entry.isManaged = true → false = true := by
    intro m
    rw [(recordedPosition_eq_ok.1 hp).2.1] at m
    exact m
  obtain ⟨g, run⟩ : ∃ g, Graph.insert n p (takenBack d n).workflow.graph = .ok () g := by
    refine Graph.insert_run fun r ref => ?_
    rcases checkRestore_eq_ok.1 hc with ⟨_, reference, e, hr, _⟩ | ⟨e, _⟩
    · rw [ref] at e
      cases e
      exact held r (NodeMap.mem_ids_of_get? hr)
    · rw [ref] at e
      cases e
  rw [takeBack_bind (trashed_eq_ok.1 he) managed, onGraph_bind_error run, modifyWorkflow_bind,
    commit_bind accepting] at h
  exact absurd h pure_ne_error

include accepting in
theorem duplicate_error (h : duplicate env n d = .error f d') : Idle d d' := by
  unfold duplicate at h
  rw [workflow_bind] at h
  rcases check_bind_error h with e | ⟨source, _, h⟩
  · exact Or.inl e
  rcases check_bind_error h with e | ⟨type, _, h⟩
  · exact Or.inl e
  rcases check_bind_error h with e | ⟨_, _, h⟩
  · exact Or.inl e
  rcases newNode_bind_error h with e | ⟨service, _, h⟩
  · exact Or.inr e
  rcases onGraph_bind_failed Graph.insert_error h with e | ⟨g, h⟩
  · exact Or.inr e
  rw [modifyWorkflow_bind, commit_bind accepting] at h
  exact absurd h pure_ne_error

include accepting in
/-- The new node of a replacement uses an id up, an existing one does not. -/
theorem replace_error {typeName : String} {existing : Option Node} {actor : Option String}
    (h : replace env n typeName existing actor d = .error f d') : Idle d d' := by
  -- From the choice of the node on, both ways are the same.
  have swap : ∀ {w : Workflow} {old new : Node} {generated : Bool} {d : Desk},
      (check (w.graph.position n) >>= fun position =>
        check (w.graph.edited (Graph.replace n new.id)) >>= fun graph =>
        throwAway { node := old, workflow := w.id, trashedBy := actor, reason := .replaced
                    position := some position } >>= fun _ =>
        modifyWorkflow (fun w => (({ w with graph }.takeNode n).addNode new)) >>= fun _ =>
        countBranch generated >>= fun _ => commit env >>= fun _ =>
        pure (ReplacedNode.mk new n old.typeName)) d = .error f d' → d = d' := by
    intro w old new generated d h
    rcases check_bind_error h with e | ⟨p, _, h⟩
    · exact e
    rcases check_bind_error h with e | ⟨g, _, h⟩
    · exact e
    rcases throwAway_bind_failed h with e | h
    · exact e
    rw [modifyWorkflow_bind, countBranch_bind, commit_bind accepting] at h
    exact absurd h pure_ne_error
  cases existing with
  | some node =>
    simp only [replace, pure_bind] at h
    rw [workflow_bind] at h
    rcases check_bind_error h with e | ⟨old, _, h⟩
    · exact Or.inl e
    exact Or.inl (swap h)
  | none =>
    simp only [replace, replacement, bind_assoc, pure_bind] at h
    rw [workflow_bind] at h
    rcases check_bind_error h with e | ⟨old, _, h⟩
    · exact Or.inl e
    rcases check_bind_error h with e | ⟨oldType, _, h⟩
    · exact Or.inl e
    rcases check_bind_error h with e | ⟨type, _, h⟩
    · exact Or.inl e
    rcases check_bind_error h with e | ⟨_, _, h⟩
    · exact Or.inl e
    rw [nextBranch_bind] at h
    rcases newNode_bind_error h with e | ⟨service, _, h⟩
    · exact Or.inr e
    exact Or.inr (swap h)

include accepting in
/-- After the replacement the node is taken out of the trash, where it still is. -/
theorem restoreReplaced_error {trashed : NodeId}
    (h : restoreReplaced env n trashed d = .error f d') : Idle d d' := by
  unfold restoreReplaced at h
  rw [editor_bind] at h
  rcases check_bind_error h with e | ⟨entry, he, h⟩
  · exact Or.inl e
  cases managed : entry.isManaged with
  | false =>
    simp only [managed, Bool.not_false, if_true] at h
    rcases check_bind_error h with e | ⟨_, e, _⟩
    · exact Or.inl e
    · cases e
  | true =>
    simp only [managed, Bool.not_true, Bool.false_eq_true, if_false] at h
    rcases bind_eq_error.1 h with h | ⟨r, d₁, run, h⟩
    · exact replace_error accepting h
    rw [takeBack_bind (get?_trash_of_replace accepting run (trashed_eq_ok.1 he)) fun _ => rfl] at h
    exact absurd h pure_ne_error

include accepting in
theorem move_error (h : move env n p d = .error f d') : Idle d d' := by
  unfold move at h
  rw [workflow_bind] at h
  rcases check_bind_error h with e | ⟨node, hn, h⟩
  · exact Or.inl e
  rcases check_bind_error h with e | ⟨type, ht, h⟩
  · exact Or.inl e
  rcases check_bind_error h with e | ⟨reference, hr, h⟩
  · exact Or.inl e
  rcases check_bind_error h with e | ⟨_, hp, h⟩
  · exact Or.inl e
  by_cases off : p.reference = some n
  · simp only [off, if_true] at h
    rcases check_bind_error h with e | ⟨_, e, _⟩
    · exact Or.inl e
    · cases e
  simp only [off, if_false] at h
  rcases check_bind_error h with e | ⟨_, hc, h⟩
  · exact Or.inl e
  rcases check_bind_error h with e | ⟨origin, ho, h⟩
  · exact Or.inl e
  rcases onGraph_bind_failed Graph.move_error h with e | ⟨g, h⟩
  · exact Or.inl e
  rw [commit_bind accepting] at h
  exact absurd h pure_ne_error

theorem simulate_error {m : Option NodeId} (h : simulate m d = .error f d') : Idle d d' := by
  unfold simulate at h
  rw [workflow_bind] at h
  rcases check_bind_error h with e | ⟨w, _, h⟩
  · exact Or.inl e
  · cases h

include accepting in
/-- A request that fails leaves the desk as it was, but for an id that it may have drawn. -/
theorem request_error {r : Request} (h : r.perform env d = .error f d') : Idle d d' := by
  cases r with
  | create typeName values p => exact create_error accepting (map_eq_error.1 h)
  | update n values => exact update_error (map_eq_error.1 h)
  | delete n actor => exact delete_error accepting (map_eq_error.1 h)
  | duplicate n => exact duplicate_error accepting (map_eq_error.1 h)
  | replace n typeName actor => exact replace_error accepting (map_eq_error.1 h)
  | move n p => exact move_error accepting (map_eq_error.1 h)

end Edits

end Autoflow.Edit
