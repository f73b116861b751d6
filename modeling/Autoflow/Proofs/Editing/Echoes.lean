import Autoflow.Proofs.Editing.Mirrors

/-!
# Edits of mirrored desks

An edit that succeeds on a desk succeeds on a mirrored one with the ids exchanged, as long as it
does not meet nodes of other workflows in the trash, and it leaves mirrored desks
(`create_mirrors` and its siblings). What the two environments answer has to agree, and the
permutation has to take the id that is drawn on the one desk to that drawn on the other.
-/

namespace Autoflow

namespace Edit

open Desk

variable {α : Type} {σ : Equiv.Perm NodeId} {env env' : Setup} {d d' e : Desk} {n : NodeId}
  {node : Node} {p : Position}

/-- An edit succeeds on a desk and leaves it mirrored and with a graph saved, if one was saved on
the other one. -/
def Echoes (σ : Equiv.Perm NodeId) (d e : Desk) (x : Edit α) (a : α) (d' : Desk) : Prop :=
  ∃ e', x d' = .ok a e' ∧ e.Mirrors σ e' ∧
    (e.editor.store = d.editor.store ↔ e'.editor.store = d'.editor.store)

/-- A desk that was saved has a store that differs, since attempts are counted. -/
theorem saved_ne (quiet : e.editor.store = d.editor.store) :
    e.saved.editor.store ≠ d.editor.store := by
  intro same
  have count := congrArg Store.attempts same
  rw [← quiet] at count
  exact absurd count (Nat.succ_ne_self _)

/-- An edit that saved last echoes one that did. -/
theorem echoes_saved {x : Edit α} {a : α} {e' : Desk} (run : x d' = .ok a e'.saved)
    (quiet : e.editor.store = d.editor.store) (quiet' : e'.editor.store = d'.editor.store)
    (h : e.Mirrors σ e') : Echoes σ d e.saved x a d' :=
  ⟨e'.saved, run, h.saved, iff_of_false (saved_ne quiet) (saved_ne quiet')⟩

theorem store_counted (d : Desk) (needed : Bool) :
    (d.counted needed).editor.store = d.editor.store := by
  cases needed <;> rfl

section

variable (accepting : env.Accepting) (accepting' : env'.Accepting) (alike : Alike env env' d d')
  (h : d.Mirrors σ d')

/-- A node made from the next id of one desk is mirrored by that made from the next id of the
other. -/
theorem freshNode_relabel (h : d.Mirrors σ d') (fresh : σ d.editor.nextId = d'.editor.nextId)
    (type : NodeType) (label : String) (service : Service) :
    (freshNode d type label d.workflow.id service).relabel σ =
      freshNode d' type label d'.workflow.id service := by
  simp [freshNode, Node.relabel, fresh, h.workflow.id]

include accepting accepting' alike h in
/-- A creation is echoed if the permutation takes the one drawn id to the other. The slot that it
names is mirrored. -/
theorem create_mirrors {typeName : String} {values : NodeValues}
    (fresh : e.editor.nextId = d.editor.nextId.next → σ d.editor.nextId = d'.editor.nextId)
    (run : create env typeName values p d = .ok node e) :
    Echoes σ d e (create env' typeName values (p.relabel σ)) (node.relabel σ) d' := by
  obtain ⟨type, reference, service, g, ht, hr, hp, hc, hs, hg, rfl, rfl⟩ :=
    (create_eq_ok accepting).1 run
  rw [nextId_saved, nextId_counted] at fresh
  replace fresh := fresh rfl
  rw [← alike.registry] at ht hp
  rw [← alike.branch] at hs
  have hg' := h.workflow.insert hg
  rw [fresh] at hg'
  have mirrors := (h.drawn.planted g (freshNode d type (values.label.getD "") d.workflow.id
    service)).counted (type.needsBranch (values.service.getD .null))
  rw [freshNode_relabel h fresh] at mirrors ⊢
  exact echoes_saved ((create_eq_ok accepting').2 ⟨type, _, service, _, ht, h.workflow.resolve hr,
    h.workflow.checkPosition hp, h.workflow.checkCreate hc, hs, hg', rfl, rfl⟩)
    (store_counted _ _) (store_counted _ _) mirrors

include alike h in
/-- An update draws no id and does not touch the trash, so nothing else is asked. -/
theorem update_mirrors {values : NodeValues} {u : UpdatedNode} (filed : d.Filed)
    (run : update env n values d = .ok u e) :
    Echoes σ d e (update env' (σ n) values) { u with node := u.node.relabel σ } d' := by
  obtain ⟨node, type, service, hn, ht, hs, rfl, rfl⟩ := update_eq_ok.1 run
  rw [← alike.registry] at ht
  have mem := (filed.workflow.ids _).2 (filed.workflow.id hn ▸ NodeMap.mem_ids_of_get? hn)
  have hs' : (values.service = none ∧ service = (node.relabel σ).service) ∨ ∃ config,
      values.service = some config ∧ type.build config = .ok service ∧
        d'.workflow.checkUpdate type.kind (node.relabel σ) service = .ok () :=
    hs.imp_right fun ⟨config, given, build, kept⟩ =>
      ⟨config, given, build, h.workflow.checkUpdate mem kept⟩
  exact ⟨_, update_eq_ok.2 ⟨_, type, service, h.workflow.get? hn, ht, hs', rfl, rfl⟩,
    (h.setWorkflow (w := d.workflow.addNode _) rfl (h.workflow.addNode _)).unlisted,
    iff_of_true rfl rfl⟩

include accepting accepting' alike h in
/-- A deletion is echoed if no other workflow has the id in the trash of the mirrored desk, where it
would be refused. -/
theorem delete_mirrors {actor : Option String} (filed : d.Filed) (clear : d'.Clear [σ n])
    (run : delete env n actor d = .ok node e) :
    Echoes σ d e (delete env' (σ n) actor) (node.relabel σ) d' := by
  obtain ⟨type, p, g, hn, ht, hc, hp, hg, free, rfl⟩ := (delete_eq_ok accepting).1 run
  rw [← alike.registry] at ht
  have id := filed.workflow.id hn
  have mem := (filed.workflow.ids _).2 (id ▸ NodeMap.mem_ids_of_get? hn)
  have hg' := h.workflow.remove hg
  have free' : d'.editor.trash.get? (node.relabel σ).id = none :=
    h.trash_eq_none (n := node.id) (id.symm ▸ clear) free
  have mirrors := (h.thrownAway (deletion d node actor p) rfl).uprooted g n
  rw [h.deletion] at mirrors
  exact echoes_saved ((delete_eq_ok accepting').2 ⟨type, _, _, h.workflow.get? hn, ht,
    h.workflow.checkDelete mem hc, h.workflow.position hp, hg', free', rfl⟩) rfl rfl mirrors

include accepting accepting' alike h in
/-- A restoration only succeeds with an entry of the workflow, which is mirrored. -/
theorem restore_mirrors (run : restore env n d = .ok node e) :
    Echoes σ d e (restore env' (σ n)) (node.relabel σ) d' := by
  obtain ⟨entry, p, g, he, hp, hc, hg, rfl, rfl⟩ := (restore_eq_ok accepting).1 run
  obtain ⟨home, managed, at_p⟩ := recordedPosition_eq_ok.1 hp
  have he' := h.get?_trash (Trash.own?_eq_some.2 ⟨he, home⟩)
  have hp' : recordedPosition d'.workflow (entry.relabel σ) = .ok (p.relabel σ) :=
    recordedPosition_eq_ok.2 ⟨home.trans h.workflow.id.symm, managed, by
      simp [TrashEntry.relabel, at_p]⟩
  have hc' : checkRestore env' d'.workflow (entry.relabel σ) (p.relabel σ) = .ok () := by
    refine checkRestore_eq_ok.2 ((checkRestore_eq_ok.1 hc).imp ?_ ?_)
    · rintro ⟨r, reference, ref, hr, out⟩
      exact ⟨σ r, _, by simp [Position.relabel, ref], h.workflow.get? hr, out⟩
    · rintro ⟨ref, type, ht, root⟩
      rw [← alike.registry] at ht
      refine ⟨by simp [Position.relabel, ref], type, ht, fun trigger => ?_⟩
      rw [h.workflow.root, root trigger, Option.map_none]
  have hg' := h.workflow.insert hg
  exact echoes_saved ((restore_eq_ok accepting').2 ⟨_, _, _, he', hp', hc', hg', rfl, rfl⟩) rfl rfl
    ((h.takenBack n).planted g entry.node)

include accepting accepting' alike h in
/-- A copy draws an id and builds its service from the export of the source, which is the same. -/
theorem duplicate_mirrors
    (fresh : e.editor.nextId = d.editor.nextId.next → σ d.editor.nextId = d'.editor.nextId)
    (run : duplicate env n d = .ok node e) :
    Echoes σ d e (duplicate env' (σ n)) (node.relabel σ) d' := by
  obtain ⟨source, type, service, g, hn, ht, hc, hs, hg, rfl, rfl⟩ :=
    (duplicate_eq_ok accepting).1 run
  replace fresh := fresh rfl
  rw [← alike.registry] at ht
  have hg' := h.workflow.insert hg
  rw [fresh] at hg'
  have mirrors := h.drawn.planted g (freshNode d type source.label d.workflow.id service)
  rw [freshNode_relabel h fresh] at mirrors ⊢
  exact echoes_saved ((duplicate_eq_ok accepting').2 ⟨_, type, service, _, h.workflow.get? hn, ht,
    h.workflow.checkCreate hc, hs, hg', rfl, rfl⟩) rfl rfl mirrors

include accepting accepting' alike h in
/-- A replacement draws an id and throws a node away, so it asks for both. -/
theorem replace_mirrors {typeName : String} {actor : Option String} {r : ReplacedNode}
    (filed : d.Filed) (clear : d'.Clear [σ n])
    (fresh : e.editor.nextId = d.editor.nextId.next → σ d.editor.nextId = d'.editor.nextId)
    (run : replace env n typeName none actor d = .ok r e) :
    Echoes σ d e (replace env' (σ n) typeName none actor)
      ⟨r.node.relabel σ, σ r.formerId, r.formerType⟩ d' := by
  obtain ⟨old, oldType, type, service, p, g, hn, ho, ht, hc, hs, hp, hg, free, rfl, rfl⟩ :=
    (replace_eq_ok accepting).1 run
  rw [nextId_saved, nextId_counted] at fresh
  replace fresh := fresh rfl
  rw [← alike.registry] at ho ht
  rw [← alike.branch] at hs
  have id := filed.workflow.id hn
  have mem := (filed.workflow.ids _).2 (id ▸ NodeMap.mem_ids_of_get? hn)
  have hg' := h.workflow.replace hg
  rw [fresh] at hg'
  have free' : d'.editor.trash.get? (old.relabel σ).id = none :=
    h.trash_eq_none (n := old.id) (id.symm ▸ clear) free
  have mirrors := (((h.drawn.thrownAway (retirement d old actor p) rfl).uprooted g n
    ).planted g (freshNode d type "" d.workflow.id service)).counted (type.needsBranch .null)
  rw [h.retirement, freshNode_relabel h fresh] at mirrors
  rw [freshNode_relabel h fresh]
  exact echoes_saved ((replace_eq_ok accepting').2 ⟨_, oldType, type, service, _, _,
    h.workflow.get? hn, ho, ht, h.workflow.checkReplace mem hc, hs, h.workflow.position hp, hg',
    free', rfl, rfl⟩) (store_counted _ _) (store_counted _ _) mirrors

include accepting accepting' h in
/-- The entry that comes back must belong to the workflow. It is not checked, so this has to be
asked for. -/
theorem restoreReplaced_mirrors {trashed : NodeId} {r : ReplacedNode} (filed : d.Filed)
    (clear : d.Clear [trashed]) (clear' : d'.Clear [σ n])
    (run : restoreReplaced env n trashed d = .ok r e) :
    Echoes σ d e (restoreReplaced env' (σ n) (σ trashed))
      ⟨r.node.relabel σ, σ r.formerId, r.formerType⟩ d' := by
  obtain ⟨entry, old, p, g, he, managed, hn, hp, hg, free, rfl, rfl⟩ :=
    (restoreReplaced_eq_ok accepting).1 run
  have id := filed.workflow.id hn
  have home := clear trashed List.mem_cons_self entry he
  have he' := h.get?_trash (Trash.own?_eq_some.2 ⟨he, home⟩)
  have hg' := h.workflow.replace hg
  have free' : d'.editor.trash.get? (old.relabel σ).id = none :=
    h.trash_eq_none (n := old.id) (id.symm ▸ clear') free
  have mirrors := (((h.thrownAway (retirement d old none p) rfl).uprooted g n
    ).planted g entry.node).saved.takenBack trashed
  rw [h.retirement] at mirrors
  have quiet : ∀ d : Desk, d.saved.editor.store ≠ d.editor.store := fun d => saved_ne rfl
  refine ⟨_, (restoreReplaced_eq_ok accepting').2 ⟨_, _, _, _, he', managed, h.workflow.get? hn,
    h.workflow.position hp, hg', free', rfl, rfl⟩, mirrors, iff_of_false (quiet _) (quiet _)⟩

include accepting accepting' alike h in
/-- A move is echoed with both of its slots mirrored. -/
theorem move_mirrors {m : MovedNode} (filed : d.Filed) (run : move env n p d = .ok m e) :
    Echoes σ d e (move env' (σ n) (p.relabel σ))
      ⟨σ m.node, m.origin.relabel σ, m.destination.relabel σ⟩ d' := by
  obtain ⟨node, type, reference, origin, g, hn, ht, hr, hp, ne, hc, ho, hg, rfl, rfl⟩ :=
    (move_eq_ok accepting).1 run
  rw [← alike.registry] at ht hp
  have mem := (filed.workflow.ids _).2 (filed.workflow.id hn ▸ NodeMap.mem_ids_of_get? hn)
  have held : ∀ r, p.reference = some r → r ∈ d.workflow.graph.ids := by
    intro r ref
    rcases Workflow.resolve_eq_ok.1 hr with ⟨root, _⟩ | ⟨r', node', ref', hr', _⟩
    · rw [ref] at root
      cases root
    · rw [ref] at ref'
      cases ref'
      exact (filed.workflow.ids r).2 (NodeMap.mem_ids_of_get? hr')
  have hg' := h.workflow.move held ho hg
  have ne' : (p.relabel σ).reference ≠ some (σ n) := by
    intro same
    obtain ⟨r, ref, same⟩ := Option.map_eq_some_iff.1 same
    exact ne (ref.trans (congrArg some (σ.injective same)))
  exact echoes_saved ((move_eq_ok accepting').2 ⟨_, type, _, _, _, h.workflow.get? hn, ht,
    h.workflow.resolve hr, h.workflow.checkPosition hp, ne', h.workflow.checkMove mem hc,
    h.workflow.position ho, hg', rfl, rfl⟩) rfl rfl (h.setWorkflow rfl (h.workflow.setGraph g))

include h in
/-- The marker is set to the mirrored node. -/
theorem simulate_mirrors {m : Option NodeId} {u : Unit} (run : simulate m d = .ok u e) :
    Echoes σ d e (simulate (m.map σ)) u d' := by
  obtain ⟨live, rfl⟩ := simulate_eq_ok.1 run
  have live' : ∀ k, m.map σ = some k → k ∈ d'.workflow.nodes.ids := by
    intro k marked
    obtain ⟨n, rfl, rfl⟩ := Option.map_eq_some_iff.1 marked
    exact h.workflow.mem_nodes.2 (live n rfl)
  exact ⟨_, simulate_eq_ok.2 ⟨live', rfl⟩, h.setWorkflow rfl
    ⟨h.workflow.graph, h.workflow.nodes, rfl, h.workflow.id, h.workflow.name⟩,
    iff_of_true rfl rfl⟩

end

/-- The result of an edit is only looked at. -/
theorem Echoes.map {β : Type} {x : Edit α} {a : α} (g : α → β) (h : Echoes σ d e x a d') :
    Echoes σ d e (x >>= fun a => pure (g a)) (g a) d' := by
  obtain ⟨e', run, mirrors, saves⟩ := h
  exact ⟨e', map_eq_ok.2 ⟨a, run, rfl⟩, mirrors, saves⟩

end Edit

/-! ## Operations -/

namespace Action

/-- An action with other ids. -/
def relabel (f : NodeId → NodeId) : Action → Action
  | create n => create (f n)
  | update n before after => update (f n) before after
  | delete n => delete (f n)
  | duplicate source n => duplicate (f source) (f n)
  | replace n typeName former formerType => replace (f n) typeName (f former) formerType
  | move n origin destination => move (f n) (origin.relabel f) (destination.relabel f)

/-- The inverse of an action under other names is its inverse. -/
theorem inverse_relabel (f : NodeId → NodeId) (a : Action) :
    (a.relabel f).inverse = a.inverse.relabel f := by
  cases a <;> rfl

/-- The ids under which an action puts nodes into the trash when it is done again, and those of
replaced nodes that it takes out. -/
def claims : Action → List NodeId
  | delete n => [n]
  | replace n _ former _ => [former, n]
  | create _ | update _ _ _ | duplicate _ _ | move _ _ _ => []

end Action

/-- A request with other ids. -/
def Request.relabel (f : NodeId → NodeId) : Request → Request
  | create typeName values p => create typeName values (p.relabel f)
  | update n values => update (f n) values
  | delete n actor => delete (f n) actor
  | duplicate n => duplicate (f n)
  | replace n typeName actor => replace (f n) typeName actor
  | move n p => move (f n) (p.relabel f)

/-- A history with other ids. -/
def History.relabel (f : NodeId → NodeId) (h : History) : History :=
  ⟨h.undoable.map (Action.relabel f), h.redoable.map (Action.relabel f)⟩

namespace Operation

/-- An operation with other ids. -/
def relabel (f : NodeId → NodeId) : Operation → Operation
  | request r => request (r.relabel f)
  | restore n => restore (f n)
  | restoreReplaced n trashed => restoreReplaced (f n) (f trashed)
  | simulate n => simulate (n.map f)
  | undo h => undo (h.relabel f)
  | redo h => redo (h.relabel f)

/-- The ids under which an operation puts nodes into the trash, and those of replaced nodes that it
takes out. -/
def claims : Operation → List NodeId
  | request (.delete n _) | request (.replace n _ _) => [n]
  | restoreReplaced n trashed => [n, trashed]
  | undo h => h.undoable.head?.elim [] fun a => a.inverse.claims
  | redo h => h.redoable.head?.elim [] Action.claims
  | request _ | restore _ | simulate _ => []

end Operation

section Operations

open Desk Edit

variable {σ : Equiv.Perm NodeId} {env env' : Setup} {d d' e : Desk}
  (accepting : env.Accepting) (accepting' : env'.Accepting) (alike : Alike env env' d d')
  (h : d.Mirrors σ d') (filed : d.Filed)

include accepting accepting' alike h filed

/-- An action is done again on the mirrored desk as on the desk, if neither meets nodes of other
workflows among those that it claims. -/
theorem Action.echoes {a : Action} {u : Unit} (clear : d.Clear a.claims)
    (clear' : d'.Clear (a.claims.map σ)) (run : a.redo env d = .ok u e) :
    Echoes σ d e ((a.relabel σ).redo env') u d' := by
  cases a with
  | create n | duplicate _ n =>
    obtain ⟨node, done, _⟩ := map_eq_ok.1 run
    exact (restore_mirrors accepting accepting' alike h done).map _
  | update n before after =>
    obtain ⟨u, done, _⟩ := map_eq_ok.1 run
    exact (update_mirrors alike h filed done).map _
  | delete n =>
    obtain ⟨node, done, _⟩ := map_eq_ok.1 run
    exact (delete_mirrors accepting accepting' alike h filed clear' done).map _
  | replace n typeName former formerType =>
    obtain ⟨r, done, _⟩ := map_eq_ok.1 run
    have at_former : d'.Clear [σ former] := fun k mem => clear' k (by simp_all [Action.claims])
    have at_n : d.Clear [n] := fun k mem => clear k (by simp_all [Action.claims])
    exact (restoreReplaced_mirrors accepting accepting' h filed at_n at_former done).map _
  | move n origin p =>
    obtain ⟨m, done, _⟩ := map_eq_ok.1 run
    exact (move_mirrors accepting accepting' alike h filed done).map _

/-- An operation that succeeds on a desk succeeds on the mirrored one. -/
theorem Operation.echoes {o : Operation} {made : Option NodeId} (clear : d.Clear o.claims)
    (clear' : d'.Clear (o.claims.map σ))
    (fresh : e.editor.nextId = d.editor.nextId.next → σ d.editor.nextId = d'.editor.nextId)
    (run : o.perform env d = .ok made e) :
    Echoes σ d e ((o.relabel σ).perform env') (made.map σ) d' := by
  cases o with
  | request r =>
    obtain ⟨shown, asked, rfl⟩ := map_eq_ok.1 run
    cases r with
    | create typeName values p =>
      obtain ⟨node, done, rfl⟩ := map_eq_ok.1 asked
      exact ((create_mirrors accepting accepting' alike h fresh done).map _).map _
    | update n values =>
      obtain ⟨u, done, rfl⟩ := map_eq_ok.1 asked
      exact ((update_mirrors alike h filed done).map _).map _
    | delete n actor =>
      obtain ⟨node, done, rfl⟩ := map_eq_ok.1 asked
      exact ((delete_mirrors accepting accepting' alike h filed clear' done).map _).map _
    | duplicate n =>
      obtain ⟨node, done, rfl⟩ := map_eq_ok.1 asked
      exact ((duplicate_mirrors accepting accepting' alike h fresh done).map _).map _
    | replace n typeName actor =>
      obtain ⟨r, done, rfl⟩ := map_eq_ok.1 asked
      exact ((replace_mirrors accepting accepting' alike h filed clear' fresh done).map _).map _
    | move n p =>
      obtain ⟨m, done, rfl⟩ := map_eq_ok.1 asked
      exact ((move_mirrors accepting accepting' alike h filed done).map _).map _
  | restore n =>
    obtain ⟨node, done, rfl⟩ := map_eq_ok.1 run
    exact (restore_mirrors accepting accepting' alike h done).map _
  | restoreReplaced n trashed =>
    obtain ⟨r, done, rfl⟩ := map_eq_ok.1 run
    have at_trashed : d.Clear [trashed] := fun k mem => clear k (by simp_all [Operation.claims])
    have at_n : d'.Clear [σ n] := fun k mem => clear' k (by simp_all [Operation.claims])
    exact (restoreReplaced_mirrors accepting accepting' h filed at_trashed at_n done).map _
  | simulate m =>
    obtain ⟨u, done, rfl⟩ := map_eq_ok.1 run
    exact (simulate_mirrors h done).map _
  | undo history =>
    obtain ⟨shown, asked, rfl⟩ := map_eq_ok.1 run
    obtain ⟨_ | ⟨a, rest⟩, redoable⟩ := history
    · obtain ⟨_, rfl⟩ := pure_eq_ok.1 asked
      exact ⟨d', rfl, h, iff_of_true rfl rfl⟩
    · obtain ⟨u, done, rfl⟩ := map_eq_ok.1 asked
      rw [Action.undo_eq_redo] at done
      have undone := Action.echoes accepting accepting' alike h filed clear clear' done
      rw [← Action.inverse_relabel, ← Action.undo_eq_redo] at undone
      exact (undone.map _).map _
  | redo history =>
    obtain ⟨shown, asked, rfl⟩ := map_eq_ok.1 run
    obtain ⟨undoable, _ | ⟨a, rest⟩⟩ := history
    · obtain ⟨_, rfl⟩ := pure_eq_ok.1 asked
      exact ⟨d', rfl, h, iff_of_true rfl rfl⟩
    · obtain ⟨u, done, rfl⟩ := map_eq_ok.1 asked
      exact ((Action.echoes accepting accepting' alike h filed clear clear' done).map _).map _

end Operations

end Autoflow
