import Autoflow.Proofs.Editing.Echoes

/-!
# Which operations draw an id

An id is drawn for a new node once the request has passed all checks that come before, whether
the operation succeeds then or not, and no other operation draws one (`Operation.drawsIf`).
-/

namespace Autoflow

namespace Edit

variable {α β ε : Type} {env : Setup} {d d' : Desk} {n : NodeId}

/-- The desk that an edit leaves, whether it succeeds or not. -/
def left (x : Edit α) (d : Desk) : Desk :=
  match x d with
  | .ok _ d' | .error _ d' => d'

/-- The result of an edit, if it succeeds. -/
def outcome (x : Edit α) (d : Desk) : Option α :=
  match x d with
  | .ok a _ => some a
  | .error _ _ => none

/-- What an edit does in any case it does to the desk that it leaves. -/
theorem Within.left {R : Desk → Desk → Prop} {x : Edit α} (h : Within R x) (d : Desk) :
    R d (x.left d) := by
  unfold Edit.left
  cases run : x d with
  | ok a d' => exact h.ok run
  | error f d' => exact h.error run

/-- An edit that goes on after another one leaves what its second part leaves. -/
theorem left_bind_ok {x : Edit α} {k : α → Edit β} {a : α} (run : x d = .ok a d') :
    (x >>= k).left d = (k a).left d' := by
  change Edit.left (EStateM.bind x k) d = _
  simp only [Edit.left, EStateM.bind, run]

/-- If the first part fails, it leaves what that leaves. -/
theorem left_bind_error {x : Edit α} {k : α → Edit β} {f : Failure} (run : x d = .error f d') :
    (x >>= k).left d = d' := by
  change Edit.left (EStateM.bind x k) d = _
  simp only [Edit.left, EStateM.bind, run]

/-- Renaming the result changes nothing of the desk. -/
theorem left_map (x : Edit α) (g : α → β) (d : Desk) :
    (x >>= fun a => pure (g a)).left d = x.left d := by
  change Edit.left (EStateM.bind x fun a => pure (g a)) d = _
  unfold Edit.left EStateM.bind
  cases x d <;> rfl

/-- The result is renamed if there is one. -/
theorem outcome_map (x : Edit α) (g : α → β) (d : Desk) :
    (x >>= fun a => pure (g a)).outcome d = (x.outcome d).map g := by
  change Edit.outcome (EStateM.bind x fun a => pure (g a)) d = _
  unfold Edit.outcome EStateM.bind
  cases x d <;> rfl

/-! ## Edits that draw no id -/

/-- The next id is the same. -/
abbrev SameNext (d d' : Desk) : Prop := d'.editor.nextId = d.editor.nextId

/-- An edit that draws no id. -/
abbrev Steady (x : Edit α) : Prop := Within SameNext x

/-- Edits that draw no id draw none one after the other. -/
theorem Steady.bind {x : Edit α} {k : α → Edit β} (hx : Steady x) (hk : ∀ a, Steady (k a)) :
    Steady (x >>= k) := Within.bind (fun h h' => h'.trans h) hx hk

/-- Only what comes before it decides whether an id is drawn. -/
theorem Steady.left_bind {x : Edit α} {k : α → Edit β} (hk : ∀ a, Steady (k a)) (d : Desk) :
    ((x >>= k).left d).editor.nextId = (x.left d).editor.nextId := by
  cases run : x d with
  | ok a d' =>
    rw [left_bind_ok run, (hk a).left d']
    simp only [Edit.left, run]
  | error f d' =>
    rw [left_bind_error run]
    simp only [Edit.left, run]

theorem Steady.ite {c : Prop} [Decidable c] {x y : Edit α} (yes : Steady x) (no : Steady y) :
    Steady (if c then x else y) := Within.ite yes no

theorem steady_pure (a : α) : Steady (pure a : Edit α) := within_pure (R := SameNext) (fun _ => rfl) a

theorem steady_check [Fault ε] (r : Except ε α) : Steady (check r) :=
  within_check (R := SameNext) (fun _ => rfl) r

theorem steady_workflow : Steady workflow := .of_run (fun _ => rfl) fun _ => rfl

theorem steady_editor : Steady editor := .of_run (fun _ => rfl) fun _ => rfl

theorem steady_modifyWorkflow (change : Workflow → Workflow) : Steady (modifyWorkflow change) :=
  .of_run (fun _ => rfl) fun _ => rfl

theorem steady_countBranch (needed : Bool) : Steady (countBranch needed) :=
  .of_run (fun _ => rfl) fun d => d.nextId_counted needed

/-- An edit of the graph draws no id, nor does any other step of an edit but the one that makes a
node. -/
theorem steady_onGraph (e : Graph.Edit Unit) : Steady (onGraph e) where
  ok {d _ _} h := by
    unfold onGraph at h
    cases run : e d.workflow.graph <;> rw [run] at h <;> cases h
    rfl
  error {d _ _} h := by
    unfold onGraph at h
    cases run : e d.workflow.graph <;> rw [run] at h <;> cases h
    rfl

theorem steady_throwAway (e : TrashEntry) : Steady (throwAway e) where
  ok {d _ _} h := by
    unfold throwAway at h
    cases run : d.editor.trash.put e <;> rw [run] at h <;> cases h
    rfl
  error {d _ _} h := by
    unfold throwAway at h
    cases run : d.editor.trash.put e <;> rw [run] at h <;> cases h
    rfl

theorem steady_takeBack (n : NodeId) (managed : Bool) : Steady (takeBack n managed) where
  ok {d _ _} h := by
    unfold takeBack at h
    cases run : d.editor.trash.restore n managed <;> rw [run] at h <;> cases h
    rfl
  error {d _ _} h := by
    unfold takeBack at h
    cases run : d.editor.trash.restore n managed <;> rw [run] at h <;> cases h
    rfl

theorem steady_forgetListing (id : WorkflowId) : Steady (forgetListing id) :=
  .of_run (fun _ => rfl) fun _ => rfl

/-- A commit draws no id, whether the save is accepted or refused. -/
theorem steady_commitOf (env : Setup) (w : Workflow) : Steady (commitOf env w) := by
  have saves : Steady (save env w) := by
    refine ⟨fun {d _ _} h => ?_, fun {d _ _} h => ?_⟩ <;> unfold save at h <;> split at h <;>
      cases h <;> rfl
  exact (steady_forgetListing w.id).bind fun _ => saves

theorem steady_commit (env : Setup) : Steady (commit env) :=
  steady_workflow.bind (steady_commitOf env)

section Edits

variable (env n)

/-- Of the operations, these draw no id at all: they rename, move or take away nodes that there are,
or bring them back. -/
theorem steady_update (values : NodeValues) : Steady (update env n values) := by
  unfold update
  refine steady_workflow.bind fun w => (steady_check _).bind fun node =>
    (steady_check _).bind fun type => ?_
  cases values.service with
  | none =>
    exact (steady_pure _).bind fun _ => (steady_modifyWorkflow _).bind fun _ =>
      (steady_forgetListing _).bind fun _ => steady_pure _
  | some config =>
    exact (steady_check _).bind fun service => (steady_check _).bind fun _ =>
      (steady_pure _).bind fun _ => (steady_modifyWorkflow _).bind fun _ =>
      (steady_forgetListing _).bind fun _ => steady_pure _

theorem steady_delete (actor : Option String) : Steady (delete env n actor) := by
  unfold delete
  exact steady_workflow.bind fun w => (steady_check _).bind fun node =>
    (steady_check _).bind fun type => (steady_check _).bind fun _ =>
    (steady_check _).bind fun position => (steady_check _).bind fun graph =>
    (steady_throwAway _).bind fun _ => (steady_modifyWorkflow _).bind fun _ =>
    (steady_commit env).bind fun _ => steady_pure _

theorem steady_restore : Steady (restore env n) := by
  unfold restore
  exact steady_workflow.bind fun w => steady_editor.bind fun e => (steady_check _).bind fun entry =>
    (steady_check _).bind fun p => (steady_check _).bind fun _ =>
    (steady_takeBack n false).bind fun entry => (steady_onGraph _).bind fun _ =>
    (steady_modifyWorkflow _).bind fun _ => (steady_commit env).bind fun _ => steady_pure _

theorem steady_restoreReplaced (trashed : NodeId) : Steady (restoreReplaced env n trashed) := by
  have swap : ∀ entry : TrashEntry,
      Steady (replace env n entry.node.typeName (some entry.node) none) := by
    intro entry
    unfold replace
    exact steady_workflow.bind fun w => (steady_check _).bind fun old =>
      (steady_pure _).bind fun choice => (steady_check _).bind fun position =>
      (steady_check _).bind fun graph => (steady_throwAway _).bind fun _ =>
      (steady_modifyWorkflow _).bind fun _ => (steady_countBranch _).bind fun _ =>
      (steady_commit env).bind fun _ => steady_pure _
  have rest : ∀ entry : TrashEntry,
      Steady (replace env n entry.node.typeName (some entry.node) none >>= fun replaced =>
        takeBack trashed true >>= fun _ => pure replaced) := fun entry =>
    (swap entry).bind fun _ => (steady_takeBack trashed true).bind fun _ => steady_pure _
  unfold restoreReplaced
  exact steady_editor.bind fun e => (steady_check _).bind fun entry =>
    .ite ((steady_check _).bind fun _ => rest entry) (rest entry)

theorem steady_move (p : Position) : Steady (move env n p) := by
  have rest : ∀ {w : Workflow} {kind : NodeKind} {node : Node} {reference : Option Node},
      Steady (check (w.checkMove kind node reference) >>= fun _ =>
        check (w.graph.position n) >>= fun origin => onGraph (Graph.move n p) >>= fun _ =>
        commit env >>= fun _ => pure (MovedNode.mk n origin p)) :=
    (steady_check _).bind fun _ => (steady_check _).bind fun origin =>
      (steady_onGraph _).bind fun _ => (steady_commit env).bind fun _ => steady_pure _
  unfold move
  exact steady_workflow.bind fun w => (steady_check _).bind fun node =>
    (steady_check _).bind fun type => (steady_check _).bind fun reference =>
    (steady_check _).bind fun _ => .ite ((steady_check _).bind fun _ => rest) rest

theorem steady_simulate (m : Option NodeId) : Steady (simulate m) := by
  unfold simulate
  exact steady_workflow.bind fun w => (steady_check _).bind fun w => steady_modifyWorkflow _

/-- A redo or an undo brings nodes back under the ids that they had. -/
theorem steady_redo (a : Action) : Steady (a.redo env) := by
  cases a with
  | create n | duplicate _ n => exact (steady_restore env n).bind fun _ => steady_pure _
  | update n _ values => exact (steady_update env n values).bind fun _ => steady_pure _
  | delete n => exact (steady_delete env n none).bind fun _ => steady_pure _
  | replace n _ former _ => exact (steady_restoreReplaced env former n).bind fun _ => steady_pure _
  | move n _ p => exact (steady_move env n p).bind fun _ => steady_pure _

end Edits

/-! ## Edits that draw an id -/

/-- An edit draws one id under a condition, and otherwise none. -/
def DrawsIf (c : Prop) (x : Edit α) (d : Desk) : Prop :=
  (c → (x.left d).editor.nextId = d.editor.nextId.next) ∧
    (¬ c → (x.left d).editor.nextId = d.editor.nextId)

/-- The condition may be put in other words. -/
theorem DrawsIf.congr {c c' : Prop} {x : Edit α} (h : DrawsIf c x d) (same : c ↔ c') :
    DrawsIf c' x d := ⟨fun yes => h.1 (same.2 yes), fun no => h.2 (mt same.1 no)⟩

/-- An edit that draws no id draws one on no condition. -/
theorem Steady.drawsIf {x : Edit α} (h : Steady x) : DrawsIf False x d :=
  ⟨nofun, fun _ => h.left d⟩

/-- What follows the first part and draws no id leaves the condition as it is. -/
theorem DrawsIf.bind {c : Prop} {x : Edit α} {k : α → Edit β} (h : DrawsIf c x d)
    (hk : ∀ a, Steady (k a)) : DrawsIf c (x >>= k) d := by
  unfold DrawsIf
  rw [Steady.left_bind hk]
  exact h

theorem DrawsIf.map {c : Prop} {x : Edit α} (h : DrawsIf c x d) (g : α → β) :
    DrawsIf c (x >>= fun a => pure (g a)) d := h.bind fun a => steady_pure (g a)

theorem DrawsIf.workflow {c : Prop} {k : Workflow → Edit β} (h : DrawsIf c (k d.workflow) d) :
    DrawsIf c (workflow >>= k) d := h

theorem DrawsIf.nextBranch {c : Prop} {k : String → Edit β}
    (h : DrawsIf c (k (env.branchUid (d.editor.branches + 1))) d) :
    DrawsIf c (nextBranch env >>= k) d := h

section

variable [Fault ε] {r : Except ε α} {k : α → Edit β}

/-- The check comes before the id is drawn, and what is checked later may depend on its result. -/
theorem DrawsIf.check {c : α → Prop} (h : ∀ a, DrawsIf (c a) (k a) d) :
    DrawsIf (∃ a, r = .ok a ∧ c a) (Edit.check r >>= k) d := by
  cases r with
  | error f => exact ⟨fun passed => by simp at passed, fun _ => rfl⟩
  | ok a =>
    have rest : DrawsIf (c a) (Edit.check (.ok a : Except ε α) >>= k) d := h a
    exact rest.congr (by simp)

/-- A check that says only yes or no is one more condition. -/
theorem DrawsIf.guard {r : Except ε Unit} {k : Unit → Edit β} {c : Prop}
    (h : DrawsIf c (k ()) d) : DrawsIf (r = .ok () ∧ c) (Edit.check r >>= k) d :=
  (DrawsIf.check (c := fun _ => c) fun _ => h).congr
    ⟨fun ⟨_, passed, rest⟩ => ⟨passed, rest⟩, fun ⟨passed, rest⟩ => ⟨(), passed, rest⟩⟩

end

/-- A new node takes an id, whether its service can be built or not. -/
theorem drawsIf_newNode {type : NodeType} {label : String} {config : Json} {w : WorkflowId} :
    DrawsIf True (newNode type label config w) d := by
  refine ⟨fun _ => ?_, fun no => absurd trivial no⟩
  have built : Steady (check (type.build config) >>= fun service =>
      pure (freshNode d type label w service)) := (steady_check _).bind fun _ => steady_pure _
  exact built.left d.drawn

variable (env n)

/-- A creation draws an id once its type is known and its slot has passed the checks. -/
theorem create_draws (typeName : String) (values : NodeValues) (p : Position) :
    DrawsIf (∃ type, env.registry.require typeName = .ok type ∧ ∃ reference,
      d.workflow.resolve p = .ok reference ∧
        d.workflow.checkPosition env.registry reference p = .ok () ∧
          d.workflow.checkCreate type.kind reference = .ok () ∧ True)
      (create env typeName values p) d := by
  unfold create
  exact .workflow (.check fun type => .check fun reference => .guard (.guard (.nextBranch
    (drawsIf_newNode.bind fun node => (steady_onGraph _).bind fun _ =>
    (steady_modifyWorkflow _).bind fun _ => (steady_countBranch _).bind fun _ =>
    (steady_commit env).bind fun _ => steady_pure _))))

/-- A copy draws an id once its source is live and may have a node behind it. -/
theorem duplicate_draws :
    DrawsIf (∃ source, d.workflow.node n = .ok source ∧ ∃ type,
      env.registry.require source.typeName = .ok type ∧
        d.workflow.checkCreate type.kind (some source) = .ok () ∧ True)
      (duplicate env n) d := by
  unfold duplicate
  exact .workflow (.check fun source => .check fun type => .guard (drawsIf_newNode.bind fun copy =>
    (steady_onGraph _).bind fun _ => (steady_modifyWorkflow _).bind fun _ =>
    (steady_commit env).bind fun _ => steady_pure _))

/-- The node that stands in for another one draws an id once both types are known and the one may
stand for the other. -/
theorem replacement_draws (w : Workflow) (old : Node) (typeName : String) :
    DrawsIf (∃ oldType, env.registry.require old.typeName = .ok oldType ∧ ∃ type,
      env.registry.require typeName = .ok type ∧ w.checkReplace oldType type old = .ok () ∧ True)
      (replacement env w old typeName) d := by
  unfold replacement
  exact .check fun oldType => .check fun type => .guard (.nextBranch (drawsIf_newNode.map _))

/-- So does a replacement, which makes that node first. -/
theorem replace_draws (typeName : String) (actor : Option String) :
    DrawsIf (∃ old, d.workflow.node n = .ok old ∧ ∃ oldType,
      env.registry.require old.typeName = .ok oldType ∧ ∃ type,
        env.registry.require typeName = .ok type ∧
          d.workflow.checkReplace oldType type old = .ok () ∧ True)
      (replace env n typeName none actor) d := by
  unfold replace
  exact .workflow (.check fun old => (replacement_draws env _ old typeName).bind fun choice =>
    (steady_check _).bind fun position => (steady_check _).bind fun graph =>
    (steady_throwAway _).bind fun _ => (steady_modifyWorkflow _).bind fun _ =>
    (steady_countBranch _).bind fun _ => (steady_commit env).bind fun _ => steady_pure _)

end Edit

namespace Operation

/-- An operation asks for a new node and passes the checks that come before an id is drawn. -/
def Draws (registry : Registry) (w : Workflow) : Operation → Prop
  | request (.create typeName _ p) => ∃ type reference, registry.require typeName = .ok type ∧
      w.resolve p = .ok reference ∧ w.checkPosition registry reference p = .ok () ∧
      w.checkCreate type.kind reference = .ok ()
  | request (.duplicate n) => ∃ source type, w.node n = .ok source ∧
      registry.require source.typeName = .ok type ∧
      w.checkCreate type.kind (some source) = .ok ()
  | request (.replace n typeName _) => ∃ old oldType type, w.node n = .ok old ∧
      registry.require old.typeName = .ok oldType ∧ registry.require typeName = .ok type ∧
      w.checkReplace oldType type old = .ok ()
  | request (.update _ _) | request (.delete _ _) | request (.move _ _) | restore _
  | restoreReplaced _ _ | simulate _ | undo _ | redo _ => False

open Edit

variable {σ : Equiv.Perm NodeId} {env env' : Setup} {d d' : Desk}

/-- Exactly when an operation draws an id, for each of them. -/
theorem drawsIf (o : Operation) (env : Setup) (d : Desk) :
    DrawsIf (o.Draws env.registry d.workflow) (o.perform env) d := by
  cases o with
  | request r =>
    refine .map ?_ _
    cases r with
    | create typeName values p =>
      refine .map ((create_draws env typeName values p).congr ?_) _
      simp only [Draws, exists_and_left, and_true]
    | update n values => exact (steady_update env n values).drawsIf.map _
    | delete n actor => exact (steady_delete env n actor).drawsIf.map _
    | duplicate n =>
      refine .map ((duplicate_draws env n).congr ?_) _
      simp only [Draws, exists_and_left, and_true]
    | replace n typeName actor =>
      refine .map ((replace_draws env n typeName actor).congr ?_) _
      simp only [Draws, exists_and_left, and_true]
    | move n p => exact (steady_move env n p).drawsIf.map _
  | restore n => exact (steady_restore env n).drawsIf.map _
  | restoreReplaced n trashed => exact (steady_restoreReplaced env n trashed).drawsIf.map _
  | simulate m => exact (steady_simulate m).drawsIf.map _
  | undo h =>
    refine .map ?_ _
    obtain ⟨_ | ⟨a, rest⟩, redoable⟩ := h
    · exact (steady_pure _).drawsIf
    · refine .map ?_ _
      rw [Action.undo_eq_redo]
      exact (steady_redo env a.inverse).drawsIf
  | redo h =>
    refine .map ?_ _
    obtain ⟨undoable, _ | ⟨a, rest⟩⟩ := h
    · exact (steady_pure _).drawsIf
    · exact (steady_redo env a).drawsIf.map _

/-- A workflow and its mirror image pass the same checks. -/
theorem Draws.mirrors {registry : Registry} {w w' : Workflow} {o : Operation}
    (h : w.Relabels σ w') (filed : w.Filed) (draws : o.Draws registry w) :
    (o.relabel σ).Draws registry w' := by
  cases o with
  | request r =>
    cases r with
    | create typeName values p =>
      obtain ⟨type, reference, ht, hr, hp, hc⟩ := draws
      exact ⟨type, _, ht, h.resolve hr, h.checkPosition hp, h.checkCreate hc⟩
    | duplicate n =>
      obtain ⟨source, type, hn, ht, hc⟩ := draws
      exact ⟨source.relabel σ, type, Workflow.node_eq_ok.2 (h.get? (Workflow.node_eq_ok.1 hn)), ht,
        h.checkCreate hc⟩
    | replace n typeName actor =>
      obtain ⟨old, oldType, type, hn, ho, ht, hc⟩ := draws
      replace hn := Workflow.node_eq_ok.1 hn
      have mem := (filed.ids _).2 (filed.id hn ▸ NodeMap.mem_ids_of_get? hn)
      exact ⟨old.relabel σ, oldType, type, Workflow.node_eq_ok.2 (h.get? hn), ho, ht,
        h.checkReplace mem hc⟩
    | update n values | delete n actor | move n p => exact draws
  | restore n | restoreReplaced n trashed | simulate m | undo h | redo h => exact draws

end Operation

end Autoflow
