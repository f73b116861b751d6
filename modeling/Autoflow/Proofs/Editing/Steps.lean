import Autoflow.Editing.Operations

/-!
# How edits run

An edit is a chain of steps on the desk. A step that cannot fail is carried out in front of the
rest of the chain by an equation; for one that can there is a lemma on how the chain succeeds
and one on how it fails. A save that is not refused changes nothing that an edit reads
(`commit_bind`).
-/

namespace Autoflow

namespace Desk

/-- The desk after a fresh id was taken. -/
def drawn (d : Desk) : Desk := { d with editor := { d.editor with nextId := d.editor.nextId.next } }

/-- The desk after a generated branch was counted, if there was need of one. -/
def counted (d : Desk) (needed : Bool) : Desk :=
  { d with
    editor := if needed then { d.editor with branches := d.editor.branches + 1 } else d.editor }

/-- The desk after the listing of the workflow was forgotten. -/
def unlisted (d : Desk) : Desk :=
  { d with
    editor := { d.editor with
      listings := d.editor.listings.invalidate (Editor.listingKey d.workflow.id) } }

/-- The desk after the graph of the workflow was saved. -/
def saved (d : Desk) : Desk :=
  { d.unlisted with
    editor := { d.unlisted.editor with
      store := d.editor.store.save d.workflow.id d.workflow.graph.toBlob } }

variable (d : Desk) (needed : Bool)

@[simp] theorem workflow_drawn : d.drawn.workflow = d.workflow := rfl
@[simp] theorem trash_drawn : d.drawn.editor.trash = d.editor.trash := rfl
@[simp] theorem nextId_drawn : d.drawn.editor.nextId = d.editor.nextId.next := rfl

@[simp] theorem workflow_counted : (d.counted needed).workflow = d.workflow := rfl

@[simp] theorem trash_counted : (d.counted needed).editor.trash = d.editor.trash := by
  cases needed <;> rfl

@[simp] theorem nextId_counted : (d.counted needed).editor.nextId = d.editor.nextId := by
  cases needed <;> rfl

@[simp] theorem workflow_unlisted : d.unlisted.workflow = d.workflow := rfl
@[simp] theorem trash_unlisted : d.unlisted.editor.trash = d.editor.trash := rfl
@[simp] theorem nextId_unlisted : d.unlisted.editor.nextId = d.editor.nextId := rfl

@[simp] theorem workflow_saved : d.saved.workflow = d.workflow := rfl
@[simp] theorem trash_saved : d.saved.editor.trash = d.editor.trash := rfl
@[simp] theorem nextId_saved : d.saved.editor.nextId = d.editor.nextId := rfl

/-- The desk after fresh ids were kept apart from those of the workflow. -/
def reserved (d : Desk) : Desk :=
  { d with
    editor := { d.editor with
      nextId := d.editor.nextId.beyond (d.workflow.graph.ids ++ d.workflow.nodes.ids) } }

/-- Only the trash and the counters differ. The workflow, the listings and the store are as they
were. -/
structure Aside (d d' : Desk) : Prop where
  workflow : d'.workflow = d.workflow
  listings : d'.editor.listings = d.editor.listings
  store : d'.editor.store = d.editor.store

theorem Aside.refl (d : Desk) : d.Aside d := ⟨rfl, rfl, rfl⟩

/-- Two steps that only change the trash and the counters do so together. -/
theorem Aside.trans {d d' d'' : Desk} (h : d.Aside d') (h' : d'.Aside d'') : d.Aside d'' :=
  ⟨h'.workflow.trans h.workflow, h'.listings.trans h.listings, h'.store.trans h.store⟩

end Desk

/-- No save is refused. -/
def Setup.Accepting (env : Setup) : Prop := ∀ n, env.saveFault n = none

namespace Edit

open Desk (Aside)

variable {α β ε : Type} {d d' : Desk} {f : Failure} {b : β}

/-- Whether an edit succeeds. -/
def succeeds (e : Edit α) (d : Desk) : Bool :=
  match e d with
  | .ok _ _ => true
  | .error _ _ => false

/-- An edit that is seen to succeed has a result. -/
theorem exists_of_succeeds {e : Edit α} (h : succeeds e d = true) : ∃ a d', e d = .ok a d' := by
  unfold succeeds at h
  cases run : e d with
  | ok a d' => exact ⟨a, d', rfl⟩
  | error f d' =>
    rw [run] at h
    cases h

/-- To return a value changes nothing -/
theorem pure_eq_ok {a : α} {c : α} : (pure a : Edit α) d = .ok c d' ↔ a = c ∧ d = d' := by
  change EStateM.Result.ok a d = _ ↔ _
  rw [EStateM.Result.ok.injEq]

/-- and cannot fail. -/
theorem pure_ne_error {a : α} : ¬ (pure a : Edit α) d = .error f d' := by
  change ¬ EStateM.Result.ok a d = _
  exact fun h => by cases h

/-- An edit in two parts succeeds if both parts do, the second one on the desk that the first one
leaves. -/
theorem bind_eq_ok {x : Edit α} {k : α → Edit β} :
    (x >>= k) d = .ok b d' ↔ ∃ a d₁, x d = .ok a d₁ ∧ k a d₁ = .ok b d' := by
  change EStateM.bind x k d = _ ↔ _
  unfold EStateM.bind
  cases x d with
  | ok a d₁ =>
    refine ⟨fun h => ⟨a, d₁, rfl, h⟩, ?_⟩
    rintro ⟨_, _, e, h⟩
    cases e
    exact h
  | error f d₁ =>
    constructor
    · intro h
      cases h
    · rintro ⟨_, _, e, _⟩
      cases e

/-- An edit whose result is only looked at succeeds as the edit does. -/
theorem map_eq_ok {x : Edit α} {g : α → β} :
    (x >>= fun a => pure (g a)) d = .ok b d' ↔ ∃ a, x d = .ok a d' ∧ g a = b := by
  rw [bind_eq_ok]
  constructor
  · rintro ⟨a, _, run, done⟩
    obtain ⟨rfl, rfl⟩ := pure_eq_ok.1 done
    exact ⟨a, run, rfl⟩
  · rintro ⟨a, run, rfl⟩
    exact ⟨a, d', run, rfl⟩

/-- It fails if one of its parts does, and leaves what that part leaves. -/
theorem bind_eq_error {x : Edit α} {k : α → Edit β} :
    (x >>= k) d = .error f d' ↔
      x d = .error f d' ∨ ∃ a d₁, x d = .ok a d₁ ∧ k a d₁ = .error f d' := by
  change EStateM.bind x k d = _ ↔ _
  unfold EStateM.bind
  cases x d with
  | ok a d₁ =>
    refine ⟨fun h => Or.inr ⟨a, d₁, rfl, h⟩, ?_⟩
    rintro (e | ⟨_, _, e, h⟩)
    · cases e
    · cases e
      exact h
  | error f d₁ =>
    constructor
    · intro h
      cases h
      exact Or.inl rfl
    · rintro (e | ⟨_, _, e, _⟩)
      · cases e
        rfl
      · cases e

/-! ## Steps that cannot fail -/

theorem workflow_bind (k : Workflow → Edit β) : (workflow >>= k) d = k d.workflow d := rfl

theorem editor_bind (k : Editor → Edit β) : (editor >>= k) d = k d.editor d := rfl

theorem modifyWorkflow_bind (change : Workflow → Workflow) (k : Unit → Edit β) :
    (modifyWorkflow change >>= k) d = k () { d with workflow := change d.workflow } := rfl

/-- A branch uid is taken from the environment, and the counter is raised only when it is used. -/
theorem nextBranch_bind (env : Setup) (k : String → Edit β) :
    (nextBranch env >>= k) d = k (env.branchUid (d.editor.branches + 1)) d := rfl

theorem reserveIds_run (d : Desk) : reserveIds d = .ok () d.reserved := rfl

theorem countBranch_bind (needed : Bool) (k : Unit → Edit β) :
    (countBranch needed >>= k) d = k () (d.counted needed) := rfl

/-- With saves accepted, a commit never fails. It drops the listing and stores the graph. -/
theorem commit_bind {env : Setup} (accepting : env.Accepting) (k : Unit → Edit β) :
    (commit env >>= k) d = k () d.saved := by
  have saves : save env d.workflow d.unlisted = .ok () d.saved := by
    simp only [save, accepting _]
    rfl
  change EStateM.bind (commit env) k d = _
  have run : commit env d = .ok () d.saved := saves
  unfold EStateM.bind
  rw [run]

/-! ## Steps that may fail -/

section Check

variable [Fault ε] {r : Except ε α} {k : α → Edit β}

theorem check_ok_bind {a : α} : (check (.ok a : Except ε α) >>= k) d = k a d := rfl

/-- A check that succeeds leaves the desk as it is. -/
theorem check_bind_ok :
    (check r >>= k) d = .ok b d' ↔ ∃ a, r = .ok a ∧ k a d = .ok b d' := by
  rw [bind_eq_ok]
  cases r with
  | ok a =>
    refine ⟨?_, fun ⟨c, e, h⟩ => ⟨c, d, by rw [e]; rfl, h⟩⟩
    rintro ⟨_, _, e, h⟩
    cases e
    exact ⟨a, rfl, h⟩
  | error e =>
    refine ⟨?_, fun ⟨c, e, h⟩ => by cases e⟩
    rintro ⟨_, _, e, h⟩
    cases e

/-- An edit that starts with a check fails with that or later. -/
theorem check_bind_error (h : (check r >>= k) d = .error f d') :
    d = d' ∨ ∃ a, r = .ok a ∧ k a d = .error f d' := by
  rw [bind_eq_error] at h
  cases r with
  | ok a =>
    rcases h with e | ⟨_, _, e, h⟩
    · cases e
    · cases e
      exact Or.inr ⟨a, rfl, h⟩
  | error e =>
    rcases h with e | ⟨_, _, e, _⟩
    · cases e
      exact Or.inl rfl
    · cases e

end Check

/-- An edit of the graph that succeeds replaces it. -/
theorem onGraph_bind_ok {e : Graph.Edit Unit} {k : Unit → Edit β} :
    (onGraph e >>= k) d = .ok b d' ↔ ∃ g, e d.workflow.graph = .ok () g ∧
      k () { d with workflow := { d.workflow with graph := g } } = .ok b d' := by
  rw [bind_eq_ok]
  unfold onGraph
  cases e d.workflow.graph with
  | ok u g =>
    refine ⟨?_, fun ⟨g', e, h⟩ => by cases e; exact ⟨_, _, rfl, h⟩⟩
    rintro ⟨_, _, e, h⟩
    cases e
    exact ⟨g, rfl, h⟩
  | error fault g =>
    refine ⟨?_, fun ⟨g', e, h⟩ => by cases e⟩
    rintro ⟨_, _, e, h⟩
    cases e

/-- An edit of a graph that succeeds is not what makes a chain fail. -/
theorem onGraph_bind_error {e : Graph.Edit Unit} {k : Unit → Edit β} {g : Graph}
    (run : e d.workflow.graph = .ok () g) : (onGraph e >>= k) d = .error f d' ↔
      k () { d with workflow := { d.workflow with graph := g } } = .error f d' := by
  rw [bind_eq_error]
  simp only [onGraph, run]
  constructor
  · rintro (e | ⟨_, _, e, h⟩)
    · cases e
    · cases e
      exact h
  · exact fun h => Or.inr ⟨_, _, rfl, h⟩

/-- The desk after a node was thrown away. -/
def thrownAway (d : Desk) (e : TrashEntry) : Desk :=
  { d with editor := { d.editor with trash := ⟨d.editor.trash.entries.insert e.node.id e⟩ } }

/-- The desk after a node was taken out of the trash. -/
def takenBack (d : Desk) (n : NodeId) : Desk :=
  { d with editor := { d.editor with trash := ⟨d.editor.trash.entries.erase n⟩ } }

/-- A node that was thrown away is in the trash, and nothing else there has changed. -/
theorem get?_thrownAway {e : TrashEntry} {n : NodeId} (id : e.node.id = n) (d : Desk) (m : NodeId) :
    (thrownAway d e).editor.trash.get? m = if n = m then some e else d.editor.trash.get? m := by
  rw [← id]
  exact NodeMap.get?_insert d.editor.trash.entries e.node.id m e

/-- A node that was taken back is no longer in the trash. -/
theorem get?_takenBack (d : Desk) (n m : NodeId) :
    (takenBack d n).editor.trash.get? m = if n = m then none else d.editor.trash.get? m :=
  NodeMap.get?_erase d.editor.trash.entries n m

/-- A node can be thrown away if the trash has none of its id. -/
theorem throwAway_run {e : TrashEntry} (h : d.editor.trash.get? e.node.id = none) :
    throwAway e d = .ok () (thrownAway d e) := by
  have new : d.editor.trash.entries.contains e.node.id = false := by
    unfold NodeMap.contains
    rw [show d.editor.trash.entries.get? e.node.id = none from h]
    rfl
  simp [throwAway, Trash.put, new, thrownAway]

/-- A node that is in the trash is not thrown away again. -/
theorem throwAway_fails {e old : TrashEntry} (h : d.editor.trash.get? e.node.id = some old) :
    throwAway e d = .error (.trash (.alreadyTrashed e.node.id)) d := by
  have there : d.editor.trash.entries.contains e.node.id = true := by
    unfold NodeMap.contains
    rw [show d.editor.trash.entries.get? e.node.id = some old from h]
    rfl
  simp [throwAway, Trash.put, there]

/-- A node that is not in the trash yet is thrown away in front of the rest of a chain. -/
theorem throwAway_bind {e : TrashEntry} {k : Unit → Edit β}
    (h : d.editor.trash.get? e.node.id = none) :
    (throwAway e >>= k) d = k () (thrownAway d e) := by
  change EStateM.bind (throwAway e) k d = _
  unfold EStateM.bind
  rw [throwAway_run h]

/-- A node can be thrown away if the trash has none with its id. -/
theorem throwAway_bind_ok {e : TrashEntry} {k : Unit → Edit β} :
    (throwAway e >>= k) d = .ok b d' ↔
      d.editor.trash.get? e.node.id = none ∧ k () (thrownAway d e) = .ok b d' := by
  cases h : d.editor.trash.get? e.node.id with
  | none => rw [throwAway_bind h, eq_self, true_and]
  | some old =>
    rw [bind_eq_ok, throwAway_fails h]
    simp

/-- A node can be taken back if it was deleted, or if those that were replaced are asked for. -/
theorem takeBack_run {n : NodeId} {managed : Bool} {e : TrashEntry}
    (h : d.editor.trash.get? n = some e) (free : e.isManaged = true → managed = true) :
    takeBack n managed d = .ok e (takenBack d n) := by
  have pass : (e.isManaged && !managed) = false := by
    cases m : e.isManaged with
    | false => rfl
    | true => simp [free m]
  simp [takeBack, Trash.restore, Trash.require, h, pass, bind, Except.bind, takenBack]

/-- A node comes back from the trash if it is not managed, or if that does not matter. -/
theorem takeBack_bind {n : NodeId} {managed : Bool} {e : TrashEntry} {k : TrashEntry → Edit β}
    (h : d.editor.trash.get? n = some e) (free : e.isManaged = true → managed = true) :
    (takeBack n managed >>= k) d = k e (takenBack d n) := by
  change EStateM.bind (takeBack n managed) k d = _
  unfold EStateM.bind
  rw [takeBack_run h free]

/-- A node of a type under the next fresh id. -/
def freshNode (d : Desk) (type : NodeType) (label : String) (w : WorkflowId) (service : Service) :
    Node :=
  { id := d.editor.nextId, workflow := w, typeName := type.name, label, service }

/-- A new node takes an id first and has its service built then. -/
theorem newNode_bind {type : NodeType} {label : String} {config : Json} {w : WorkflowId}
    {k : Node → Edit β} : (newNode type label config w >>= k) d =
      (check (type.build config) >>= fun service =>
        k (freshNode d type label w service)) d.drawn := by
  change EStateM.bind _ k d = EStateM.bind _ _ d.drawn
  simp only [newNode, EStateM.bind, bind, takeId, pure, EStateM.pure]
  cases type.build config <;> rfl

/-- A new node is drawn an id first, and then its service is built. -/
theorem newNode_bind_ok {type : NodeType} {label : String} {config : Json} {w : WorkflowId}
    {k : Node → Edit β} : (newNode type label config w >>= k) d = .ok b d' ↔
      ∃ service, type.build config = .ok service ∧
        k (freshNode d type label w service) d.drawn = .ok b d' := by
  rw [newNode_bind, check_bind_ok]

/-- So the id is used up, also if the service cannot be built. -/
theorem newNode_bind_error {type : NodeType} {label : String} {config : Json} {w : WorkflowId}
    {k : Node → Edit β} (h : (newNode type label config w >>= k) d = .error f d') :
    d.drawn = d' ∨ ∃ service, type.build config = .ok service ∧
      k (freshNode d type label w service) d.drawn = .error f d' := by
  rw [newNode_bind] at h
  exact check_bind_error h

/-! ## What an edit keeps -/

/-- However an edit ends, it leaves a desk that is related to the one on which it started. -/
structure Within {α : Type} (R : Desk → Desk → Prop) (x : Edit α) : Prop where
  ok : ∀ {d a d'}, x d = .ok a d' → R d d'
  error : ∀ {d f d'}, x d = .error f d' → R d d'

section Within

variable {R S : Desk → Desk → Prop}

/-- What edits do in any case may be known with less. -/
theorem Within.mono {x : Edit α} (h : Within R x) (le : ∀ {d d'}, R d d' → S d d') :
    Within S x where
  ok run := le (h.ok run)
  error run := le (h.error run)

/-- A case distinction does what its cases do. -/
theorem Within.ite {c : Prop} [Decidable c] {x y : Edit α} (yes : Within R x) (no : Within R y) :
    Within R (if c then x else y) := by
  split
  · exact yes
  · exact no

/-- A step that cannot fail. -/
theorem Within.of_run {x : Edit α} {a : Desk → α} {next : Desk → Desk}
    (run : ∀ d, x d = .ok (a d) (next d)) (related : ∀ d, R d (next d)) : Within R x where
  ok {d _ _} h := by
    rw [run d] at h
    cases h
    exact related d
  error {d _ _} h := by
    rw [run d] at h
    cases h

/-- Two steps in a row, where the second one may be of another kind than the first. -/
theorem Within.seq {T : Desk → Desk → Prop} {x : Edit α} {k : α → Edit β} (hx : Within R x)
    (hk : ∀ a, Within S (k a)) (first : ∀ {d d'}, R d d' → T d d')
    (both : ∀ {d d' d''}, R d d' → S d' d'' → T d d'') : Within T (x >>= k) where
  ok h := by
    obtain ⟨a, d₁, run, rest⟩ := bind_eq_ok.1 h
    exact both (hx.ok run) ((hk a).ok rest)
  error h := by
    rcases bind_eq_error.1 h with run | ⟨a, d₁, run, rest⟩
    · exact first (hx.error run)
    · exact both (hx.ok run) ((hk a).error rest)

variable (refl : ∀ d, R d d)
  (trans : ∀ {d d' d''}, R d d' → R d' d'' → R d d'')

include refl in
/-- Any reflexive relation holds of an edit that returns a value -/
theorem within_pure (a : α) : Within R (pure a : Edit α) where
  ok {d _ _} h := by
    obtain ⟨_, rfl⟩ := pure_eq_ok.1 h
    exact refl d
  error h := absurd h pure_ne_error

include refl in
/-- and of a check. -/
theorem within_check [Fault ε] (r : Except ε α) : Within R (check r) where
  ok {d _ _} h := by
    cases r <;> cases h
    exact refl d
  error {d _ _} h := by
    cases r <;> cases h
    exact refl d

include trans in
/-- A relation that is transitive holds of two parts if it holds of each. -/
theorem Within.bind {x : Edit α} {k : α → Edit β} (hx : Within R x) (hk : ∀ a, Within R (k a)) :
    Within R (x >>= k) := hx.seq hk (fun h => h) trans

end Within

/-! ## Steps beside the workflow -/

/-- Edits that leave workflow, listings and store alone do so one after the other. -/
theorem aside_bind {x : Edit α} {k : α → Edit β} (hx : Within Aside x)
    (hk : ∀ a, Within Aside (k a)) : Within Aside (x >>= k) :=
  Within.bind (R := Aside) Aside.trans hx hk

theorem aside_pure (a : α) : Within Aside (pure a : Edit α) := within_pure Aside.refl a

theorem aside_check [Fault ε] (r : Except ε α) : Within Aside (check r) :=
  within_check Aside.refl r

theorem aside_workflow : Within Aside workflow := .of_run (fun _ => rfl) Aside.refl

theorem aside_editor : Within Aside editor := .of_run (fun _ => rfl) Aside.refl

theorem aside_nextBranch (env : Setup) : Within Aside (nextBranch env) :=
  .of_run (fun _ => rfl) Aside.refl

theorem aside_countBranch (needed : Bool) : Within Aside (countBranch needed) :=
  .of_run (fun _ => rfl) fun _ => by cases needed <;> exact ⟨rfl, rfl, rfl⟩

theorem aside_takeId : Within Aside takeId := .of_run (fun _ => rfl) fun _ => ⟨rfl, rfl, rfl⟩

theorem aside_newNode (type : NodeType) (label : String) (config : Json) (w : WorkflowId) :
    Within Aside (newNode type label config w) :=
  aside_bind aside_takeId fun _ => aside_bind (aside_check _) fun _ => aside_pure _

theorem aside_reserveIds : Within Aside reserveIds :=
  .of_run reserveIds_run fun _ => ⟨rfl, rfl, rfl⟩

/-- To make the node that stands in for another one changes nothing but counters. -/
theorem aside_replacement (env : Setup) (w : Workflow) (old : Node) (typeName : String) :
    Within Aside (replacement env w old typeName) :=
  aside_bind (aside_check _) fun _ => aside_bind (aside_check _) fun _ =>
    aside_bind (aside_check _) fun _ => aside_bind (aside_nextBranch env) fun _ =>
    aside_bind (aside_newNode ..) fun _ => aside_pure _

/-- The trash does not count among what such an edit leaves alone. -/
theorem aside_throwAway (e : TrashEntry) : Within Aside (throwAway e) where
  ok {d _ _} h := by
    unfold throwAway at h
    cases run : d.editor.trash.put e <;> rw [run] at h <;> cases h
    exact ⟨rfl, rfl, rfl⟩
  error {d _ _} h := by
    unfold throwAway at h
    cases run : d.editor.trash.put e <;> rw [run] at h <;> cases h
    exact Aside.refl d

theorem aside_takeBack (n : NodeId) (managed : Bool) : Within Aside (takeBack n managed) where
  ok {d _ _} h := by
    unfold takeBack at h
    cases run : d.editor.trash.restore n managed <;> rw [run] at h <;> cases h
    exact ⟨rfl, rfl, rfl⟩
  error {d _ _} h := by
    unfold takeBack at h
    cases run : d.editor.trash.restore n managed <;> rw [run] at h <;> cases h
    exact Aside.refl d

end Edit

end Autoflow
