import Autoflow.Proofs.Editing.Counting
import Autoflow.Proofs.Graph.Blobs
import Mathlib.Data.List.Infix

/-!
# The store is in step

An edit saves the graph after its last change, so if no save is refused the store holds the graph of
each workflow as it is, or nothing if the graph was never changed (`InStep`). Edits that fail leave
both alone. What is stored decodes to the graph as long as no node has the id zero, which no node
gets before the counter comes round (`Session.process_backed`).
-/

namespace Autoflow

/-- Of each workflow the store holds the graph as it is, or nothing, and then the graph is empty. -/
def InStep (store : Store) (workflows : OrderedMap String Workflow) : Prop :=
  ∀ name w, workflows.get? name = some w → store.load? w.id = some w.graph.toBlob ∨
    store.load? w.id = none ∧ w.graph = .empty

/-- Whatever was stored under an id, something is stored under it still. -/
def Store.Keeps (store store' : Store) : Prop :=
  ∀ id, store.load? id ≠ none → store'.load? id ≠ none

namespace Store

variable {store store' store'' : Store}

theorem Keeps.refl (store : Store) : store.Keeps store := fun _ h => h

/-- What two steps keep, both together keep. -/
theorem Keeps.trans (h : store.Keeps store') (h' : store'.Keeps store'') : store.Keeps store'' :=
  fun id there => h' id (h id there)

/-- A save puts a blob under one id and takes nothing away. -/
theorem keeps_save (store : Store) (id : WorkflowId) (blob : Json) :
    store.Keeps (store.save id blob) := by
  intro other there
  rw [load?_save]
  split
  · exact Option.some_ne_none blob
  · exact there

/-- Steps that leave the blobs alone take nothing away either. -/
theorem keeps_of_blobs (h : store'.blobs = store.blobs) : store.Keeps store' := by
  intro id there
  unfold load? at there ⊢
  rwa [h]

end Store

namespace InStep

variable {store store' : Store} {workflows : OrderedMap String Workflow} {name : String}
  {w : Workflow}

/-- A workflow with the graph of the one of that name is put back. -/
theorem insert_same (inStep : InStep store workflows) {old : Workflow}
    (hw : workflows.get? name = some old) (id : w.id = old.id) (graph : w.graph = old.graph) :
    InStep store (workflows.insert name w) := by
  intro other w' hw'
  rw [OrderedMap.get?_insert] at hw'
  split at hw'
  · cases hw'
    rw [id, graph]
    exact inStep name old hw
  · exact inStep other w' hw'

/-- The graph of a workflow was saved that is the only one of its id. -/
theorem insert_saved (inStep : InStep store workflows)
    (alone : ∀ other w', other ≠ name → workflows.get? other = some w' → w.id ≠ w'.id) :
    InStep (store.save w.id w.graph.toBlob) (workflows.insert name w) := by
  intro other w' hw'
  rw [OrderedMap.get?_insert] at hw'
  split at hw'
  · cases hw'
    rw [Store.load?_save, if_pos rfl]
    exact Or.inl rfl
  · next ne =>
    rw [Store.load?_save, if_neg (alone other w' (Ne.symm ne) hw')]
    exact inStep other w' hw'

end InStep

namespace Session

variable {s s' : Session}

/-- Nothing that was stored is lost. -/
theorem Turn.keeps (turn : s.Turn s') : s.editor.store.Keeps s'.editor.store := by
  cases turn with
  | stayed | cleared => exact .refl _
  | @ended name d d' here ending =>
    change s.editor.store.Keeps d'.editor.store
    rw [← (desk?_eq_some.1 here).2]
    cases ending with
    | beside _ _ _ _ store | revised _ _ _ _ store =>
      rw [store]
      exact .refl _
    | committed h =>
      rcases h.store with ⟨_, saved⟩ | ⟨_, refused⟩
      · rw [saved]
        exact Store.keeps_save _ _ _
      · rw [refused]
        exact Store.keeps_of_blobs rfl
  | @listed name d here =>
    change s.editor.store.Keeps d.editor.store
    rw [(desk?_eq_some.1 here).2]
    exact .refl _
  | @copied name copyName d d₁ w here _ aside =>
    change s.editor.store.Keeps (d₁.editor.store.save w.id w.graph.toBlob)
    rw [aside.store, (desk?_eq_some.1 here).2]
    exact Store.keeps_save _ _ _
  | @uncopied name d d' here _ blobs =>
    change s.editor.store.Keeps d'.editor.store
    rw [(desk?_eq_some.1 here).2] at blobs
    exact Store.keeps_of_blobs blobs

/-- Whatever is called, the store is in step after it. -/
theorem Turn.inStep (turn : s.Turn s') (accepting : s.setup.Accepting)
    (inStep : InStep s.editor.store s.workflows) (distinct : Distinct s.workflows)
    (distinct' : Distinct s'.workflows) : InStep s'.editor.store s'.workflows := by
  cases turn with
  | stayed | cleared => exact inStep
  | @ended name d d' here ending =>
    obtain ⟨hw, editor⟩ := desk?_eq_some.1 here
    change InStep d'.editor.store (s.workflows.insert name d'.workflow)
    cases ending with
    | beside id _ graph _ store | revised id _ graph _ store =>
      rw [store, editor]
      exact inStep.insert_same hw id graph
    | committed h =>
      rcases h.store with ⟨_, saved⟩ | ⟨refused, _⟩
      · rw [saved, editor, ← h.id]
        refine inStep.insert_saved fun other w' ne hw' same => ne ?_
        exact (distinct.eq hw' hw (same.symm.trans h.id)).1
      · exact absurd (accepting _) refused
  | @listed name d here =>
    obtain ⟨hw, editor⟩ := desk?_eq_some.1 here
    change InStep d.editor.store (s.workflows.insert name d.workflow)
    rw [editor]
    exact inStep.insert_same hw rfl rfl
  | @copied name copyName d d₁ w here _ aside =>
    obtain ⟨hw, editor⟩ := desk?_eq_some.1 here
    have there : ∀ other, ((s.workflows.insert name d₁.workflow).insert copyName w).get? other =
        if copyName = other then some w
        else (s.workflows.insert name d₁.workflow).get? other := fun other =>
      OrderedMap.get?_insert _ copyName other w
    change InStep (d₁.editor.store.save w.id w.graph.toBlob)
      ((s.workflows.insert name d₁.workflow).insert copyName w)
    rw [aside.store, editor]
    refine InStep.insert_saved (inStep.insert_same hw (by rw [aside.workflow])
      (by rw [aside.workflow])) fun other w' ne hw' same => ne ?_
    refine (distinct'.eq ((there other).trans ?_) ((there copyName).trans (if_pos rfl))
      same.symm).1
    rw [if_neg (Ne.symm ne)]
    exact hw'
  | @uncopied name d d' here forgets blobs =>
    obtain ⟨hw, editor⟩ := desk?_eq_some.1 here
    have kept : InStep s.editor.store (s.workflows.insert name d'.workflow) :=
      inStep.insert_same hw (by rw [forgets.workflow]) (by rw [forgets.workflow])
    intro other w' hw'
    have same : d'.editor.store.load? w'.id = s.editor.store.load? w'.id := by
      rw [Store.load?, Store.load?, blobs, editor]
    change d'.editor.store.load? w'.id = _ ∨ d'.editor.store.load? w'.id = _ ∧ _
    rw [same]
    exact kept other w' hw'

/-- So no call takes anything out of the store. -/
theorem keeps_process (s : Session) (calls : List Call) :
    s.editor.store.Keeps (s.process calls).editor.store := by
  induction calls generalizing s with
  | nil => exact .refl _
  | cons call calls ih => exact (s.call_turn call).keeps.trans (ih (s.call call))

/-- The run lemma: if saves are accepted and ids differ, the store is in step after any calls. -/
theorem inStep_process (accepting : s.setup.Accepting)
    (inStep : InStep s.editor.store s.workflows) (calls : List Call)
    (distinct : ∀ before ∈ calls.inits, Distinct (s.process before).workflows) :
    InStep (s.process calls).editor.store (s.process calls).workflows := by
  induction calls generalizing s with
  | nil => exact inStep
  | cons call calls ih =>
    have later : ∀ before ∈ calls.inits, Distinct ((s.call call).process before).workflows :=
      fun before mem => distinct (call :: before) (by simpa using mem)
    have now : Distinct s.workflows := distinct [] (by simp)
    have next : Distinct (s.call call).workflows := later [] (by simp)
    exact ih (by rw [setup_call]; exact accepting)
      ((s.call_turn call).inStep accepting inStep now next) later

/-- Calls can be processed in two parts. -/
theorem process_append (s : Session) (before after : List Call) :
    s.process (before ++ after) = (s.process before).process after :=
  List.foldl_append

/-! ## What is stored in the end -/

/-- What the store holds of a workflow after several calls: nothing, and then its graph was never
changed, or its graph as it is, which it decodes to if all ids were drawn before the counter of 64
bits came round. Nodes that exist and are put in the place of others have to be drawn as well: they
are meant to be taken back from the trash, and so they once were, while a node that was made up can
have the id 0, under which the blob of a graph names its root. -/
structure Backed (start : Session) (calls : List Call) (w : Workflow) : Prop where
  unsaved : (start.process calls).editor.store.load? w.id = none → ∀ before ∈ calls.inits,
    ∀ name w', (start.process before).workflows.get? name = some w' → w'.id = w.id →
      w'.graph = .empty
  saved : ∀ blob, (start.process calls).editor.store.load? w.id = some blob →
    blob = w.graph.toBlob
  decodes : start.AllDrawn calls → start.callDemand calls < UInt64.size →
    ∀ blob, (start.process calls).editor.store.load? w.id = some blob →
      Graph.ofBlob blob = .ok w.graph

/-- Nothing is stored at the start, and all graphs are empty. -/
theorem inStep_opened (setup : Setup) (nodeCache : Bool)
    (shelf : List (String × WorkflowId × String)) :
    InStep (opened setup nodeCache shelf).editor.store
      (opened setup nodeCache shelf).workflows := by
  intro name w hw
  obtain ⟨id, title, rfl⟩ := eq_of_opened hw
  exact Or.inr ⟨rfl, rfl⟩

/-- Workflows that are empty at first are edited through a service whose saves are accepted, and
listed and copied, in any order, where every call may fail. As long as no two workflows have the same
id, the store backs each of them. -/
theorem process_backed {setup : Setup} (accepting : setup.Accepting) (nodeCache : Bool)
    (shelf : List (String × WorkflowId × String)) (calls : List Call)
    (distinct : ∀ before ∈ calls.inits,
      Distinct ((opened setup nodeCache shelf).process before).workflows)
    {name : String} {w : Workflow}
    (there : ((opened setup nodeCache shelf).process calls).workflows.get? name = some w) :
    (opened setup nodeCache shelf).Backed calls w := by
  have inStep : ∀ before ∈ calls.inits,
      InStep ((opened setup nodeCache shelf).process before).editor.store
        ((opened setup nodeCache shelf).process before).workflows := by
    intro before mem
    refine inStep_process accepting (inStep_opened setup nodeCache shelf) before
      fun earlier mem' => distinct earlier ?_
    exact (List.mem_inits _ _).2 (((List.mem_inits _ _).1 mem').trans ((List.mem_inits _ _).1 mem))
  have saved : ∀ blob, ((opened setup nodeCache shelf).process calls).editor.store.load? w.id =
      some blob → blob = w.graph.toBlob := by
    intro blob stored
    rcases inStep calls ((List.mem_inits _ _).2 (List.prefix_refl calls)) name w there with
      same | ⟨none, _⟩
    · exact Option.some.inj (stored.symm.trans same)
    · rw [stored] at none
      cases none
  refine ⟨fun none before mem other w' there' id => ?_, saved, fun known room blob stored => ?_⟩
  · -- Something stored earlier would still be there.
    rcases inStep before mem other w' there' with stored | ⟨_, empty⟩
    · obtain ⟨after, rfl⟩ := (List.mem_inits _ _).1 mem
      have kept := keeps_process ((opened setup nodeCache shelf).process before) after w'.id
        (by rw [stored]; exact Option.some_ne_none _)
      rw [← process_append, id] at kept
      exact absurd none kept
    · exact empty
  · obtain ⟨drawn, le, counted⟩ := (settled_opened setup nodeCache shelf).counted.process
      accepting calls known (by omega)
    rw [saved blob stored]
    exact Graph.ofBlob_toBlob (counted.zero_not_mem (by omega) there)

/-- Two nodes are made, one of them is taken back, a third one is refused, and the workflow is
copied, beside another one that stays empty. -/
def saving : List Call := [
  .step (.operate "main" (.request (.create "periodic" {} .root))),
  .step (.operate "main" (.request (.create "create_row" {} (.south 1 "")))),
  .step (.operate "main" (.undo { undoable := [.create 2] })), .step (.list "main"),
  .step (.operate "main" (.request (.create "create_row" {} (.south 2 "")))),
  .step (.copy "main" "copy" 3 "Copy"), .clear]

/-- Two empty workflows and the builtin types. -/
def twoEmpty : Session :=
  opened (.builtin fun _ => "branch") true [("main", 1, "Main"), ("other", 2, "Other")]

/-- The graph that can be read back after these calls is that of the workflow. -/
theorem process_backed_saving : ∃ w blob,
    (twoEmpty.process saving).workflows.get? "main" = some w ∧ w.graph.ids = [1] ∧
    (twoEmpty.process saving).editor.store.load? w.id = some blob ∧
    Graph.ofBlob blob = .ok w.graph := by
  have distinct : ∀ before ∈ saving.inits, Distinct (twoEmpty.process before).workflows := by
    decide +kernel
  have known : twoEmpty.AllDrawn saving :=
    ⟨trivial, trivial, trivial, trivial, trivial, trivial, trivial, trivial⟩
  have live : ((twoEmpty.process saving).workflows.get? "main").map
      (fun w => (w.graph.ids, w.id)) = some ([1], 1) := by
    decide +kernel
  have stored : ((twoEmpty.process saving).editor.store.load? 1).isSome := by decide +kernel
  obtain ⟨w, there, same⟩ := Option.map_eq_some_iff.1 live
  obtain ⟨ids, id⟩ := Prod.mk.inj same
  obtain ⟨blob, stored⟩ := Option.isSome_iff_exists.1 stored
  have stored : (twoEmpty.process saving).editor.store.load? w.id = some blob := by
    rw [id]
    exact stored
  have backed : twoEmpty.Backed saving w :=
    process_backed (fun _ => rfl) true _ saving distinct there
  exact ⟨w, blob, there, ids, stored, backed.decodes known (by decide +kernel) blob stored⟩

end Session

end Autoflow
