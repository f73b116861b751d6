import Autoflow.Proofs.Editing.Turns
import Mathlib.Data.List.Infix
import Mathlib.Logic.Function.Basic

/-!
# Listings are current

A listing that is kept is that of the nodes as they are (`Faithful`): an edit that changes a node
forgets the listing, be the graph saved after that or not. So clones of a service that share their
listings and work on the same workflows in any order list the nodes as they are, no matter which of
their edits fail and which saves are refused (`Pool.answer_run`). What it takes is that no two
workflows have the same id, since the listing is kept by the id.
-/

namespace Autoflow

theorem WorkflowId.toString_inj {a b : WorkflowId} : toString a = toString b ↔ a = b := by
  refine ⟨fun h => toNat_inj.1 ?_, congrArg toString⟩
  have value : ∀ n : Nat, Nat.ofDigitChars 10 (toString n).toList 0 = n := by
    intro n
    rw [Nat.toString_eq_ofList_toDigits, String.toList_ofList, Nat.ofDigitChars_ten_toDigits]
  rw [← value a.toNat, ← value b.toNat]
  exact congrArg (fun numeral => Nat.ofDigitChars 10 (String.toList numeral) 0) h

theorem Editor.listingKey_inj {a b : WorkflowId} : listingKey a = listingKey b ↔ a = b := by
  refine ⟨fun h => ?_, congrArg listingKey⟩
  have same := congrArg String.toList h
  simp only [listingKey, String.toList_append, List.append_cancel_right_eq,
    List.append_cancel_left_eq] at same
  exact WorkflowId.toString_inj.1 (String.toList_injective same)

/-! ## What is kept of the workflows -/

/-- The nodes of all workflows are kept under their ids, and what is listed of a workflow are its
nodes as they are. -/
structure Faithful (listings : Memo (List Node)) (workflows : OrderedMap String Workflow) :
    Prop where
  keyed : ∀ {name w}, workflows.get? name = some w → w.Keyed
  current : ∀ {name w nodes}, workflows.get? name = some w →
    listings.entries.get? (Editor.listingKey w.id) = some nodes → nodes = w.nodes.values

namespace Faithful

variable {listings listings' : Memo (List Node)} {workflows : OrderedMap String Workflow}
  {name : String} {w : Workflow}

/-- A workflow is put under a name, and all listings are current. -/
theorem insert (faithful : Faithful listings workflows) (keyed : w.Keyed)
    (current : ∀ {nodes}, listings'.entries.get? (Editor.listingKey w.id) = some nodes →
      nodes = w.nodes.values)
    (others : ∀ {other w' nodes}, workflows.get? other = some w' →
      listings'.entries.get? (Editor.listingKey w'.id) = some nodes → nodes = w'.nodes.values) :
    Faithful listings' (workflows.insert name w) where
  keyed {other w'} hw := by
    rw [OrderedMap.get?_insert] at hw
    split at hw
    · cases hw
      exact keyed
    · exact faithful.keyed hw
  current {other w' nodes} hw kept := by
    rw [OrderedMap.get?_insert] at hw
    split at hw
    · cases hw
      exact current kept
    · exact others hw kept

/-- A workflow whose listing was forgotten may have any nodes. -/
theorem insert_forgotten (faithful : Faithful listings workflows) (keyed : w.Keyed) :
    Faithful (listings.invalidate (Editor.listingKey w.id)) (workflows.insert name w) := by
  refine faithful.insert keyed (fun {nodes} kept => ?_) fun {other w' nodes} hw kept => ?_
  · rw [Memo.get?_invalidate, if_pos rfl] at kept
    cases kept
  · exact faithful.current hw (Memo.get?_of_invalidate _ _ _ kept)

theorem clear (faithful : Faithful listings workflows) : Faithful listings.clear workflows where
  keyed := faithful.keyed
  current _ kept := by cases kept

/-- A workflow whose listing may have been forgotten is put back under its name. -/
theorem insert_same (faithful : Faithful listings workflows) (hw : workflows.get? name = some w)
    (fewer : ∀ {key nodes}, listings'.entries.get? key = some nodes →
      listings.entries.get? key = some nodes) : Faithful listings' (workflows.insert name w) :=
  faithful.insert (faithful.keyed hw) (fun kept => faithful.current hw (fewer kept))
    fun hw' kept => faithful.current hw' (fewer kept)

variable {s s' : Session}

/-- Whatever is called, the listings are current after it. -/
theorem turn (faithful : Faithful s.editor.listings s.workflows) (distinct : Distinct s.workflows)
    (turn : s.Turn s') : Faithful s'.editor.listings s'.workflows := by
  cases turn with
  | stayed => exact faithful
  | cleared => exact faithful.clear
  | @ended name d d' here ending =>
    obtain ⟨hw, editor⟩ := Session.desk?_eq_some.1 here
    have keyed := faithful.keyed hw
    change Faithful d'.editor.listings (s.workflows.insert name d'.workflow)
    cases ending with
    | beside id nodes _ listings _ =>
      rw [listings, editor]
      refine faithful.insert ?_ (fun kept => ?_) faithful.current
      · rw [Workflow.Keyed, nodes]
        exact keyed
      · rw [id] at kept
        rw [nodes]
        exact faithful.current hw kept
    | revised id keyed' _ listings _ =>
      rw [listings, editor, ← id]
      exact faithful.insert_forgotten (keyed' keyed)
    | committed h =>
      rw [h.listings, editor, ← h.id]
      exact faithful.insert_forgotten (h.keyed keyed)
  | @listed name d here =>
    obtain ⟨hw, editor⟩ := Session.desk?_eq_some.1 here
    -- What is listed of any workflow was listed before, or it is the workflow at hand.
    have current : ∀ {other w nodes}, s.workflows.get? other = some w →
        d.listed.editor.listings.entries.get? (Editor.listingKey w.id) = some nodes →
        nodes = w.nodes.values := by
      intro other w nodes hw' kept
      rcases Memo.get?_getOrCompute _ _ _ kept with ⟨same, rfl⟩ | before
      · obtain ⟨_, rfl⟩ := distinct.eq hw hw' (Editor.listingKey_inj.1 same)
        rfl
      · rw [editor] at before
        exact faithful.current hw' before
    exact faithful.insert (faithful.keyed hw) (current hw) current
  | @copied name copyName d d₁ w here keyed aside =>
    obtain ⟨hw, editor⟩ := Session.desk?_eq_some.1 here
    change Faithful (d₁.editor.listings.invalidate _)
      ((s.workflows.insert name d₁.workflow).insert copyName w)
    rw [aside.listings, aside.workflow, editor]
    exact (faithful.insert_same hw fun kept => kept).insert_forgotten (keyed (faithful.keyed hw))
  | @uncopied name d d' here forgets _ =>
    obtain ⟨hw, editor⟩ := Session.desk?_eq_some.1 here
    change Faithful d'.editor.listings (s.workflows.insert name d'.workflow)
    rw [forgets.workflow]
    refine faithful.insert_same hw fun kept => ?_
    rw [← editor]
    exact forgets.fewer kept

end Faithful

/-! ## Clones -/

/-- A clone of a service: its setup, and which of the trashes and which of the stores it uses. -/
structure Clone where
  setup : Setup
  trash : Nat
  store : Nat

/-- Workflows that are edited through clones of a service. The listings and the counters are common
to all clones, a trash or a store is common to those that use it. -/
structure Pool where
  workflows : OrderedMap String Workflow
  listings : Memo (List Node) := {}
  trashes : Nat → Trash := fun _ => .empty
  stores : Nat → Store := fun _ => .empty
  /-- The id of the next new node. -/
  nextId : NodeId := 1
  /-- The number of branches generated so far. -/
  branches : Nat := 0

namespace Pool

/-- The session in which a clone acts. -/
def session (p : Pool) (c : Clone) : Session where
  setup := c.setup
  editor :=
    { trash := p.trashes c.trash, store := p.stores c.store, listings := p.listings
      nextId := p.nextId, branches := p.branches }
  workflows := p.workflows

/-- The pool after a clone acted in its session. -/
def keep (p : Pool) (c : Clone) (s : Session) : Pool where
  workflows := s.workflows
  listings := s.editor.listings
  trashes := Function.update p.trashes c.trash s.editor.trash
  stores := Function.update p.stores c.store s.editor.store
  nextId := s.editor.nextId
  branches := s.editor.branches

/-- The pool after a call of a clone. -/
def call (p : Pool) (c : Clone × Session.Call) : Pool := p.keep c.1 ((p.session c.1).call c.2)

/-- The pool after several calls, each of any clone. -/
def run (p : Pool) (calls : List (Clone × Session.Call)) : Pool := calls.foldl call p

/-- The nodes of a workflow as a clone lists them, nothing if there is no workflow of that name. -/
def answer (p : Pool) (c : Clone) (name : String) : Option (Except Failure (List Node)) :=
  ((p.session c).edit name Edit.listNodes).map Prod.fst

variable {p : Pool}

/-- Whatever is called, all listings are current if no two workflows ever have the same id. -/
theorem faithful_run (faithful : Faithful p.listings p.workflows)
    (calls : List (Clone × Session.Call))
    (distinct : ∀ before ∈ calls.inits, Distinct (p.run before).workflows) :
    Faithful (p.run calls).listings (p.run calls).workflows := by
  induction calls generalizing p with
  | nil => exact faithful
  | cons c calls ih =>
    have now : Distinct p.workflows := distinct [] (by simp)
    have next := Faithful.turn (s := p.session c.1) faithful now (Session.call_turn _ c.2)
    refine ih (p := p.call c) next fun before mem => ?_
    exact distinct (c :: before) (by simpa using mem)

/-- Nothing is listed at first, be the listings turned on or off, and the workflows are edited and
listed through any number of clones then, in any order, where every call may fail and every save be
refused. As long as no two workflows have the same id, any clone lists the nodes of each of them as
they are, by increasing id. -/
theorem answer_run (fresh : p.listings.entries = .empty)
    (keyed : ∀ name w, p.workflows.get? name = some w → w.Keyed)
    (calls : List (Clone × Session.Call))
    (distinct : ∀ before ∈ calls.inits, Distinct (p.run before).workflows) (c : Clone)
    {name : String} {w : Workflow} (there : (p.run calls).workflows.get? name = some w) :
    (p.run calls).answer c name = some (.ok w.nodes.values) ∧
      (w.nodes.values.map (·.id)).Pairwise (· < ·) ∧
      ∀ node, node ∈ w.nodes.values ↔ w.nodes.get? node.id = some node := by
  have start : Faithful p.listings p.workflows := by
    refine ⟨fun h => keyed _ _ h, fun _ kept => ?_⟩
    rw [fresh] at kept
    cases kept
  have faithful := faithful_run start calls distinct
  have listed : (p.run calls).answer c name = some (.ok w.nodes.values) := by
    unfold answer Session.edit
    rw [show ((p.run calls).session c).workflows.get? name = some w from there]
    have current := Memo.getOrCompute_eq (p.run calls).listings (Editor.listingKey w.id)
      fun nodes kept => faithful.current there kept
    exact congrArg (fun nodes => some (Except.ok nodes)) current
  exact ⟨listed, (faithful.keyed there).sorted_values, fun node =>
    (faithful.keyed there).mem_values_iff⟩

/-- A clone whose saves are accepted and one of another store that refuses the second save. -/
def pair : Clone × Clone :=
  (⟨.builtin fun _ => "branch", 0, 0⟩,
    ⟨{ Setup.builtin fun _ => "branch" with
      saveFault := fun n => if n = 2 then some (.configuration "save refused") else none }, 0, 1⟩)

/-- Two empty workflows. -/
def blank : Pool where
  workflows := .ofList
    [("main", { id := 1, name := "Main" }), ("other", { id := 2, name := "Other" })]

/-- Both clones create nodes of a workflow that is listed in between. The last save is refused, and
the workflow is copied after that. -/
def shared : List (Clone × Session.Call) := [
  (pair.1, .step (.operate "main" (.request (.create "periodic" {} .root)))),
  (pair.2, .step (.list "main")),
  (pair.2, .step (.operate "main" (.request (.create "create_row" {} (.south 1 ""))))),
  (pair.1, .step (.list "main")),
  (pair.2, .step (.operate "main" (.request (.create "create_row" {} (.south 2 ""))))),
  (pair.1, .step (.copy "main" "copy" 3 "Copy"))]

/-- The node whose save was refused is listed. -/
theorem answer_run_shared : ∃ w, (blank.run shared).workflows.get? "main" = some w ∧
    w.nodes.values.map (·.id) = [1, 2, 3] ∧
    (blank.run shared).answer pair.1 "main" = some (.ok w.nodes.values) := by
  have distinct : ∀ before ∈ shared.inits, Distinct (blank.run before).workflows := by
    decide +kernel
  have keyed : ∀ name w, blank.workflows.get? name = some w → w.Keyed := by
    intro name w there
    have empty : ∀ p ∈ blank.workflows.toList, p.2.nodes.ids = [] := by decide +kernel
    intro n node live
    have mem := NodeMap.mem_ids_of_get? live
    rw [empty (name, w) (OrderedMap.mem_of_get? there)] at mem
    cases mem
  have live : ((blank.run shared).workflows.get? "main").map
      (fun w => w.nodes.values.map (·.id)) = some [1, 2, 3] := by
    decide +kernel
  obtain ⟨w, there, ids⟩ := Option.map_eq_some_iff.1 live
  exact ⟨w, there, ids, (answer_run rfl keyed shared distinct pair.1 there).1⟩

end Pool

end Autoflow
