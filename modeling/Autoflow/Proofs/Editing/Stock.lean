import Autoflow.Proofs.Editing.Commits
import Autoflow.Proofs.Editing.Reserves
import Autoflow.Proofs.Graph.Relabeling
import Autoflow.Proofs.Graph.Validation
import Autoflow.Proofs.Workflow.Fixtures

/-!
# Sessions to start from

The workflows of a session are empty at first, or they were loaded, with fresh ids kept apart from
theirs. In such a session (`Session.Stocked`) the trash is empty, and a workflow mentions only nodes
that it has.
-/

namespace Autoflow

/-- All ids that occur in a workflow are those of its nodes. -/
structure Workflow.Whole (w : Workflow) : Prop where
  filed : w.Filed
  mentions : ∀ n ∈ w.graph.mentions, n ∈ w.graph.ids
  marker : ∀ n, w.simulateUntil = some n → n ∈ w.nodes.ids

theorem Workflow.whole_empty (id : WorkflowId) (name : String) : ({ id, name } : Workflow).Whole where
  filed := ⟨nofun, fun _ => Iff.rfl⟩
  mentions := nofun
  marker := nofun

namespace Fixture

variable {registry : Registry} {f : Fixture} {w : Workflow}

/-- The nodes of a fixture are kept under their ids, and none is marked. -/
theorem keyed_of_buildNodes (h : f.buildNodes registry = .ok w) :
    w.Keyed ∧ w.simulateUntil = none := by
  refine Except.foldlM_invariant (P := fun w => w.Keyed ∧ w.simulateUntil = none) ?_
    ⟨fun _ _ => nofun, rfl⟩ h
  intro w e w' kept added
  cases built : buildNode registry f.id e with
  | error fault =>
    rw [built] at added
    cases added
  | ok node =>
    rw [built] at added
    cases added
    exact ⟨kept.1.addNode node, kept.2⟩

/-- A workflow that was loaded is whole. -/
theorem whole_of_build (h : f.build registry = .ok w) : w.Whole := by
  obtain ⟨w₀, g, built, _, checked, _, marked⟩ := build_eq_ok.1 h
  obtain ⟨keyed, unmarked⟩ := keyed_of_buildNodes built
  obtain ⟨valid, ids⟩ := checkGraph_eq_ok.1 checked
  have same := mark_shape marked
  have graph : w.graph = g := by rw [same]
  have nodes : w.nodes = w₀.nodes := by rw [same]
  refine ⟨⟨fun {n node} hn => keyed n node (nodes ▸ hn), fun n => by rw [graph, nodes]; exact ids n⟩,
    fun n mem => ?_, fun n marker => ?_⟩
  · rw [graph] at mem ⊢
    exact Graph.Orderly.mem_mentions (Graph.validate_eq_ok_iff.1 valid).toOrderly mem
  · cases asked : f.simulateUntil with
    | none =>
      simp only [mark, asked] at marked
      cases marked
      rw [show w₀.simulateUntil = some n from marker] at unmarked
      cases unmarked
    | some label =>
      obtain ⟨m, node, at_m, live, _⟩ := mark_first (w := { w₀ with graph := g }) keyed marked asked
      rw [marker] at at_m
      cases at_m
      rw [nodes]
      exact NodeMap.mem_ids_of_get? live

end Fixture

namespace Session

/-- A session whose workflows are empty or were loaded, with fresh ids kept apart from theirs. -/
inductive Stocked : Session → Prop where
  | opened (setup : Setup) (nodeCache : Bool) (shelf : List (String × WorkflowId × String)) :
    Stocked (opened setup nodeCache shelf)
  | loaded {s s' : Session} {name : String} {f : Fixture} (stocked : Stocked s)
    (load : s.load name s.setup.registry f true = .ok s') : Stocked s'

variable {s s' : Session} {name : String} {w : Workflow} {f : Fixture} {registry : Registry}

/-- A workflow that is loaded is put under its name, and its ids are reserved. -/
theorem load_eq_ok : s.load name registry f true = .ok s' ↔ ∃ w, f.build registry = .ok w ∧
    (s.put name w).keep name (Desk.mk s.editor w).reserved = s' := by
  unfold load
  rw [Except.bind_eq_ok]
  refine exists_congr fun w => and_congr_right fun _ => ?_
  have here : (s.put name w).workflows.get? name = some w :=
    (get?_put s name name w).trans (if_pos rfl)
  have reserve : (s.put name w).edit name Edit.reserveIds =
      some (.ok (), (s.put name w).keep name (Desk.mk s.editor w).reserved) := by
    unfold edit
    rw [here, Option.map_some]
    rfl
  simp only [reserve, if_true]
  exact ⟨fun h => Except.ok.inj h, fun h => congrArg Except.ok h⟩

/-- What is known of a session to start from. Fresh ids are past those of a workflow that does not
have the last id of 64 bits. -/
structure Stock (s : Session) : Prop where
  trash : s.editor.trash = .empty
  whole : ∀ {name w}, s.workflows.get? name = some w → w.Whole
  below : ∀ {name w}, s.workflows.get? name = some w →
    (∀ n ∈ w.nodes.ids, n.toNat + 1 < UInt64.size) → ∀ n ∈ w.nodes.ids, n < s.editor.nextId

theorem Stocked.stock (stocked : s.Stocked) : s.Stock := by
  induction stocked with
  | opened setup nodeCache shelf =>
    refine ⟨rfl, fun {name w} h => ?_, fun {name w} h _ n mem => ?_⟩
    · obtain ⟨id, title, rfl⟩ := eq_of_opened h
      exact Workflow.whole_empty id title
    · obtain ⟨id, title, rfl⟩ := eq_of_opened h
      cases mem
  | @loaded s s' name f stocked load ih =>
    obtain ⟨w, built, rfl⟩ := load_eq_ok.1 load
    have whole := Fixture.whole_of_build built
    have there : ∀ {other v}, ((s.put name w).keep name (Desk.mk s.editor w).reserved).workflows.get?
        other = some v → other = name ∧ v = w ∨ s.workflows.get? other = some v := by
      intro other v h
      rw [get?_keep, get?_put] at h
      split at h
      · next same =>
        cases h
        exact Or.inl ⟨same.symm, rfl⟩
      · exact Or.inr h
    have low : s.editor.nextId.toNat ≤ (Desk.mk s.editor w).reserved.editor.nextId.toNat :=
      Desk.le_reserved ⟨s.editor, w⟩
    refine ⟨ih.trash, fun h => ?_, fun {other v} h room n mem => ?_⟩
    · rcases there h with ⟨_, rfl⟩ | before
      · exact whole
      · exact ih.whole before
    · rcases there h with ⟨_, rfl⟩ | before
      · exact (Desk.lt_reserved_iff (d := ⟨s.editor, v⟩) whole.filed mem).2 (Or.inr room)
      · have before := ih.below before room n mem
        rw [NodeId.lt_def] at before ⊢
        exact Nat.lt_of_lt_of_le before low

/-- The session after fixtures were loaded under their names, without those that cannot be built. -/
def stock (s : Session) (fixtures : List (String × Fixture)) : Session :=
  fixtures.foldl (fun s p =>
    match s.load p.1 s.setup.registry p.2 true with
    | .ok s' => s'
    | .error _ => s) s

theorem Stocked.stocked (stocked : s.Stocked) (fixtures : List (String × Fixture)) :
    (s.stock fixtures).Stocked := by
  induction fixtures generalizing s with
  | nil => exact stocked
  | cons p fixtures ih =>
    refine ih ?_
    dsimp only
    split
    · next s' load => exact .loaded stocked load
    · exact stocked

end Session

end Autoflow
