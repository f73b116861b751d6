import Autoflow.Proofs.Editing.Outlets
import Autoflow.Proofs.Editing.Refusals
import Autoflow.Proofs.Workflow.Fixtures

/-!
# Which rules a built workflow obeys

Edits keep three rules: only the root is a trigger, only containers have nodes inside and only
exposed outputs lead somewhere. A fixture is not checked for them when it is built, so the
workflow obeys them exactly if the fixture does as it is written (`build_loaded`). What stands
inside the root of a workflow that does not obey them comes to be the root when that is deleted.
-/

namespace Autoflow

open Workflow (IsContainer IsTrigger isTrigger_kind isContainer_kind)

/-- The rules on the kinds of nodes that edits keep. -/
structure Workflow.Ruled (registry : Registry) (w : Workflow) : Prop where
  trigger : ∀ n node, w.nodes.get? n = some node → IsTrigger registry node → w.graph.root = some n
  container : ∀ n, w.graph.occupants (.child n) ≠ [] →
    ∃ node, w.nodes.get? n = some node ∧ IsContainer registry node
  exposed : ∀ n o, w.graph.occupants (.south n o) ≠ [] → w.Exposes n o

/-- The kind of the type of a name. -/
def Registry.kind? (registry : Registry) (name : String) : Option NodeKind :=
  (registry.get? name).map NodeType.kind

theorem Workflow.isTrigger_iff_kind? {registry : Registry} {node : Node} :
    IsTrigger registry node ↔ registry.kind? node.typeName = some .trigger := by
  unfold IsTrigger Registry.kind?
  cases registry.get? node.typeName <;> simp [isTrigger_kind]

theorem Workflow.isContainer_iff_kind? {registry : Registry} {node : Node} :
    IsContainer registry node ↔ registry.kind? node.typeName = some .container := by
  unfold IsContainer Registry.kind?
  cases registry.get? node.typeName <;> simp [isContainer_kind]

/-- A listing has an output: the default one or one that its configuration lists. -/
def NodeExport.Lists (e : NodeExport) (o : String) : Prop :=
  o = "" ∨ ∃ s, Script.ofJson e.service = .ok s ∧ o ∈ s.edges.map Edge.uid

open Workflow (isTrigger_iff_kind? isContainer_iff_kind?)

namespace Fixture

/-- The rules, as a fixture with a graph is written. Of an id that is listed more than once the
last listing counts. -/
structure Obeys (f : Fixture) (g : Graph) : Prop where
  trigger : ∀ n e, f.listing? n = some e → Registry.builtin.kind? e.typeName = some .trigger → g.root = some n
  container : ∀ n, g.occupants (.child n) ≠ [] →
    ∃ e, f.listing? n = some e ∧ Registry.builtin.kind? e.typeName = some .container
  exposed : ∀ n o, g.occupants (.south n o) ≠ [] → ∃ e, f.listing? n = some e ∧ e.Lists o

/-- What there is to say about a workflow that was built from a fixture. -/
structure Loaded (f : Fixture) (w : Workflow) : Prop where
  valid : w.graph.validate = .ok ()
  ids : ∀ n, n ∈ w.graph.ids ↔ n ∈ w.nodes.ids
  root : ∀ r, w.graph.root = some r →
    ∃ node, w.nodes.get? r = some node ∧ IsTrigger .builtin node
  rules : w.Ruled .builtin ↔ f.Obeys w.graph
  /-- Deleting the root makes the first node inside it the root, so none if the rules hold. -/
  deletion : ∀ {env : Setup} {d d' : Desk} {r : NodeId} {actor : Option String} {node : Node},
    env.registry = .builtin → d.workflow = w → w.graph.root = some r →
    Edit.delete env r actor d = .ok node d' →
    d'.workflow.graph.root = (w.graph.occupants (.child r)).head? ∧
      (w.Ruled .builtin → d'.workflow.graph.root = none)

variable {f : Fixture} {w : Workflow} {id : WorkflowId} {e : NodeExport} {node : Node} {n : NodeId}
  {o : String}

theorem Builds.typeName_eq {registry : Registry} (h : Builds registry id e node) :
    node.typeName = e.typeName := by
  obtain ⟨_, _, _, _, rfl⟩ := h
  rfl

theorem hasOutput_iff_lists (h : Builds .builtin id e node) :
    node.hasOutput o = true ↔ e.Lists o := by
  obtain ⟨type, service, ht, built, rfl⟩ := h
  obtain ⟨kind, scripted⟩ := Registry.scripts_builtin _ _ ht
  rw [scripted] at built
  simp only [NodeType.scripted, NodeExport.Lists] at built ⊢
  cases read : Script.ofJson e.service with
  | error fault => rw [read] at built; cases built
  | ok script =>
    rw [read] at built
    cases built
    rw [eq_comm (a := o)]
    simp [Node.hasOutput, Service.hasOutput, Script.service, Script.allEdges]

/-- The rules hold of the live nodes exactly if they hold of the listings. -/
theorem ruled_iff_obeys (live : ∀ n node, w.nodes.get? n = some node ↔ Live .builtin f n node)
    (all : ∀ e ∈ f.nodes, ∃ node, Builds .builtin f.id e node) :
    w.Ruled .builtin ↔ f.Obeys w.graph := by
  have built {n : NodeId} {e : NodeExport} (last : f.listing? n = some e) :
      ∃ node, w.nodes.get? n = some node ∧ Builds .builtin f.id e node := by
    obtain ⟨node, builds⟩ := all e (listing?_id last).1
    exact ⟨node, (live n node).2 ⟨e, last, builds⟩, builds⟩
  have listed {n : NodeId} {node : Node} (hn : w.nodes.get? n = some node) :
      Live .builtin f n node := (live n node).1 hn
  constructor
  · intro ruled
    refine ⟨fun n e last kind => ?_, fun n inside => ?_, fun n o used => ?_⟩
    · obtain ⟨node, hn, builds⟩ := built last
      exact ruled.trigger n node hn (isTrigger_iff_kind?.2 (builds.typeName_eq ▸ kind))
    · obtain ⟨node, hn, container⟩ := ruled.container n inside
      obtain ⟨e, last, builds⟩ := listed hn
      exact ⟨e, last, builds.typeName_eq ▸ isContainer_iff_kind?.1 container⟩
    · obtain ⟨node, hn, output⟩ := ruled.exposed n o used
      obtain ⟨e, last, builds⟩ := listed hn
      exact ⟨e, last, (hasOutput_iff_lists builds).1 output⟩
  · intro obeys
    refine ⟨fun n node hn trigger => ?_, fun n inside => ?_, fun n o used => ?_⟩
    · obtain ⟨e, last, builds⟩ := listed hn
      exact obeys.trigger n e last (builds.typeName_eq ▸ isTrigger_iff_kind?.1 trigger)
    · obtain ⟨e, last, kind⟩ := obeys.container n inside
      obtain ⟨node, hn, builds⟩ := built last
      exact ⟨node, hn, isContainer_iff_kind?.2 (builds.typeName_eq ▸ kind)⟩
    · obtain ⟨e, last, lists⟩ := obeys.exposed n o used
      obtain ⟨node, hn, builds⟩ := built last
      exact ⟨node, hn, (hasOutput_iff_lists builds).2 lists⟩

end Fixture

/-! ## Deleting the root -/

/-- What stands inside a root that nothing follows closes the gap. -/
theorem Graph.root_remove {g g' : Graph} {r : NodeId} (tree : g.IsTree) (root : g.root = some r)
    (bare : ∀ o, g.occupants (.south r o) = []) (run : remove r false g = .ok () g') :
    g'.root = (g.occupants (.child r)).head? := by
  obtain ⟨e, he⟩ := mem_ids_iff.1 (tree.root_mem root)
  have alone : e.nextIds = [] := List.eq_nil_iff_forall_not_mem.2 fun x hx => by
    obtain ⟨o, mem⟩ := Entry.mem_nextIds_iff.1 hx
    rw [← occupants_south he, bare] at mem
    cases mem
  simp only [remove_eq, he, tree.position_eq (mem_occupants_root.2 root)] at run
  cases run
  rw [occupants_child he]
  simp [bypass, Slot.position, Position.root, Entry.successors, alone]

namespace Workflow

variable {w : Workflow} {r : NodeId} {root : Node}

/-- The root of a workflow that obeys the rules has nothing inside. -/
theorem Ruled.bare_root (ruled : w.Ruled .builtin) (hr : w.nodes.get? r = some root)
    (trigger : IsTrigger .builtin root) : w.graph.occupants (.child r) = [] := by
  by_contra inside
  obtain ⟨node, hn, type, ht, container⟩ := ruled.container r inside
  cases hr.symm.trans hn
  have kind := isTrigger_kind.1 ((isTrigger_iff ht).1 trigger)
  rw [isContainer_kind, kind] at container
  cases container

/-- A trigger at the root is deleted only if nothing follows it, and the first node inside it takes
its place. -/
theorem root_after_delete {env : Setup} {d d' : Desk} {actor : Option String} {node : Node}
    (tree : d.workflow.graph.IsTree) (at_ : d.workflow.graph.root = some r)
    (hr : d.workflow.nodes.get? r = some root) (keyed : root.id = r)
    (trigger : IsTrigger env.registry root) (run : Edit.delete env r actor d = .ok node d') :
    d'.workflow.graph.root = (d.workflow.graph.occupants (.child r)).head? := by
  obtain ⟨type, p, g, hn, ht, legal, _, removed, _, rfl⟩ :=
    (Edit.delete_eq_ok env.accepting_unfailing).1 ((Edit.delete_savesLast env r actor).eq_ok run)
  cases hr.symm.trans hn
  have there : root.id ∈ d.workflow.graph.ids := keyed ▸ tree.root_mem at_
  have bare := ((checkDelete_eq_ok there).1 legal).1 (isTrigger_kind.1 ((isTrigger_iff ht).1 trigger))
  exact Graph.root_remove tree at_ (keyed ▸ bare) removed

end Workflow

namespace Fixture

/-- A workflow that is built from a fixture is a tree of the listed nodes that hangs from a
trigger. The rules on kinds hold as far as the fixture obeys them. -/
theorem build_loaded {f : Fixture} {w : Workflow} (h : f.build .builtin = .ok w) : f.Loaded w := by
  obtain ⟨fits, describes⟩ := acceptable_of_build Registry.named_builtin h
  have root (r : NodeId) (hr : w.graph.root = some r) :
      ∃ node, w.nodes.get? r = some node ∧ IsTrigger .builtin node := by
    obtain ⟨node, live, trigger⟩ := fits.root r hr
    exact ⟨node, (describes.nodes r node).2 live, trigger⟩
  exact {
    valid := fits.valid
    ids := fun n => (fits.ids n).trans (mem_ids_iff describes.nodes fits.nodes).symm
    root := root
    rules := ruled_iff_obeys describes.nodes fits.nodes
    deletion := fun {env d d' r actor node} builtin here hr run => by
      subst here
      obtain ⟨old, live, trigger⟩ := root r hr
      have promoted := Workflow.root_after_delete (Graph.validate_eq_ok_iff.1 fits.valid) hr live
        ((describes.nodes r old).1 live).id_eq (builtin ▸ trigger) run
      refine ⟨promoted, fun ruled => ?_⟩
      rw [promoted, ruled.bare_root live trigger]
      rfl }

/-- A trigger with a node inside, which leads to another trigger on an output that it does not
have. -/
def unruly : Fixture where
  name := "Unruly"
  nodes := [⟨1, "periodic", "", .null⟩, ⟨2, "http_request", "", .null⟩,
    ⟨3, "rows_created", "", .null⟩]
  graph := .object [
    ("0", NodeId.toJson 1),
    ("1", .object [("children", NodeId.listToJson [2])]),
    ("2", .object [("next", .object [("ghost", NodeId.listToJson [3])])]),
    ("3", .object [])]

theorem exists_unruly : ∃ w, unruly.build .builtin = .ok w := by
  cases built : unruly.build .builtin with
  | ok w => exact ⟨w, rfl⟩
  | error fault =>
    have : (unruly.build .builtin).toOption.isSome = true := by decide +kernel
    rw [built] at this
    cases this

theorem build_loaded_unruly : ∃ w, unruly.build .builtin = .ok w ∧ unruly.Loaded w := by
  obtain ⟨w, built⟩ := exists_unruly
  exact ⟨w, built, build_loaded built⟩

/-- The fixture is built although it breaks each rule, and deleting its root makes an action the
root. -/
theorem unruly_breaks_rules : ∃ w, unruly.build .builtin = .ok w ∧
    (∃ n node, w.nodes.get? n = some node ∧ IsTrigger .builtin node ∧ w.graph.root ≠ some n) ∧
    (∃ n node, w.nodes.get? n = some node ∧ w.graph.occupants (.child n) ≠ [] ∧
      ¬ IsContainer .builtin node) ∧
    (∃ n o, w.graph.occupants (.south n o) ≠ [] ∧ ¬ w.Exposes n o) ∧
    ∃ node d root, Edit.delete (.builtin fun _ => "") 1 none ⟨{}, w⟩ = .ok node d ∧
      d.workflow.graph.root = some 2 ∧ d.workflow.nodes.get? 2 = some root ∧
      ¬ IsTrigger .builtin root := by
  obtain ⟨w, built⟩ := exists_unruly
  let kind (node : Node) : Option NodeKind := Registry.builtin.kind? node.typeName
  have facts : ∀ w ∈ (unruly.build .builtin).toOption,
      w.graph.root = some 1 ∧ (w.nodes.get? 3).bind kind = some .trigger ∧
      (w.nodes.get? 1).bind kind = some .trigger ∧ w.graph.occupants (.child 1) ≠ [] ∧
      w.graph.occupants (.south 2 "ghost") ≠ [] ∧
      (w.nodes.get? 2).any (·.hasOutput "ghost") = false ∧
      (match Edit.delete (.builtin fun _ => "") 1 none ⟨{}, w⟩ with
        | .ok _ d => some (d.workflow.graph.root, (d.workflow.nodes.get? 2).bind kind)
        | .error _ _ => none) = some (some 2, some .action) := by decide +kernel
  obtain ⟨root, lower, upper, inside, used, off, deleted⟩ := facts w (by rw [built]; rfl)
  obtain ⟨third, h3, trigger⟩ := Option.bind_eq_some_iff.1 lower
  obtain ⟨first, h1, noContainer⟩ := Option.bind_eq_some_iff.1 upper
  refine ⟨w, built, ⟨3, third, h3, isTrigger_iff_kind?.2 trigger, by rw [root]; decide⟩,
    ⟨1, first, h1, inside, fun c => ?_⟩, ⟨2, "ghost", used, ?_⟩, ?_⟩
  · cases noContainer.symm.trans (isContainer_iff_kind?.1 c)
  · rintro ⟨node, hn, output⟩
    simp [hn, output] at off
  · split at deleted
    · next node d run =>
      obtain ⟨top, below⟩ := Prod.mk.inj (Option.some.inj deleted)
      obtain ⟨second, h2, action⟩ := Option.bind_eq_some_iff.1 below
      exact ⟨node, d, second, run, top, h2, fun t =>
        nomatch action.symm.trans (isTrigger_iff_kind?.1 t)⟩
    · cases deleted

end Fixture

end Autoflow
