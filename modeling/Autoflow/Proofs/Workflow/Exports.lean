import Mathlib.Data.List.Pairwise
import Autoflow.Proofs.Editing.Exchanges
import Autoflow.Proofs.Workflow.Fixtures

/-!
# The listings that a built workflow has

The nodes of a fixture are collected under their ids before they are compared with the graph, so a
listing gives way to a later one of the same id. What the workflow exports is the list of the
listings that are left, up to order (`Describes.perm_exports`), and that is the whole list only if
no id is listed twice (`build_exports`).
-/

namespace Autoflow

/-- The exported forms of the live nodes, by id. -/
def Workflow.exports (w : Workflow) : List NodeExport := w.nodes.values.map Node.toExport

/-- Each live node is exported once. -/
theorem Workflow.length_exports (w : Workflow) : w.exports.length = w.nodes.size := by
  simp only [exports, NodeMap.values, NodeMap.size, List.length_map]

namespace Fixture

/-- A listing with its configuration in the form in which the service built from it exports it. -/
def exported (registry : Registry) (e : NodeExport) : NodeExport :=
  match registry.get? e.typeName with
  | none => e
  | some type =>
    match type.build e.service with
    | .error _ => e
    | .ok service => { e with service := service.config }

/-- The listings of a fixture in this form. -/
def listed (registry : Registry) (f : Fixture) : List NodeExport := f.nodes.map (exported registry)

/-- The listings that no later one of the same id replaces. -/
def lastListings (l : List NodeExport) : List NodeExport := l.pwFilter fun a b => a.id ≠ b.id

variable {registry : Registry} {f : Fixture} {w : Workflow} {e x : NodeExport}
  {l : List NodeExport} {id : WorkflowId} {node : Node}

@[simp] theorem exported_id (registry : Registry) (e : NodeExport) :
    (exported registry e).id = e.id := by
  unfold exported
  split
  · rfl
  · split <;> rfl

/-- A listing is exported in this form by the node that is built from it. -/
theorem Builds.toExport_eq (h : Builds registry id e node) :
    node.toExport = exported registry e := by
  obtain ⟨type, service, known, built, rfl⟩ := h
  simp only [exported, known, built, Node.toExport]

/-- The exported forms are of the listed ids, in their order. -/
theorem map_id_listed (registry : Registry) (f : Fixture) :
    (f.listed registry).map NodeExport.id = f.nodes.map NodeExport.id := by
  rw [listed, List.map_map]
  exact List.map_congr_left fun e _ => exported_id registry e

/-! ## Repeated ids -/

/-- A listing is dropped if its id is listed again later. -/
theorem lastListings_cons (a : NodeExport) (l : List NodeExport) : lastListings (a :: l) =
    if a.id ∈ l.map NodeExport.id then lastListings l else a :: lastListings l := by
  have later : (∀ b ∈ lastListings l, a.id ≠ b.id) ↔ a.id ∉ l.map NodeExport.id := by
    rw [lastListings, List.forall_mem_pwFilter]
    · simp [eq_comm]
    · intro x y z ne
      by_cases same : x.id = y.id
      · exact Or.inr (same ▸ ne)
      · exact Or.inl same
  split
  · next again => exact List.pwFilter_cons_of_neg fun last => later.1 last again
  · next last => exact List.pwFilter_cons_of_pos (later.2 last)

/-- What is left was listed. -/
theorem lastListings_subset : lastListings l ⊆ l := (List.pwFilter_sublist l).subset

/-- An id without a last listing is not listed at all. -/
theorem find?_reverse_eq_none {n : NodeId} :
    l.reverse.find? (·.id = n) = none ↔ n ∉ l.map NodeExport.id := by
  rw [List.find?_eq_none]
  simp

/-- A listing is left if it is the last one of its id. -/
theorem mem_lastListings : e ∈ lastListings l ↔ l.reverse.find? (·.id = e.id) = some e := by
  induction l with
  | nil => simp [lastListings]
  | cons a l ih =>
    rw [lastListings_cons, List.reverse_cons, List.find?_append]
    by_cases own : a.id = e.id
    · have here : [a].find? (·.id = e.id) = some a := by simp [own]
      rw [here, own]
      split
      · next again =>
        obtain ⟨b, found⟩ := Option.ne_none_iff_exists'.1 fun none =>
          find?_reverse_eq_none.1 none again
        rw [ih, found, Option.some_or]
      · next last =>
        have new : e ∉ lastListings l := fun mem =>
          last (List.mem_map_of_mem (lastListings_subset mem))
        rw [find?_reverse_eq_none.2 last, Option.none_or, List.mem_cons, or_iff_left new,
          Option.some.injEq, eq_comm]
    · have off : [a].find? (·.id = e.id) = none := by simp [own]
      rw [off, Option.or_none, ← ih]
      split
      · rfl
      · have ne : e ≠ a := fun same => own (congrArg NodeExport.id same.symm)
        rw [List.mem_cons, or_iff_right ne]

/-- Nothing is dropped if every id is listed once, -/
theorem lastListings_eq_self : lastListings l = l ↔ (l.map NodeExport.id).Nodup := by
  rw [lastListings, List.pwFilter_eq_self, List.Nodup, List.pairwise_map]

/-- and it shows in the number of what is left. -/
theorem length_lastListings : (lastListings l).length = l.length ↔ (l.map NodeExport.id).Nodup := by
  rw [← lastListings_eq_self]
  exact ⟨fun same => (List.pwFilter_sublist l).eq_of_length same, congrArg List.length⟩

/-- What is left has no listing twice. -/
theorem nodup_lastListings : (lastListings l).Nodup :=
  (List.pairwise_pwFilter l).imp fun ne same => ne (congrArg NodeExport.id same)

/-! ## What is exported -/

namespace Describes

variable (h : f.Describes registry w)

include h in
/-- The nodes of a described workflow are kept under their ids. -/
theorem keyed : w.Keyed := fun n node live => ((h.nodes n node).1 live).id_eq

include h in
/-- No two exported nodes have one id. -/
theorem nodup_ids_exports : (w.exports.map NodeExport.id).Nodup := by
  rw [Workflow.exports, List.map_map]
  exact h.keyed.nodup_values

variable (all : ∀ e ∈ f.nodes, ∃ node, Builds registry f.id e node)

include h all in
/-- What is exported is the last listing of its id, in the form of its service. -/
theorem mem_exports : x ∈ w.exports ↔ (f.listing? x.id).map (exported registry) = some x := by
  rw [Workflow.exports, List.mem_map, Option.map_eq_some_iff]
  constructor
  · rintro ⟨node, mem, rfl⟩
    obtain ⟨n, live⟩ := NodeMap.mem_values_iff.1 mem
    obtain ⟨e, last, builds⟩ := (h.nodes n node).1 live
    have id : node.toExport.id = n := h.keyed n node live
    exact ⟨e, id ▸ last, builds.toExport_eq.symm⟩
  · rintro ⟨e, last, form⟩
    obtain ⟨node, builds⟩ := all e (listing?_id last).1
    have live : w.nodes.get? x.id = some node := (h.nodes _ node).2 ⟨e, last, builds⟩
    exact ⟨node, NodeMap.mem_values_iff.2 ⟨_, live⟩, builds.toExport_eq.trans form⟩

include h all in
/-- The workflow exports the listings that are left. -/
theorem perm_exports : w.exports.Perm (lastListings (f.listed registry)) := by
  rw [List.perm_ext_iff_of_nodup h.nodup_ids_exports.of_map nodup_lastListings]
  intro x
  rw [h.mem_exports all, mem_lastListings, listed, ← List.map_reverse, List.find?_map]
  simp only [Function.comp_def, exported_id]
  rfl

end Describes

/-- A workflow that is built from a fixture exports the listings that no later one of the same id
replaces, in the form in which nodes built from them are exported. It exports all of them, and has
as many nodes as the fixture lists, exactly if no id is listed twice. -/
theorem build_exports {types : List NodeType} {f : Fixture} {w : Workflow}
    (h : f.build (Registry.empty.registerAll types) = .ok w) :
    (∀ e ∈ f.nodes, ∃ node, Builds (Registry.empty.registerAll types) f.id e node ∧
      node.toExport = exported (Registry.empty.registerAll types) e) ∧
    w.exports.Perm (lastListings (f.listed (Registry.empty.registerAll types))) ∧
    (w.exports.Perm (f.listed (Registry.empty.registerAll types)) ↔
      (f.nodes.map NodeExport.id).Nodup) ∧
    (w.nodes.size = f.nodes.length ↔ (f.nodes.map NodeExport.id).Nodup) := by
  obtain ⟨acceptable, describes⟩ := acceptable_of_build (Registry.named_registerAll types) h
  have perm := describes.perm_exports acceptable.nodes
  refine ⟨fun e mem => ?_, perm, ⟨fun whole => ?_, fun once => ?_⟩, ?_⟩
  · obtain ⟨node, builds⟩ := acceptable.nodes e mem
    exact ⟨node, builds, builds.toExport_eq⟩
  · have ids := whole.map NodeExport.id
    rw [map_id_listed] at ids
    exact ids.nodup_iff.1 describes.nodup_ids_exports
  · rw [← map_id_listed, ← lastListings_eq_self] at once
    rwa [once] at perm
  · rw [← w.length_exports, perm.length_eq, ← map_id_listed, ← length_lastListings, listed,
      List.length_map]

/-- Two listings, one with a configuration that leaves out what its service exports. -/
def calling : Fixture where
  name := "Calling"
  nodes := [⟨2, "http_request", "Call", .object [("output", .string "done")]⟩,
    ⟨1, "periodic", "Tick", .null⟩]
  graph := .object [
    ("0", NodeId.toJson 1),
    ("1", .object [("next", .object [("", NodeId.listToJson [2])])]),
    ("2", .object [])]

/-- A fixture is built if what it exports can be computed. -/
theorem exists_of_exports (run : (f.build registry).toOption.map Workflow.exports = some l) :
    ∃ w, f.build registry = .ok w ∧ w.exports = l := by
  cases built : f.build registry with
  | error fault =>
    rw [built] at run
    cases run
  | ok w =>
    rw [built] at run
    exact ⟨w, rfl, Option.some.inj run⟩

/-- The exports have what the services fill in, in another order than the listings. -/
theorem build_exports_calling : ∃ w, calling.build .builtin = .ok w ∧
    w.exports.Perm (calling.listed .builtin) ∧ w.nodes.size = 2 := by
  have run : (calling.build .builtin).toOption.map Workflow.exports =
      some (calling.listed .builtin).reverse := by decide +kernel
  obtain ⟨w, built, _⟩ := exists_of_exports run
  have once : (calling.nodes.map NodeExport.id).Nodup := by decide
  obtain ⟨_, _, whole, size⟩ := build_exports built
  exact ⟨w, built, whole.2 once, size.2 once⟩

/-- One id that is listed twice. -/
def relisted : Fixture where
  name := "Relisted"
  nodes := [⟨1, "periodic", "First", .null⟩, ⟨1, "periodic", "Second", .null⟩]
  graph := .object [("0", NodeId.toJson 1), ("1", .object [])]

/-- The fixture is built, but its first listing is nowhere in the workflow. -/
theorem relisted_loses : ∃ w, relisted.build .builtin = .ok w ∧ w.nodes.size = 1 ∧
    relisted.nodes.length = 2 ∧ ¬ w.exports.Perm (relisted.listed .builtin) := by
  have run : (relisted.build .builtin).toOption.map Workflow.exports =
      some [exported .builtin ⟨1, "periodic", "Second", .null⟩] := by decide +kernel
  obtain ⟨w, built, exports⟩ := exists_of_exports run
  refine ⟨w, built, ?_, rfl, fun whole => ?_⟩
  · rw [← w.length_exports, exports, List.length_singleton]
  · have lengths := whole.length_eq
    rw [exports] at lengths
    cases lengths

end Fixture

end Autoflow
