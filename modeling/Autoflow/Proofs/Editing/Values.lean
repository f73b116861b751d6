import Autoflow.Proofs.Editing.Imports
import Autoflow.Proofs.Editing.Soundness
import Autoflow.Service.Coding

/-!
# Node values that went through JSON

Values that are missing are left out when the values of a node are written, and null is read as a
missing one. So a service that is null, which asks for the default configuration, comes back as a
missing one, which keeps the service of the node (`NodeValues.decode_toJson`). All other values come
back as they are. An update with null and one with what comes back do the same only to a node that
has the default service already (`update_nonnull_iff`).
-/

namespace Autoflow

open Edit

/-- The values with a null service taken as a missing one. -/
def NodeValues.nonnull (v : NodeValues) : NodeValues :=
  match v.service with
  | some .null => { v with service := none }
  | _ => v

namespace NodeValues

variable {v : NodeValues}

theorem nonnull_of_null (null : v.service = some .null) :
    v.nonnull = { v with service := none } := by
  simp only [nonnull, null]

theorem nonnull_eq_self_iff : v.nonnull = v ↔ v.service ≠ some .null := by
  constructor
  · intro same null
    rw [nonnull_of_null null] at same
    have service := congrArg NodeValues.service same
    rw [null] at service
    cases service
  · intro other
    unfold nonnull
    split
    · next null => exact absurd null other
    · rfl

theorem decode_toJson (v : NodeValues) : decode v.toJson = .ok v.nonnull := by
  obtain ⟨label, service⟩ := v
  cases label with
  | none =>
    cases service with
    | none => rfl
    | some s => cases s <;> rfl
  | some l =>
    cases service with
    | none => rfl
    | some s => cases s <;> rfl

end NodeValues

namespace Edit

variable {env : Setup} {d d' : Desk} {n : NodeId} {node : Node} {v : NodeValues} {u : UpdatedNode}

/-- What comes back for null keeps the service of a node. -/
theorem update_nonnull {type : NodeType} (live : d.workflow.nodes.get? n = some node)
    (known : env.registry.get? node.typeName = some type) (null : v.service = some .null) :
    update env n v.nonnull d = .ok ⟨updatedNode node v node.service, .ofNode node,
        .ofNode (updatedNode node v node.service)⟩
      ({ d with workflow := d.workflow.addNode (updatedNode node v node.service) }).unlisted := by
  rw [NodeValues.nonnull_of_null null]
  exact update_eq_ok.2 ⟨node, type, node.service, live, known, Or.inl ⟨rfl, rfl⟩, rfl, rfl⟩

/-- Null itself gives it the default service. -/
theorem service_of_update_null (live : d.workflow.nodes.get? n = some node)
    (scripts : node.HasScripts env.registry) (null : v.service = some .null)
    (run : update env n v d = .ok u d') : u.node.service = Script.service {} := by
  obtain ⟨node', type, service, live', known, given, rfl, _⟩ := update_eq_ok.1 run
  cases live.symm.trans live'
  obtain ⟨name, kind, known'⟩ := scripts
  cases known.symm.trans known'
  rw [null] at given
  rcases given with ⟨missing, _⟩ | ⟨config, given, built, _⟩
  · cases missing
  · cases given
    exact (Except.ok.inj built).symm

/-- An update with null and one with what comes back for it do the same only to a node with the
default service. -/
theorem update_nonnull_iff (live : d.workflow.nodes.get? n = some node)
    (scripts : node.HasScripts env.registry) (null : v.service = some .null) :
    update env n v.nonnull d = update env n v d ↔ node.service = Script.service {} := by
  obtain ⟨name, kind, known⟩ := scripts
  rw [update_nonnull live known null]
  constructor
  · intro same
    exact service_of_update_null live ⟨name, kind, known⟩ null same.symm
  · intro unset
    have built : (NodeType.scripted name kind).build .null = .ok node.service := by
      rw [unset]
      rfl
    have legal := d.workflow.checkUpdate_self (NodeType.scripted name kind).kind node
    symm
    exact update_eq_ok.2 ⟨node, _, node.service, live, known, Or.inr ⟨.null, null, built, legal⟩,
      rfl, rfl⟩

end Edit

/-! ## What an update tells apart -/

/-- A node that takes an output other than the default one. -/
def Desk.sorting : Desk where
  editor := {}
  workflow := { id := 1, name := "Sorting" : Workflow }.addNode
    { id := 1, workflow := 1, typeName := "router", service := Script.service { output := "big" } }

theorem update_sorting_ne {v : NodeValues} (null : v.service = some .null) :
    update (.builtin fun _ => "") 1 v.nonnull .sorting ≠
      update (.builtin fun _ => "") 1 v .sorting := by
  intro same
  have unset := (update_nonnull_iff rfl ⟨"router", .router, rfl⟩ null).1 same
  have config := congrArg Service.config unset
  revert config
  decide

namespace NodeValues

/-- Values that are written as JSON and read again are the same, and an update with them does the
same to every node, exactly if their service is not null. If it is, a missing one comes back, and
the updates do the same only to nodes that have the default service. -/
theorem update_of_decode_toJson (v : NodeValues) : decode v.toJson = .ok v.nonnull ∧
    (v.nonnull = v ↔ v.service ≠ some .null) ∧
    ((∀ env n d, Edit.update env n v.nonnull d = Edit.update env n v d) ↔
      v.service ≠ some .null) ∧
    (v.service = some .null → v.nonnull = { v with service := none } ∧
      ∀ env n d node, d.workflow.nodes.get? n = some node → node.HasScripts env.registry →
        (Edit.update env n v.nonnull d = Edit.update env n v d ↔
          node.service = Script.service {})) := by
  refine ⟨v.decode_toJson, nonnull_eq_self_iff, ⟨fun same null => ?_, fun other env n d => ?_⟩,
    fun null => ⟨nonnull_of_null null, fun env n d node live scripts => ?_⟩⟩
  · exact update_sorting_ne null (same _ _ _)
  · rw [nonnull_eq_self_iff.2 other]
  · exact update_nonnull_iff live scripts null

/-- A service that is null comes back as a missing one, and the update with it leaves a service that
the update with null replaces. -/
theorem null_comes_back_missing : decode (toJson ⟨none, some .null⟩) = .ok ⟨none, none⟩ ∧
    Edit.update (.builtin fun _ => "") 1 ⟨none, none⟩ .sorting ≠
      Edit.update (.builtin fun _ => "") 1 ⟨none, some .null⟩ .sorting := by
  have differ := update_sorting_ne (v := ⟨none, some .null⟩) rfl
  exact ⟨rfl, differ⟩

end NodeValues

end Autoflow
