import Autoflow.Proofs.Editing.Atomicity
import Autoflow.Proofs.Editing.Draws
import Autoflow.Proofs.Editing.Numbering
import Autoflow.Proofs.Service.Scripts

/-!
# Services that are built from an export

A service is copied, and comes back when an update is undone, by building one from its export. A
scripted type builds the same service again, whatever configuration the first one was built from
(`NodeType.build_config`). So a copy has the service of the node that is copied, a node of which an
update is undone has the service from before, and however such an edit ends, it gives no node
another service (`NodeType.build_kept`).
-/

namespace Autoflow

/-- The type of a node is known, and its nodes are scripted. -/
def Node.HasScripts (registry : Registry) (node : Node) : Prop :=
  ∃ name kind, registry.get? node.typeName = some (.scripted name kind)

/-- The nodes of a desk are those of another one, but for one that may have come to stand under an id
and has a service. -/
def Desk.Gains (n : NodeId) (s : Service) (d d' : Desk) : Prop :=
  ∀ k node, d'.workflow.nodes.get? k = some node →
    d.workflow.nodes.get? k = some node ∨ k = n ∧ node.service = s

/-- A service is not changed by the edits that build one from its export. -/
structure Service.Kept (env : Setup) (s : Service) : Prop where
  /-- The copy of a node has its service and a fresh id, and all other nodes are as they were. -/
  duplicate : ∀ {n node copy d d'}, d.workflow.nodes.get? n = some node →
    node.HasScripts env.registry → node.service = s → Edit.duplicate env n d = .ok copy d' →
    copy.service = s ∧ copy.id = d.editor.nextId ∧
      ∀ k, d'.workflow.nodes.get? k = if copy.id = k then some copy else d.workflow.nodes.get? k
  /-- Even if the save is refused, no other node than the copy is new. -/
  duplicate_left : ∀ {n : NodeId} {node : Node} {d : Desk}, d.workflow.nodes.get? n = some node →
    node.HasScripts env.registry → node.service = s →
    d.Gains d.editor.nextId s ((Edit.duplicate env n).left d)
  /-- The copy of a workflow has a node with the service for each node with it, under the id that
  was drawn for that. -/
  duplicateWorkflow : ∀ {id name w d d'}, d.workflow.Keyed →
    Edit.duplicateWorkflow env id name d = .ok w d' →
    ∀ i node, d.workflow.nodes.values[i]? = some node → node.HasScripts env.registry →
      node.service = s →
      ∃ copy, w.nodes.get? (NodeId.next^[i] d.editor.nextId) = some copy ∧ copy.service = s
  /-- The workflow that is copied stays as it is. -/
  duplicateWorkflow_left : ∀ id name d,
    ((Edit.duplicateWorkflow env id name).left d).workflow = d.workflow
  /-- A node has the service again when an update of it is undone, at once or later, and all other
  nodes are as they were. -/
  undo : ∀ {n node values shown a d d₁ later later'}, d.workflow.nodes.get? n = some node →
    node.service = s → (Request.update n values).perform env d = .ok (shown, a) d₁ →
    later.workflow.Keyed →
    (∀ node, later.workflow.nodes.get? n = some node → node.HasScripts env.registry) →
    a.undo env later = .ok () later' →
    ∃ back, back.service = s ∧
      ∀ k, later'.workflow.nodes.get? k = if n = k then some back else later.workflow.nodes.get? k
  /-- If it can't be undone, nothing happens. -/
  undo_fails : ∀ {n values shown a d d₁ later later' f},
    (Request.update n values).perform env d = .ok (shown, a) d₁ →
    a.undo env later = .error f later' → later'.workflow = later.workflow

open Edit

variable {env : Setup} {d d' : Desk} {n : NodeId} {node copy : Node} {s : Service}

/-- A scripted type builds a scripted service from its export again. -/
theorem Node.HasScripts.build_eq (scripts : node.HasScripts env.registry) {type : NodeType}
    (known : env.registry.get? node.typeName = some type) (scripted : s.IsScripted) :
    type.build s.config = .ok s := by
  obtain ⟨name, kind, known'⟩ := scripts
  cases known.symm.trans known'
  exact NodeType.build_config scripted

namespace Edit

/-- A copy has the service of its source. -/
theorem duplicate_kept (scripted : s.IsScripted) (live : d.workflow.nodes.get? n = some node)
    (scripts : node.HasScripts env.registry) (has : node.service = s)
    (run : duplicate env n d = .ok copy d') : copy.service = s ∧ copy.id = d.editor.nextId ∧
      ∀ k, d'.workflow.nodes.get? k =
        if copy.id = k then some copy else d.workflow.nodes.get? k := by
  obtain ⟨source, type, service, g, hn, known, _, built, _, rfl, rfl⟩ :=
    (duplicate_eq_ok env.accepting_unfailing).1 ((duplicate_savesLast env n).eq_ok run)
  cases live.symm.trans hn
  rw [has, scripts.build_eq known scripted] at built
  cases built
  exact ⟨rfl, rfl, Workflow.get?_addNode rfl _⟩

/-- However the copying of a node ends, no node but the copy is new. -/
theorem duplicate_gains (scripted : s.IsScripted) (live : d.workflow.nodes.get? n = some node)
    (scripts : node.HasScripts env.registry) (has : node.service = s) :
    d.Gains d.editor.nextId s ((duplicate env n).left d) := by
  have gains : Within (fun d d' => ∀ node, d.workflow.nodes.get? n = some node →
      node.HasScripts env.registry → node.service = s → d.Gains d.editor.nextId s d')
      (duplicate env n) := by
    refine (duplicate_savesLast env n).within ⟨?_, ?_⟩ ?_
    · intro d copy d' run node live scripts has k other held
      have scripts : node.HasScripts env.unfailing.registry := scripts
      obtain ⟨same, fresh, nodes⟩ := duplicate_kept scripted live scripts has run
      rw [nodes k, fresh] at held
      split at held
      · next here =>
        cases held
        exact Or.inr ⟨here.symm, same⟩
      · exact Or.inl held
    · intro d f d' failed node live scripts has k other held
      have same := (duplicate_error env.accepting_unfailing failed).drew.workflow
      rw [same] at held
      exact Or.inl held
    · intro d d' d'' f accepted refused node live scripts has k other held
      rw [refused.workflow] at held
      exact accepted node live scripts has k other held
  exact gains.left d node live scripts has

/-- Each node of a copied workflow has the service of the node that was its turn. -/
theorem duplicateWorkflow_kept (scripted : s.IsScripted) {id : WorkflowId} {name : String}
    {w : Workflow} (keyed : d.workflow.Keyed) (run : duplicateWorkflow env id name d = .ok w d') :
    ∀ i node, d.workflow.nodes.values[i]? = some node → node.HasScripts env.registry →
      node.service = s →
      ∃ copy, w.nodes.get? (NodeId.next^[i] d.editor.nextId) = some copy ∧ copy.service = s := by
  obtain ⟨acc, d₁, g, mark, copies, _, _, rfl, _, rfl⟩ := duplicateWorkflow_eq_ok.1 run
  obtain ⟨numbered, _⟩ := numbered_values keyed copies
  intro i node held scripts has
  obtain ⟨copy, live, made⟩ :=
    numbered.exists_copy keyed.length_values_le (copied_values keyed copies) held
  obtain ⟨type, known, _, built⟩ := Node.copyOf_of_copied made
  rw [has, scripts.build_eq known scripted] at built
  exact ⟨copy, live, (Except.ok.inj built).symm⟩

/-- The workflow that is copied stays as it is, however that ends. -/
theorem duplicateWorkflow_left (env : Setup) (id : WorkflowId) (name : String) (d : Desk) :
    ((duplicateWorkflow env id name).left d).workflow = d.workflow := by
  have same : Within (fun d d' => d'.workflow = d.workflow) (duplicateWorkflow env id name) := by
    refine (duplicateWorkflow_savesLast env id name).within ⟨fun run => ?_, fun failed => ?_⟩
      fun accepted refused => refused.workflow.trans accepted
    · obtain ⟨acc, d₁, g, mark, copies, _, _, _, _, rfl⟩ := duplicateWorkflow_eq_ok.1 run
      exact ((copies_draw _ _).ok copies).drew.workflow
    · exact (duplicateWorkflow_error env.accepting_unfailing failed).drew.workflow
  exact same.left d

/-- An update with an export gives a node the service that was exported. -/
theorem update_kept (scripted : s.IsScripted) {u : UpdatedNode} {label : Option String}
    (keyed : d.workflow.Keyed)
    (scripts : ∀ node, d.workflow.nodes.get? n = some node → node.HasScripts env.registry)
    (run : update env n ⟨label, some s.config⟩ d = .ok u d') : u.node.service = s ∧
      ∀ k, d'.workflow.nodes.get? k = if n = k then some u.node else d.workflow.nodes.get? k := by
  obtain ⟨node, type, service, live, known, given, rfl, rfl⟩ := update_eq_ok.1 run
  have same : service = s := by
    rcases given with ⟨none, _⟩ | ⟨config, given, built, _⟩
    · cases none
    · cases given
      rw [(scripts node live).build_eq known scripted] at built
      exact (Except.ok.inj built).symm
  have id : (updatedNode node ⟨label, some s.config⟩ service).id = n := keyed n node live
  exact ⟨same, Workflow.get?_addNode id _⟩

/-- The configuration that an update records builds the service from before again. -/
theorem undo_kept (scripted : s.IsScripted) {values : NodeValues} {shown : Option Node} {a : Action}
    {d₁ later later' : Desk} (live : d.workflow.nodes.get? n = some node) (has : node.service = s)
    (run : (Request.update n values).perform env d = .ok (shown, a) d₁)
    (keyed : later.workflow.Keyed)
    (scripts : ∀ node, later.workflow.nodes.get? n = some node → node.HasScripts env.registry)
    (undone : a.undo env later = .ok () later') : ∃ back, back.service = s ∧
      ∀ k, later'.workflow.nodes.get? k =
        if n = k then some back else later.workflow.nodes.get? k := by
  obtain ⟨u, updated, same⟩ := map_eq_ok.1 run
  cases same
  obtain ⟨old, _, _, hn, _, _, rfl, _⟩ := update_eq_ok.1 updated
  cases live.symm.trans hn
  obtain ⟨u', again, _⟩ := map_eq_ok.1 undone
  rw [NodeValues.ofNode, has] at again
  obtain ⟨service, nodes⟩ := update_kept scripted keyed scripts again
  exact ⟨u'.node, service, nodes⟩

/-- An update that cannot be undone leaves the workflow as it is. -/
theorem undo_fails {values : NodeValues} {shown : Option Node} {a : Action} {f : Failure}
    {d₁ later later' : Desk} (run : (Request.update n values).perform env d = .ok (shown, a) d₁)
    (failed : a.undo env later = .error f later') : later'.workflow = later.workflow := by
  obtain ⟨u, _, same⟩ := map_eq_ok.1 run
  cases same
  have idle : Desk.Idle later later' := update_error (map_eq_error.1 failed)
  exact idle.drew.workflow

/-- All of this holds of scripted services. -/
theorem kept_of_isScripted (env : Setup) (scripted : s.IsScripted) : s.Kept env where
  duplicate := duplicate_kept scripted
  duplicate_left := duplicate_gains scripted
  duplicateWorkflow := duplicateWorkflow_kept scripted
  duplicateWorkflow_left := duplicateWorkflow_left env
  undo := undo_kept scripted
  undo_fails := undo_fails

end Edit

namespace NodeType

/-- Whatever configuration a service was built from, the service that is built from its export is
the same one, with its outputs, its answers and its export, and no edit that does so changes it. -/
theorem build_kept {name : String} {kind : NodeKind} {v : Json} {s : Service}
    (built : (scripted name kind).build v = .ok s) :
    (∃ script, Script.ofJson v = .ok script ∧ script.service = s ∧
      Script.ofJson s.config = .ok script) ∧
    (∀ name kind, (scripted name kind).build s.config = .ok s) ∧
    ∀ env, s.Kept env := by
  have scripted := isScripted_of_build built
  obtain ⟨script, read, rfl⟩ := Except.map_eq_ok.1 built
  exact ⟨⟨script, read, rfl, script.ofJson_toJson⟩, fun name kind => build_config scripted,
    fun env => Edit.kept_of_isScripted env scripted⟩

/-- A configuration that is written as an array, with one of its outputs as an array and the other
one as an object. -/
def branches : Json := .array [.object [("status", .string "ok")], .string "big",
  .array [.array [.string "big", .string "Is big"], .object [("uid", .string "small")]]]

theorem build_kept_branches : ∃ s, (scripted "router" .router).build branches = .ok s ∧
    s.edges = [⟨"", ""⟩, ⟨"big", "Is big"⟩, ⟨"small", ""⟩] ∧
    (scripted "router" .router).build s.config = .ok s ∧ s.config ≠ branches := by
  have built : (scripted "router" .router).build branches = .ok (Script.service {
      data := .object [("status", .string "ok")], output := "big"
      edges := [⟨"big", "Is big"⟩, ⟨"small", ""⟩] }) := rfl
  obtain ⟨_, again, _⟩ := build_kept built
  exact ⟨_, built, rfl, again _ _, nofun⟩

end NodeType

end Autoflow
