import Autoflow.Proofs.Editing.Fit

/-!
# Edits keep the parts of a workflow fitting

Each edit leaves a workflow that fits if it finds one, with one lemma for each. Fresh ids have to
be new to the workflow. The checks of the edits grant the rest, but for a node that comes back from
the trash: its type and its slot are not checked again, so they have to be those of a node that was
there before (`Workflow.Awaits`). A node that is put back in the place of another one is not
checked at all.
-/

namespace Autoflow

open Workflow (IsContainer IsTrigger Housed)

/-- In a registry that files types under their own names, a type that is found is also found under
its name. -/
theorem Registry.Named.get?_name {registry : Registry} (named : registry.Named) {name : String}
    {type : NodeType} (ht : registry.get? name = some type) :
    registry.get? type.name = some type := by
  rw [named _ _ ht]
  exact ht

/-- An entry of the trash suits a workflow: if it is an entry of this one, the node belongs to it,
only a trigger comes from the root, and what the node was inside of is a container where it is still
live. -/
structure Workflow.Awaits (registry : Registry) (w : Workflow) (n : NodeId) (entry : TrashEntry) :
    Prop where
  housed : entry.workflow = w.id → Housed registry w n entry.node
  root : ∀ p, entry.position = some p → (IsTrigger registry entry.node ↔ p.reference = none)
  inside : ∀ p r reference, entry.position = some p → p.reference = some r →
    p.placement = .child → w.nodes.get? r = some reference → IsContainer registry reference

namespace Edit

variable {env : Setup} (accepting : env.Accepting) (named : env.registry.Named) {d d' : Desk}
  {n : NodeId} {node : Node} {p : Position} (fits : d.workflow.Fits env.registry)
  (fresh : d.editor.nextId ∉ d.workflow.nodes.ids)

/-- A node that was just made belongs to the workflow, under the id drawn for it and with a
registered type. -/
theorem housed_freshNode {registry : Registry} (named : registry.Named) {name label : String}
    {type : NodeType} (ht : registry.get? name = some type) (service : Service) :
    Housed registry d.workflow d.editor.nextId
      (freshNode d type label d.workflow.id service) :=
  ⟨rfl, rfl, type, named.get?_name ht⟩

/-- What kind a fresh node is of depends on its type alone. -/
theorem isTrigger_freshNode {registry : Registry} (named : registry.Named) {name label : String}
    {type : NodeType} (ht : registry.get? name = some type) (service : Service) :
    IsTrigger registry (freshNode d type label d.workflow.id service) ↔ type.kind = .trigger :=
  (Workflow.isTrigger_iff (named.get?_name ht)).trans Workflow.isTrigger_kind

include accepting named fits fresh in
/-- A new node fits: the check of a creation puts a trigger at a free root, and everything else
behind a live node or into a container. -/
theorem create_fits {typeName : String} {values : NodeValues}
    (h : create env typeName values p d = .ok node d') : d'.workflow.Fits env.registry := by
  obtain ⟨type, reference, service, g, ht, hr, hp, hc, _, hg, rfl, rfl⟩ :=
    (create_eq_ok accepting).1 h
  have referred := Workflow.isSome_of_resolve hr
  refine fits.planted rfl hg (Workflow.get?_addNode rfl _) fresh (housed_freshNode named ht service)
    (fun r ref => (fits.held hr hp ref).1) ?_ ?_ ?_
  · rw [isTrigger_freshNode named ht]
    rcases Workflow.checkCreate_eq_ok.1 hc with ⟨k, _, e⟩ | ⟨k, e⟩
    · rw [e] at referred
      simpa [k] using referred.symm
    · rw [e] at referred
      rw [iff_false_left k, ← Option.not_isSome_iff_eq_none, not_not]
      exact referred.symm
  · intro top
    rw [top] at referred
    rcases Workflow.checkCreate_eq_ok.1 hc with ⟨_, e, _⟩ | ⟨_, e⟩
    · exact e
    · rw [e] at referred
      cases referred
  · intro r ref place
    obtain ⟨_, node, hn, _, _, inside⟩ := fits.held hr hp ref
    exact ⟨node, hn, inside place⟩

include accepting named fits fresh in
/-- A copy stands behind its source, so it never comes to the root, and it is no trigger since the
check refuses those with a reference. -/
theorem duplicate_fits (h : duplicate env n d = .ok node d') : d'.workflow.Fits env.registry := by
  obtain ⟨source, type, service, g, hn, ht, hc, _, hg, rfl, rfl⟩ :=
    (duplicate_eq_ok accepting).1 h
  rw [(fits.housed hn).id] at hg
  refine fits.planted rfl hg (Workflow.get?_addNode rfl _) fresh (housed_freshNode named ht service)
    ?_ ?_ nofun ?_
  · rintro r ⟨⟩
    exact fits.mem_graph hn
  · rw [isTrigger_freshNode named ht]
    rcases Workflow.checkCreate_eq_ok.1 hc with ⟨_, _, e⟩ | ⟨k, _⟩
    · cases e
    · simp [k, Position.south]
  · intro r _ place
    cases place

include accepting fits in
/-- A node from the trash fits if its entry suits the workflow. The checks only see that its
reference is live or that the root is free. -/
theorem restore_fits (new : n ∉ d.workflow.nodes.ids)
    (awaits : ∀ entry, d.editor.trash.get? n = some entry →
      d.workflow.Awaits env.registry n entry)
    (h : restore env n d = .ok node d') : d'.workflow.Fits env.registry := by
  obtain ⟨entry, p, g, he, hp, hc, hg, rfl, rfl⟩ := (restore_eq_ok accepting).1 h
  obtain ⟨home, _, recorded⟩ := recordedPosition_eq_ok.1 hp
  obtain ⟨housed, root, inside⟩ := awaits entry he
  -- What passed the check has a live reference, or none at all.
  have live : ∀ r, p.reference = some r →
      ∃ reference, d.workflow.nodes.get? r = some reference := by
    intro r ref
    rcases checkRestore_eq_ok.1 hc with ⟨_, reference, e, hr, _⟩ | ⟨e, _⟩
    · rw [ref] at e
      cases e
      exact ⟨reference, hr⟩
    · rw [ref] at e
      cases e
  refine fits.planted rfl hg (Workflow.get?_addNode (housed home).id _) new (housed home) ?_
    (root p recorded) ?_ ?_
  · intro r ref
    obtain ⟨_, hr⟩ := live r ref
    exact fits.mem_graph hr
  · intro top
    rcases checkRestore_eq_ok.1 hc with ⟨_, _, e, _⟩ | ⟨_, type, ht, free⟩
    · rw [top] at e
      cases e
    · exact free ((Workflow.isTrigger_iff ht).1 ((root p recorded).2 top))
  · intro r ref place
    obtain ⟨reference, hr⟩ := live r ref
    exact ⟨reference, hr, inside p r reference recorded ref place hr⟩

include accepting fits in
/-- What is left after a deletion fits: the check keeps a trigger with successors, a container with
children and a router with nodes on its branches from being deleted. -/
theorem delete_fits {actor : Option String} (h : delete env n actor d = .ok node d') :
    d'.workflow.Fits env.registry := by
  obtain ⟨type, p, g, hn, ht, hc, _, hg, _, rfl⟩ := (delete_eq_ok accepting).1 h
  have id := (fits.housed hn).id
  have there := fits.mem_graph hn
  rw [← id] at there
  refine fits.uprooted rfl hg (Workflow.get?_takeNode _ n) hn (fits.bare_of_checkDelete hn ht hc)
    fun trigger => ?_
  rw [← id]
  exact ((Workflow.checkDelete_eq_ok there).1 hc).1
    (Workflow.isTrigger_kind.1 ((Workflow.isTrigger_iff ht).1 trigger))

include accepting named fits fresh in
/-- A new node fits in the place of an old one: the check asks that triggers stand for triggers and
that nothing is inside or on a branch of the old one. -/
theorem replace_fits {typeName : String} {actor : Option String} {r : ReplacedNode}
    (h : replace env n typeName none actor d = .ok r d') : d'.workflow.Fits env.registry := by
  obtain ⟨old, oldType, type, service, p, g, hn, ho, ht, hc, _, _, hg, _, rfl, rfl⟩ :=
    (replace_eq_ok accepting).1 h
  have there := fits.mem_graph hn
  rw [← (fits.housed hn).id] at there
  have housed : Housed env.registry d.workflow d.editor.nextId
    (freshNode d type "" d.workflow.id service) := housed_freshNode named ht service
  refine fits.replaced rfl hg (fun k => ?_) hn fresh housed (fits.bare_of_checkReplace hn ho hc) ?_
  · exact (Workflow.get?_addNode rfl _ k).trans
      (if_congr Iff.rfl rfl (Workflow.get?_takeNode _ n k))
  · rw [Workflow.isTrigger_iff ho, ((Workflow.checkReplace_eq_ok there).1 hc).2.2]
    exact Workflow.isTrigger_iff (named.get?_name ht)

include accepting fits in
/-- A move keeps a workflow fitting: the check refuses triggers and keeps a container from moving
into itself, and the slot it goes to is checked like that of a new node. -/
theorem move_fits {m : MovedNode} (h : move env n p d = .ok m d') :
    d'.workflow.Fits env.registry := by
  obtain ⟨node, type, reference, origin, g, hn, ht, hr, hp, off, hc, _, hg, rfl, rfl⟩ :=
    (move_eq_ok accepting).1 h
  have there := fits.mem_graph hn
  rw [← (fits.housed hn).id] at there
  obtain ⟨low, _, _, rfl, _⟩ := (Workflow.checkMove_eq_ok (fun _ => fits.tree) there).1 hc
  obtain ⟨r, ref⟩ := Option.isSome_iff_exists.1 (Workflow.isSome_of_resolve hr).symm
  obtain ⟨held, _, hnode, e, _, inside⟩ := fits.held hr hp ref
  cases e
  refine fits.moved rfl hg rfl hn (fun trigger => ?_) ref held (fun e => off (e ▸ ref)) ?_
    fun place => ⟨_, hnode, inside place⟩
  · exact low (Workflow.isTrigger_kind.1 ((Workflow.isTrigger_iff ht).1 trigger))
  · exact fits.outside_of_checkMove hn ht hnode hc

/-- An update changes neither the id nor the type of a node, nor the graph. -/
theorem update_fits {registry : Registry} (fits : d.workflow.Fits registry) {values : NodeValues}
    {u : UpdatedNode} (h : update env n values d = .ok u d') : d'.workflow.Fits registry := by
  obtain ⟨node, type, service, hn, _, _, _, rfl⟩ := update_eq_ok.1 h
  have id : (updatedNode node values service).id = n := (fits.housed hn).id
  exact fits.updated rfl rfl (Workflow.get?_addNode id _) hn rfl rfl rfl

/-- The marker of a simulation plays no part in what fits. -/
theorem simulate_fits {registry : Registry} (fits : d.workflow.Fits registry)
    {m : Option NodeId} {u : Unit} (h : simulate m d = .ok u d') : d'.workflow.Fits registry := by
  obtain ⟨_, rfl⟩ := simulate_eq_ok.1 h
  exact ⟨fits.tree, fits.ids, fun hn => (fits.housed hn).of_id rfl, fits.trigger, fits.container⟩

end Edit

end Autoflow
