import Autoflow.Proofs.Editing.Outlets

/-!
# Operations that drop outputs

When a node gets another service, or another node takes its place, the new service has to have the
outputs in use. That is checked for routers only, although nodes of all types can have branches,
and not at all when a node that was replaced comes back. An operation breaks the rule that all
outputs in use are exposed exactly if it drops one in this way (`Operation.regular`).
-/

namespace Autoflow

/-- The operation that does an action again. -/
def Action.again : Action → Operation
  | create n | duplicate _ n => .restore n
  | update n _ after => .request (.update n after)
  | delete n => .request (.delete n none)
  | replace n _ former _ => .restoreReplaced former n
  | move n _ destination => .request (.move n destination)

namespace Operation

/-- What an operation comes down to: itself or, to undo or redo, the operation that does the next
action again. -/
def direct? : Operation → Option Operation
  | undo h => h.undoable.head?.map fun a => a.inverse.again
  | redo h => h.redoable.head?.map Action.again
  | request r => some (.request r)
  | restore n => some (.restore n)
  | restoreReplaced n trashed => some (.restoreReplaced n trashed)
  | simulate n => some (.simulate n)

/-- The type of a live node other than a router: nothing checks that its outputs in use stay. -/
def unchecked? (env : Setup) (d : Desk) (n : NodeId) : Option NodeType :=
  ((d.workflow.nodes.get? n).bind fun node => env.registry.get? node.typeName).filter
    fun type => type.kind ≠ .router

/-- The service that gets the successors of a node, with the node, where nothing checks that it
has the outputs in use. -/
def entrusted? (env : Setup) (d : Desk) : Operation → Option (NodeId × Service)
  | request (.update n values) =>
    (unchecked? env d n).bind fun type =>
      values.service.bind fun config => (type.build config).toOption.map (n, ·)
  | request (.replace n typeName _) =>
    (unchecked? env d n).bind fun _ =>
      (env.registry.get? typeName).bind fun type =>
        (type.build (type.prepare (env.branchUid (d.editor.branches + 1)) .null)).toOption.map
          (n, ·)
  | restoreReplaced n trashed =>
    (d.editor.trash.get? trashed).map fun entry => (n, entry.node.service)
  | request (.create ..) | request (.delete ..) | request (.duplicate ..) | request (.move ..)
  | restore _ | simulate _ | undo _ | redo _ => none

/-- Whether an operation, should it succeed, leaves successors of a node to a service that lacks
the output they are on. -/
def drops (env : Setup) (d : Desk) (o : Operation) : Bool :=
  (o.direct?.bind (entrusted? env d)).any fun e => d.workflow.lacks e.1 e.2

variable {env : Setup} {d d' : Desk} {made : Option NodeId} {o o' : Operation}

theorem perform_again {a : Action} {u : Unit} (h : a.redo env d = .ok u d') :
    ∃ made, a.again.perform env d = .ok made d' := by
  cases a with
  | create n | duplicate _ n | replace n _ _ _ =>
    obtain ⟨_, edited, _⟩ := Edit.map_eq_ok.1 h
    exact ⟨none, Edit.map_eq_ok.2 ⟨_, edited, rfl⟩⟩
  | update n _ _ | delete n | move n _ _ =>
    obtain ⟨_, edited, _⟩ := Edit.map_eq_ok.1 h
    exact ⟨_, Edit.map_eq_ok.2 ⟨_, Edit.map_eq_ok.2 ⟨_, edited, rfl⟩, rfl⟩⟩

theorem undo_cases {hist : History} {r : Option Action × History}
    (h : hist.undo env d = .ok r d') : hist.undoable = [] ∧ d' = d ∨
      ∃ a rest, hist.undoable = a :: rest ∧ a.inverse.redo env d = .ok () d' := by
  obtain ⟨_ | ⟨a, rest⟩, redoable⟩ := hist
  · exact Or.inl ⟨rfl, (Edit.pure_eq_ok.1 h).2.symm⟩
  · obtain ⟨_, undone, _⟩ := Edit.map_eq_ok.1 h
    exact Or.inr ⟨a, rest, rfl, Action.undo_eq_redo env a ▸ undone⟩

theorem redo_cases {hist : History} {r : Option Action × History}
    (h : hist.redo env d = .ok r d') : hist.redoable = [] ∧ d' = d ∨
      ∃ a rest, hist.redoable = a :: rest ∧ a.redo env d = .ok () d' := by
  obtain ⟨undoable, _ | ⟨a, rest⟩⟩ := hist
  · exact Or.inl ⟨rfl, (Edit.pure_eq_ok.1 h).2.symm⟩
  · obtain ⟨_, redone, _⟩ := Edit.map_eq_ok.1 h
    exact Or.inr ⟨a, rest, rfl, redone⟩

/-- An operation that succeeds does nothing or what it comes down to. -/
theorem perform_direct (h : o.perform env d = .ok made d') :
    o.direct? = none ∧ d' = d ∨
      ∃ o' made', o.direct? = some o' ∧ o'.direct? = some o' ∧ o'.perform env d = .ok made' d' := by
  have again : ∀ a : Action, a.again.direct? = some a.again := fun a => by cases a <;> rfl
  cases o with
  | request _ | restore _ | restoreReplaced _ _ | simulate _ => exact Or.inr ⟨_, _, rfl, rfl, h⟩
  | undo hist =>
    obtain ⟨_, run, _⟩ := Edit.map_eq_ok.1 h
    rcases undo_cases run with ⟨empty, same⟩ | ⟨a, rest, next, redone⟩
    · exact Or.inl ⟨by simp [direct?, empty], same⟩
    · obtain ⟨made', performed⟩ := perform_again redone
      exact Or.inr ⟨_, made', by simp [direct?, next], again _, performed⟩
  | redo hist =>
    obtain ⟨_, run, _⟩ := Edit.map_eq_ok.1 h
    rcases redo_cases run with ⟨empty, same⟩ | ⟨a, rest, next, redone⟩
    · exact Or.inl ⟨by simp [direct?, empty], same⟩
    · obtain ⟨made', performed⟩ := perform_again redone
      exact Or.inr ⟨_, made', by simp [direct?, next], again _, performed⟩

end Operation

/-! ## One lemma for each edit -/

/-- The reference of a slot that was checked exposes it. -/
theorem Workflow.outlet_of_checkPosition {registry : Registry} {w : Workflow}
    {reference : Option Node} {p : Position} (hr : w.resolve p = .ok reference)
    (hp : w.checkPosition registry reference p = .ok ()) :
    ∀ r, p.reference = some r → w.Exposes r p.output := by
  intro r ref
  rcases resolve_eq_ok.1 hr with ⟨top, _⟩ | ⟨_, node, ref', live, rfl⟩
  · rw [ref] at top
    cases top
  · rw [ref] at ref'
    cases ref'
    exact ⟨node, live, (checkPosition_eq_ok.1 hp).2.2.1⟩

/-- Nothing is moved to the root. -/
theorem Workflow.isSome_of_checkMove {w : Workflow} {kind : NodeKind} {node : Node}
    {reference : Option Node} (h : w.checkMove kind node reference = .ok ()) :
    reference.isSome = true := by
  cases reference with
  | some r => rfl
  | none =>
    unfold checkMove at h
    cases kind <;> simp [Except.bind_unit_eq_ok] at h

namespace Desk

/-- A desk with a regular workflow and nodes that were built, each in one place. -/
structure Regular (registry : Registry) (d : Desk) : Prop where
  workflow : d.workflow.Regular registry
  filed : d.Filed
  trash : ∀ {n node}, d.editor.trash.node? n = some node → node.Built registry
  fresh : d.editor.nextId ∉ d.workflow.nodes.ids
  apart : ∀ {n}, n ∈ d.workflow.nodes.ids → d.editor.trash.get? n = none

end Desk

namespace Edit

open Workflow (checkUpdate_eq_ok checkReplace_eq_ok lacks_eq_false)

variable {env : Setup} {d d' : Desk} {n : NodeId} {node : Node} {p : Position}
  (accepting : env.Accepting) (named : env.registry.Named) (scripts : env.registry.Scripts)
  (regular : d.Regular env.registry)

include accepting named scripts regular in
theorem create_regular {typeName : String} {values : NodeValues}
    (h : create env typeName values p d = .ok node d') :
    d'.workflow.Regular env.registry ∧ (d.workflow.AllExposed → d'.workflow.AllExposed) := by
  obtain ⟨type, reference, service, g, ht, hr, hp, _, build, hg, rfl, rfl⟩ :=
    (create_eq_ok accepting).1 h
  exact regular.workflow.planted regular.filed.workflow.ids hg (Workflow.get?_addNode rfl _) rfl
    regular.fresh (Node.built_of_build named scripts ht rfl build)
    (Workflow.outlet_of_checkPosition hr hp)

include accepting named scripts regular in
theorem duplicate_regular (h : duplicate env n d = .ok node d') :
    d'.workflow.Regular env.registry ∧ (d.workflow.AllExposed → d'.workflow.AllExposed) := by
  obtain ⟨source, type, service, g, hn, ht, _, build, hg, rfl, rfl⟩ :=
    (duplicate_eq_ok accepting).1 h
  refine regular.workflow.planted regular.filed.workflow.ids hg (Workflow.get?_addNode rfl _) rfl
    regular.fresh (Node.built_of_build named scripts ht rfl build) ?_
  rintro r ⟨⟩
  exact ⟨source, regular.filed.workflow.id hn ▸ hn,
    (regular.workflow.built hn).scripted.hasOutput_default⟩

include accepting regular in
theorem restore_regular (h : restore env n d = .ok node d') :
    d'.workflow.Regular env.registry ∧ (d.workflow.AllExposed → d'.workflow.AllExposed) := by
  obtain ⟨entry, p, g, he, _, hc, hg, rfl, rfl⟩ := (restore_eq_ok accepting).1 h
  have trashed : d.editor.trash.node? n = some entry.node := congrArg (Option.map _) he
  have fresh : n ∉ d.workflow.nodes.ids := by
    intro live
    rw [regular.apart live] at he
    cases he
  refine regular.workflow.planted regular.filed.workflow.ids hg
    (Workflow.get?_addNode (regular.filed.trash trashed) _) rfl fresh (regular.trash trashed) ?_
  intro r ref
  rcases checkRestore_eq_ok.1 hc with ⟨_, reference, ref', live, out⟩ | ⟨top, _⟩
  · rw [ref] at ref'
    cases ref'
    exact ⟨reference, live, out⟩
  · rw [ref] at top
    cases top

include accepting regular in
theorem delete_regular {actor : Option String} (h : delete env n actor d = .ok node d') :
    d'.workflow.Regular env.registry ∧ (d.workflow.AllExposed → d'.workflow.AllExposed) := by
  obtain ⟨type, p, g, hn, _, _, _, hg, _, rfl⟩ := (delete_eq_ok accepting).1 h
  exact regular.workflow.uprooted regular.filed.workflow.ids hg (Workflow.get?_takeNode _ n)
    (fun _ => Workflow.simulateUntil_takeNode) (NodeMap.mem_ids_of_get? hn)

include accepting regular in
theorem move_regular {m : MovedNode} (h : move env n p d = .ok m d') :
    d'.workflow.Regular env.registry ∧ (d.workflow.AllExposed → d'.workflow.AllExposed) := by
  obtain ⟨node, type, reference, origin, g, hn, _, hr, hp, ne, hc, _, hg, rfl, rfl⟩ :=
    (move_eq_ok accepting).1 h
  have low := Workflow.isSome_of_checkMove hc
  rw [Workflow.isSome_of_resolve hr] at low
  obtain ⟨r, ref⟩ := Option.isSome_iff_exists.1 low
  exact regular.workflow.moved regular.filed.workflow.ids hg rfl rfl hn ref
    (fun same => ne (same ▸ ref)) (Workflow.outlet_of_checkPosition hr hp r ref)

/-! ### Other services -/

/-- A node has the outputs in use if all are exposed. -/
theorem lacks_own (exposed : d.workflow.AllExposed) (hn : d.workflow.nodes.get? n = some node) :
    d.workflow.lacks n node.service = false := by
  unfold Workflow.lacks
  simp only [List.any_eq_false, Bool.not_eq_true', Bool.not_eq_false]
  intro o used
  obtain ⟨node', hn', out⟩ := exposed n o used
  rw [hn] at hn'
  cases hn'
  exact out

include regular in
/-- The output that is in use is one of the edges of the node. -/
theorem edge_of_use (exposed : d.workflow.AllExposed)
    (hn : d.workflow.nodes.get? n = some node) {o : String}
    (used : d.workflow.graph.occupants (.south n o) ≠ []) : ∃ e ∈ node.service.edges, e.uid = o := by
  have has := (lacks_eq_false regular.workflow.pruned).1 (lacks_own exposed hn) o used
  obtain ⟨e, mem, uid⟩ := List.any_eq_true.1 has
  exact ⟨e, mem, beq_iff_eq.1 uid⟩

include regular in
/-- An update of a router that passes its check keeps the outputs in use. -/
theorem lacks_of_checkUpdate (exposed : d.workflow.AllExposed)
    (hn : d.workflow.nodes.get? n = some node) {service : Service} (scripted : service.IsScripted)
    (hc : d.workflow.checkUpdate .router node service = .ok ()) :
    d.workflow.lacks n service = false := by
  have id := regular.filed.workflow.id hn
  have there := (regular.filed.workflow.ids n).2 (NodeMap.mem_ids_of_get? hn)
  refine (lacks_eq_false regular.workflow.pruned).2 fun o used => ?_
  obtain ⟨e, mem, rfl⟩ := edge_of_use regular exposed hn used
  by_cases default : e.uid = ""
  · rw [default]
    exact scripted.hasOutput_default
  · by_contra off
    have kept := (checkUpdate_eq_ok (id ▸ there)).1 hc rfl e mem default (Bool.not_eq_true _ ▸ off)
    exact used (id ▸ kept)

include regular in
/-- A router that passes the check for its replacement has only its default output in use. -/
theorem bare_of_checkReplace (exposed : d.workflow.AllExposed)
    (hn : d.workflow.nodes.get? n = some node) {old new : NodeType} (router : old.kind = .router)
    (hc : d.workflow.checkReplace old new node = .ok ()) {o : String} (branch : o ≠ "") :
    d.workflow.graph.occupants (.south n o) = [] := by
  have id := regular.filed.workflow.id hn
  have there := (regular.filed.workflow.ids n).2 (NodeMap.mem_ids_of_get? hn)
  by_contra used
  obtain ⟨e, mem, rfl⟩ := edge_of_use regular exposed hn used
  exact used (id ▸ ((checkReplace_eq_ok (id ▸ there)).1 hc).2.1 router e mem branch)

theorem unchecked?_eq {type : NodeType} (hn : d.workflow.nodes.get? n = some node)
    (ht : env.registry.get? node.typeName = some type) :
    Operation.unchecked? env d n = if type.kind = .router then none else some type := by
  unfold Operation.unchecked?
  rw [hn, Option.bind_some, ht]
  by_cases router : type.kind = .router <;> simp [router, Option.filter]

include scripts regular in
theorem update_regular {values : NodeValues} {u : UpdatedNode}
    (h : update env n values d = .ok u d') :
    d'.workflow.Regular env.registry ∧ (d.workflow.AllExposed → (d'.workflow.AllExposed ↔
      (Operation.request (.update n values)).drops env d = false)) := by
  obtain ⟨node, type, service, hn, ht, given, rfl, rfl⟩ := update_eq_ok.1 h
  have old := regular.workflow.built hn
  have scripted : service.IsScripted := by
    rcases given with ⟨_, rfl⟩ | ⟨config, _, build, _⟩
    · exact old.scripted
    · exact Desk.isScripted_of_build scripts ht build
  have id : (updatedNode node values service).id = n := (regular.filed.workflow.id hn : node.id = n)
  obtain ⟨regular', iff⟩ := regular.workflow.updated
    (d.workflow.addNode (updatedNode node values service)) rfl (Workflow.get?_addNode id _) rfl
    ⟨old.type, scripted⟩
  refine ⟨regular', fun exposed => (iff exposed).trans ?_⟩
  rcases given with ⟨none_given, rfl⟩ | ⟨config, given, build, hc⟩
  · simp [Operation.drops, Operation.direct?, Operation.entrusted?, none_given,
      show (updatedNode node values node.service).service = node.service from rfl,
      lacks_own exposed hn]
  · have unchecked := unchecked?_eq hn ht
    by_cases router : type.kind = .router
    · rw [router] at hc
      have keeps := lacks_of_checkUpdate regular exposed hn scripted hc
      simp [Operation.drops, Operation.direct?, Operation.entrusted?, unchecked, router,
        show (updatedNode node values service).service = service from rfl, keeps]
    · simp [Operation.drops, Operation.direct?, Operation.entrusted?, unchecked, router, given,
        build, Except.toOption, show (updatedNode node values service).service = service from rfl]

include accepting named scripts regular in
theorem replace_regular {typeName : String} {actor : Option String} {r : ReplacedNode}
    (h : replace env n typeName none actor d = .ok r d') :
    d'.workflow.Regular env.registry ∧ (d.workflow.AllExposed → (d'.workflow.AllExposed ↔
      (Operation.request (.replace n typeName actor)).drops env d = false)) := by
  obtain ⟨old, oldType, type, service, p, g, hn, ho, ht, hc, build, _, hg, _, rfl, rfl⟩ :=
    (replace_eq_ok accepting).1 h
  have built : (freshNode d type "" d.workflow.id service).Built env.registry :=
    Node.built_of_build named scripts ht rfl build
  obtain ⟨regular', iff⟩ := regular.workflow.replaced regular.filed.workflow.ids
    (({ d.workflow with graph := g }.takeNode n).addNode
      (freshNode d type "" d.workflow.id service)) hg
    (fun k => (Workflow.get?_addNode rfl _ k).trans
      (if_congr Iff.rfl rfl (Workflow.get?_takeNode _ n k)))
    (fun _ => Workflow.simulateUntil_takeNode) regular.fresh built
  refine ⟨regular', fun exposed => (iff exposed).trans ?_⟩
  have unchecked := unchecked?_eq hn ho
  by_cases router : oldType.kind = .router
  · have keeps := Workflow.lacks_of_bare regular.workflow.pruned built.scripted
      fun o => bare_of_checkReplace regular exposed hn router hc
    simp [Operation.drops, Operation.direct?, Operation.entrusted?, unchecked, router, keeps]
  · simp [Operation.drops, Operation.direct?, Operation.entrusted?, unchecked, router, ht, build,
      Except.toOption, freshNode]

include accepting regular in
theorem restoreReplaced_regular {trashed : NodeId} {r : ReplacedNode}
    (h : restoreReplaced env n trashed d = .ok r d') :
    d'.workflow.Regular env.registry ∧ (d.workflow.AllExposed → (d'.workflow.AllExposed ↔
      (Operation.restoreReplaced n trashed).drops env d = false)) := by
  obtain ⟨entry, old, p, g, he, _, hn, _, hg, _, rfl, rfl⟩ := (restoreReplaced_eq_ok accepting).1 h
  have there : d.editor.trash.node? trashed = some entry.node := congrArg (Option.map _) he
  have id := regular.filed.trash there
  rw [id] at hg
  have fresh : trashed ∉ d.workflow.nodes.ids := by
    intro live
    rw [regular.apart live] at he
    cases he
  obtain ⟨regular', iff⟩ := regular.workflow.replaced regular.filed.workflow.ids
    (({ d.workflow with graph := g }.takeNode n).addNode entry.node) hg
    (fun k => (Workflow.get?_addNode id _ k).trans
      (if_congr Iff.rfl rfl (Workflow.get?_takeNode _ n k)))
    (fun _ => Workflow.simulateUntil_takeNode) fresh (regular.trash there)
  refine ⟨regular', fun exposed => (iff exposed).trans ?_⟩
  simp [Operation.drops, Operation.direct?, Operation.entrusted?, he]

end Edit

namespace Operation

variable {env : Setup} {d d' : Desk} {made : Option NodeId}

/-- An operation that succeeds keeps a workflow regular, and where all outputs in use are exposed
they stay so unless it drops one. -/
theorem regular (o : Operation) (accepting : env.Accepting) (named : env.registry.Named)
    (scripts : env.registry.Scripts) (regular : d.Regular env.registry)
    (h : o.perform env d = .ok made d') : d'.workflow.Regular env.registry ∧
      (d.workflow.AllExposed → (d'.workflow.AllExposed ↔ o.drops env d = false)) := by
  have keeps : ∀ {o' : Operation}, o'.drops env d = false →
      d'.workflow.Regular env.registry ∧ (d.workflow.AllExposed → d'.workflow.AllExposed) →
      d'.workflow.Regular env.registry ∧
        (d.workflow.AllExposed → (d'.workflow.AllExposed ↔ o'.drops env d = false)) :=
    fun none_dropped kept => ⟨kept.1, fun exposed => iff_of_true (kept.2 exposed) none_dropped⟩
  rcases perform_direct h with ⟨nothing, rfl⟩ | ⟨o', made', direct, plain, run⟩
  · refine keeps ?_ ⟨regular.workflow, id⟩
    simp [drops, nothing]
  · have same : o.drops env d = o'.drops env d := by
      unfold drops
      rw [direct, plain]
    rw [same]
    cases o' with
    | request r =>
      obtain ⟨_, done, _⟩ := Edit.map_eq_ok.1 run
      cases r with
      | create typeName values p =>
        obtain ⟨_, edited, _⟩ := Edit.map_eq_ok.1 done
        exact keeps rfl (Edit.create_regular accepting named scripts regular edited)
      | update n values =>
        obtain ⟨_, edited, _⟩ := Edit.map_eq_ok.1 done
        exact Edit.update_regular scripts regular edited
      | delete n actor =>
        obtain ⟨_, edited, _⟩ := Edit.map_eq_ok.1 done
        exact keeps rfl (Edit.delete_regular accepting regular edited)
      | duplicate n =>
        obtain ⟨_, edited, _⟩ := Edit.map_eq_ok.1 done
        exact keeps rfl (Edit.duplicate_regular accepting named scripts regular edited)
      | replace n typeName actor =>
        obtain ⟨_, edited, _⟩ := Edit.map_eq_ok.1 done
        exact Edit.replace_regular accepting named scripts regular edited
      | move n destination =>
        obtain ⟨_, edited, _⟩ := Edit.map_eq_ok.1 done
        exact keeps rfl (Edit.move_regular accepting regular edited)
    | restore n =>
      obtain ⟨_, edited, _⟩ := Edit.map_eq_ok.1 run
      exact keeps rfl (Edit.restore_regular accepting regular edited)
    | restoreReplaced n trashed =>
      obtain ⟨_, edited, _⟩ := Edit.map_eq_ok.1 run
      exact Edit.restoreReplaced_regular accepting regular edited
    | simulate n =>
      obtain ⟨_, edited, _⟩ := Edit.map_eq_ok.1 run
      obtain ⟨live, rfl⟩ := Edit.simulate_eq_ok.1 edited
      exact keeps rfl ⟨regular.workflow.marked n live, id⟩
    | undo hist =>
      obtain ⟨a, _, again⟩ := Option.map_eq_some_iff.1 plain
      cases hi : a.inverse <;> rw [hi] at again <;> cases again
    | redo hist =>
      obtain ⟨a, _, again⟩ := Option.map_eq_some_iff.1 plain
      cases a <;> cases again

end Operation

/-- Nodes in the trash stay built. -/
theorem Desk.Regular.built_trash {registry : Registry} {d d' : Desk} {out back : Option NodeId}
    {into : Option Node} (regular : d.Regular registry) (h : d.Exchange d' out into back)
    {n : NodeId} {node : Node} (hn : d'.editor.trash.node? n = some node) :
    node.Built registry := by
  rw [h.trash n] at hn
  split at hn
  · cases hn
  · split at hn
    · exact regular.workflow.built hn
    · exact regular.trash hn

end Autoflow
