import Autoflow.Proofs.Editing.Counting
import Autoflow.Proofs.Editing.Deposits
import Autoflow.Proofs.Editing.Fittings

/-!
# Sessions that stay fit

In a fit session every workflow fits and every entry of the trash suits the slot it has recorded:
only a trigger comes from the root, and whatever has the id of the container that a node was inside
of is a container (`Session.Fit`). A node never changes its type and no id is given twice, so this
stays true in all that may happen between a deletion and a restoration (`Session.Fit.run`), as long
as no node is put back in the place of its replacement, which nothing checks.
-/

namespace Autoflow

open Workflow (IsContainer IsTrigger)

/-! ## Operations -/

namespace Desk

/-- What is live after an edit is new or was known before, with the same type. -/
def Recalls (d d' : Desk) : Prop :=
  ∀ {k node}, d'.workflow.nodes.get? k = some node →
    k = d.editor.nextId ∨ ∃ old, d.Known k old ∧ old.typeName = node.typeName

/-- A desk on which all edits but those that put a node back keep the workflow fitting. -/
structure Ready (registry : Registry) (d : Desk) : Prop where
  fits : d.workflow.Fits registry
  filed : d.Filed
  fresh : d.editor.nextId ∉ d.workflow.nodes.ids
  apart : ∀ {n}, n ∈ d.workflow.nodes.ids → d.editor.trash.get? n = none
  awaits : ∀ {n entry}, d.editor.trash.get? n = some entry → d.workflow.Awaits registry n entry

variable {d d' : Desk} {out back : Option NodeId} {into : Option Node}

theorem Ready.not_mem_ids_of_trashed {registry : Registry} (ready : d.Ready registry) {n : NodeId}
    {entry : TrashEntry} (held : d.editor.trash.get? n = some entry) :
    n ∉ d.workflow.nodes.ids := by
  intro live
  rw [ready.apart live] at held
  cases held

theorem recalls_of_eq (same : d'.workflow.nodes = d.workflow.nodes) : d.Recalls d' :=
  fun {_ node} hn => Or.inr ⟨node, Or.inl (same ▸ hn), rfl⟩

theorem Exchange.recalls (h : d.Exchange d' out into back)
    (arrived : ∀ node, into = some node → node.id = d.editor.nextId ∨
      ∃ old, d.Known node.id old ∧ old.typeName = node.typeName) : d.Recalls d' := by
  intro k node hk
  rw [h.nodes k] at hk
  split at hk
  · next new =>
    rw [hk] at new
    cases new
    exact arrived node hk
  · split at hk
    · cases hk
    · exact Or.inr ⟨node, Or.inl hk, rfl⟩

end Desk

/-- An operation that succeeds leaves a workflow that fits, and no type changes, unless it puts a
node back in the place of its replacement. -/
theorem Operation.fits (o : Operation) {env : Setup} (accepting : env.Accepting)
    (named : env.registry.Named) {d d' : Desk} (ready : d.Ready env.registry)
    (plain : o.leftover = none) {made : Option NodeId} (run : o.perform env d = .ok made d') :
    d'.workflow.Fits env.registry ∧ d.Recalls d' := by
  have ⟨fits, filed, fresh, _, awaits⟩ := ready
  refine Operation.induct (P := fun {α} left x => left = none → ∀ (a : α) d', x env d = .ok a d' →
    d'.workflow.Fits env.registry ∧ d.Recalls d')
    ?_ ?_ ?_ ?_ ?_ ?_ ?_ ?_ ?_ ?_ ?_ o plain made d' run
  · intro α a _ b d' run
    obtain ⟨_, rfl⟩ := Edit.pure_eq_ok.1 run
    exact ⟨fits, Desk.recalls_of_eq rfl⟩
  · intro α β left x g ih plain b d' run
    obtain ⟨a, done, _⟩ := Edit.map_eq_ok.1 run
    exact ih plain a d' done
  · intro typeName values p _ node d' run
    refine ⟨Edit.create_fits accepting named fits fresh run,
      (Edit.create_exchange accepting run).recalls ?_⟩
    rintro _ ⟨⟩
    obtain ⟨_, _, _, _, _, _, _, _, _, _, rfl, _⟩ := (Edit.create_eq_ok accepting).1 run
    exact Or.inl rfl
  · intro n values _ u d' run
    refine ⟨Edit.update_fits fits run, fun {k node} hk => ?_⟩
    obtain ⟨old, _, service, hn, _, _, _, rfl⟩ := Edit.update_eq_ok.1 run
    have id : (Edit.updatedNode old values service).id = n := (fits.housed hn).id
    replace hk := (Workflow.get?_addNode id _ k).symm.trans hk
    split at hk
    · next same =>
      cases hk
      exact Or.inr ⟨old, Or.inl (same ▸ hn), rfl⟩
    · exact Or.inr ⟨node, Or.inl hk, rfl⟩
  · intro n actor _ node d' run
    exact ⟨Edit.delete_fits accepting fits run,
      (Edit.delete_exchange accepting filed run).recalls nofun⟩
  · intro n _ node d' run
    have exchange := Edit.restore_exchange accepting filed run
    obtain ⟨entry, _, _, he, _⟩ := (Edit.restore_eq_ok accepting).1 run
    have new := ready.not_mem_ids_of_trashed he
    refine ⟨Edit.restore_fits accepting fits new (fun entry => awaits) run, exchange.recalls ?_⟩
    rintro _ ⟨⟩
    have arrival := exchange.arrival
    generalize d'.editor.nextId = next at arrival
    cases arrival with
    | back _ trashed =>
      obtain ⟨e, held, same⟩ := Option.map_eq_some_iff.1 trashed
      exact Or.inr ⟨node, Or.inr ⟨e, held, same⟩, rfl⟩
  · intro n _ node d' run
    refine ⟨Edit.duplicate_fits accepting named fits fresh run,
      (Edit.duplicate_exchange accepting run).recalls ?_⟩
    rintro _ ⟨⟩
    obtain ⟨_, _, _, _, _, _, _, _, _, rfl, _⟩ := (Edit.duplicate_eq_ok accepting).1 run
    exact Or.inl rfl
  · intro n typeName actor _ r d' run
    refine ⟨Edit.replace_fits accepting named fits fresh run,
      (Edit.replace_exchange accepting filed run).recalls ?_⟩
    rintro _ ⟨⟩
    obtain ⟨_, _, _, _, _, _, _, _, _, _, _, _, _, _, rfl, _⟩ :=
      (Edit.replace_eq_ok accepting).1 run
    exact Or.inl rfl
  · exact fun _ _ back => nomatch back
  · intro n p _ moved d' run
    exact ⟨Edit.move_fits accepting fits run,
      (Edit.move_exchange accepting filed run).recalls nofun⟩
  · intro m _ u d' run
    exact ⟨Edit.simulate_fits fits run, (Edit.simulate_exchange run).recalls nofun⟩

/-! ## Copies -/

namespace Workflow

variable {registry : Registry} {node node' : Node}

theorem isTrigger_congr (same : node.typeName = node'.typeName) :
    IsTrigger registry node ↔ IsTrigger registry node' := by
  unfold IsTrigger
  rw [same]

theorem isContainer_congr (same : node.typeName = node'.typeName) :
    IsContainer registry node ↔ IsContainer registry node' := by
  unfold IsContainer
  rw [same]

end Workflow

/-- The copy of a workflow that fits does so as well. -/
theorem Edit.duplicateWorkflow_fits {env : Setup} {d d' : Desk} {copyId : WorkflowId}
    {name : String} {w : Workflow} (named : env.registry.Named)
    (fits : d.workflow.Fits env.registry) (filed : d.workflow.Filed)
    (h : duplicateWorkflow env copyId name d = .ok w d') : w.Fits env.registry := by
  have filed' := (duplicateWorkflow_ok filed h).1
  obtain ⟨acc, d₁, g, mark, copies, renamed, _, rfl, _⟩ := duplicateWorkflow_eq_ok.1 h
  have copied := copied_values filed.keyed copies
  obtain ⟨numbered, _⟩ := numbered_values filed.keyed copies
  have few := filed.keyed.length_values_le
  obtain ⟨σ, names, rfl⟩ := image_of_copied copied (numbered.distinct few) renamed
  -- Each node of the copy is a copy of the node that has its name, and has the same type.
  have original : ∀ {m copy}, acc.1.nodes.get? m = some copy → ∃ node,
      d.workflow.nodes.get? (σ.symm m) = some node ∧ copy.workflow = copyId ∧
        copy.typeName = node.typeName := by
    intro m copy hm
    obtain ⟨i, node, held, place, made⟩ := (numbered.nodes m copy).1 hm
    obtain ⟨type, service, ht, _, rfl⟩ := Node.copied_eq_some.1 made
    have name := (numbered.names node.id m).2 ⟨i, node, held, rfl, place⟩
    obtain ⟨n, hn⟩ := NodeMap.mem_values_iff.1 (List.mem_of_getElem? held)
    obtain rfl := filed.id hn
    rw [names _ _ (Renaming.node_eq_ok.2 name), Equiv.symm_apply_apply]
    exact ⟨node, hn, rfl, named _ _ ht⟩
  refine ⟨fits.tree.image σ, filed'.ids, fun {m copy} hm => ?_, fun {m copy} hm => ?_,
    fun {m} some_inside => ?_⟩
  · obtain ⟨node, hn, home, type⟩ := original hm
    exact ⟨filed'.id hm, home.trans numbered.workflow.symm, type ▸ (fits.housed hn).type⟩
  · obtain ⟨node, hn, _, type⟩ := original hm
    change _ ↔ (d.workflow.graph.image σ id).root = some m
    rw [Workflow.isTrigger_congr type, fits.trigger hn, ← Graph.mem_occupants_root,
      ← Graph.mem_occupants_root, Graph.occupants_image, Layout.mem_relabel_iff]
    rfl
  · replace some_inside : d.workflow.graph.occupants (.child (σ.symm m)) ≠ [] := by
      rw [Graph.occupants_image] at some_inside
      exact fun none => some_inside (by simp [Layout.relabel, Slot.rename, none])
    obtain ⟨node, hn, container⟩ := fits.container some_inside
    obtain ⟨m', name, live⟩ := copied.knows filed (NodeMap.mem_ids_of_get? hn)
    obtain rfl : m' = m := by rw [names _ _ name, Equiv.apply_symm_apply]
    obtain ⟨copy, hm⟩ := NodeMap.mem_ids_iff.1 live
    obtain ⟨node', hn', _, type⟩ := original hm
    rw [hn] at hn'
    cases hn'
    exact ⟨copy, hm, (Workflow.isContainer_congr type).2 container⟩

/-! ## Sessions -/

namespace Session

/-- The slot that an entry of the trash has recorded suits its node. Whatever has the id of the
container that the node was inside of is a container, and no new node gets that id. -/
structure Suits (s : Session) (entry : TrashEntry) : Prop where
  home : entry.node.workflow = entry.workflow
  type : ∃ type, s.setup.registry.get? entry.node.typeName = some type
  slot : ∃ t : Slot, entry.position = some t.position ∧
    (IsTrigger s.setup.registry entry.node ↔ t = .root) ∧
    ∀ r, t = .child r → r.ordinal < s.editor.nextId.ordinal ∧
      ∀ p node, s.node? p r = some node → IsContainer s.setup.registry node

/-- Every workflow fits, and every entry of the trash suits its slot. -/
structure Fit (s : Session) : Prop where
  workflows : ∀ {name w}, s.workflows.get? name = some w → w.Fits s.setup.registry
  trash : ∀ {n entry}, s.editor.trash.get? n = some entry → s.Suits entry

/-- The counter of ids does not fall, and whatever is known has an id that is new or was known
with the same type. -/
structure Recalls (s s' : Session) : Prop where
  setup : s'.setup = s.setup
  low : s.editor.nextId.ordinal ≤ s'.editor.nextId.ordinal
  types : ∀ {p k node}, s'.node? p k = some node → s.editor.nextId.ordinal ≤ k.ordinal ∨
    ∃ q old, s.node? q k = some old ∧ old.typeName = node.typeName

variable {s s' : Session} {name : String} {d d' : Desk} {n : NodeId} {entry : TrashEntry}
  {drawn : Nat}

theorem Suits.recalled (suits : s.Suits entry) (recalls : s.Recalls s') : s'.Suits entry := by
  obtain ⟨home, type, t, recorded, root, inside⟩ := suits
  refine ⟨home, recalls.setup ▸ type, t, recorded, recalls.setup ▸ root, fun r child => ?_⟩
  obtain ⟨old, containers⟩ := inside r child
  refine ⟨Nat.lt_of_lt_of_le old recalls.low, fun p node hp => ?_⟩
  rw [recalls.setup]
  rcases recalls.types hp with new | ⟨q, node', hq, same⟩
  · exact absurd old (Nat.not_lt.2 new)
  · exact (Workflow.isContainer_congr same).1 (containers q node' hq)

/-- An entry that suits its slot suits all workflows of the session. -/
theorem Suits.awaits (suits : s.Suits entry) (filed : entry.node.id = n) {w : Workflow}
    (there : s.workflows.get? name = some w) : w.Awaits s.setup.registry n entry := by
  obtain ⟨home, type, t, recorded, root, inside⟩ := suits
  refine ⟨fun here => ⟨filed, home.trans here, type⟩, fun p held => ?_,
    fun p r reference held ref place live => ?_⟩
  · obtain rfl : t.position = p := Option.some.inj (recorded.symm.trans held)
    rw [root, t.reference_position]
    exact ⟨fun top => top ▸ rfl, Slot.eq_root_of_owner⟩
  · obtain rfl : t.position = p := Option.some.inj (recorded.symm.trans held)
    have child : t = .child r := by
      cases t with
      | root => cases ref
      | south m o => cases place
      | child m =>
        cases ref
        rfl
    refine (inside r child).2 (.live name) reference ?_
    rw [node?_live, there]
    exact live

theorem Settled.ordinal_next (settled : s.Settled drawn) (room : drawn < UInt64.size) :
    s.editor.nextId.ordinal = drawn := by
  rw [settled.next, NodeId.ordinal_mk room]

/-- Edits can rely on a fit session. -/
theorem Fit.ready (fit : s.Fit) (settled : s.Settled drawn) (room : drawn < UInt64.size)
    (here : s.desk? name = some d) : d.Ready s.setup.registry := by
  obtain ⟨hw, editor⟩ := desk?_eq_some.1 here
  have live : ∀ n, s.node? (.live name) n = d.workflow.nodes.get? n := fun n =>
    (node?_of_desk here n).1
  refine ⟨fit.workflows hw, settled.filed.desk here, fun known => ?_, fun {n} known => ?_,
    fun {n entry} held => ?_⟩
  · refine NodeMap.get?_eq_none_iff.1 ?_ known
    rw [editor, ← live]
    exact settled.unknown_next room _
  · obtain ⟨node, hn⟩ := NodeMap.mem_ids_iff.1 known
    have off := settled.elsewhere ((live n).trans hn) (q := .trash) nofun
    exact Option.map_eq_none_iff.1 ((node?_of_desk here n).2.symm.trans off)
  · rw [editor] at held
    exact (fit.trash held).awaits (settled.filed.trash (congrArg (Option.map _) held)) hw

/-- The slot of a live node suits it. -/
theorem Fit.suits_of_discard (fit : s.Fit) (settled : s.Settled drawn)
    (room : drawn < UInt64.size) (here : s.desk? name = some d)
    (discards : d.Discards s.setup d' n entry) : s.Suits entry := by
  obtain ⟨live, home, ⟨p, at_p, recorded⟩, _⟩ := discards
  obtain ⟨hw, _⟩ := desk?_eq_some.1 here
  have fits := fit.workflows hw
  have housed := fits.housed live
  obtain ⟨t, rfl, mem, _⟩ := Graph.mem_occupants_of_position at_p
  refine ⟨housed.workflow.trans home.symm, housed.type, t, recorded, ?_, ?_⟩
  · rw [fits.trigger live, ← Graph.mem_occupants_root]
    exact ⟨fun top => fits.tree.slot_unique mem top, fun top => top ▸ mem⟩
  · rintro r rfl
    obtain ⟨node, hr, container⟩ := fits.container (List.ne_nil_of_mem mem)
    have known := (node?_of_desk here r).1.trans hr
    refine ⟨settled.ordinal_next room ▸ settled.numbered known, fun q node' hq => ?_⟩
    obtain rfl := settled.alone hq known
    rw [known] at hq
    cases hq
    exact container

/-- A session that keeps the desk of an edit recalls the one before. -/
theorem recalls_keep (here : s.desk? name = some d) (recalls : d.Recalls d')
    (trash : ∀ {n entry}, d'.editor.trash.get? n = some entry →
      d.editor.trash.get? n = some entry ∨ d.Discards s.setup d' n entry)
    (low : s.editor.nextId.ordinal ≤ d'.editor.nextId.ordinal) :
    s.Recalls (s.keep name d') where
  setup := rfl
  low := low
  types {p k node} hp := by
    obtain ⟨was_live, was_trash⟩ := node?_of_desk here k
    cases p with
    | trash =>
      obtain ⟨entry, held, rfl⟩ := Option.map_eq_some_iff.1 hp
      rcases trash held with old | ⟨live, _, _, _⟩
      · exact Or.inr ⟨.trash, entry.node, was_trash.trans (congrArg (Option.map _) old), rfl⟩
      · exact Or.inr ⟨.live name, entry.node, was_live.trans live, rfl⟩
    | live other =>
      rw [node?_keep_live] at hp
      split at hp
      · rcases recalls hp with new | ⟨old, known | ⟨entry, held, rfl⟩, same⟩
        · rw [new, (desk?_eq_some.1 here).2]
          exact Or.inl (Nat.le_refl _)
        · exact Or.inr ⟨.live name, old, was_live.trans known, same⟩
        · exact Or.inr ⟨.trash, entry.node, was_trash.trans (congrArg (Option.map _) held), same⟩
      · exact Or.inr ⟨.live other, node, hp, rfl⟩

/-- A session stays fit if it keeps a desk with a workflow that fits. -/
theorem Fit.keep (fit : s.Fit) (settled : s.Settled drawn) (room : drawn < UInt64.size)
    (here : s.desk? name = some d) (fits : d'.workflow.Fits s.setup.registry)
    (recalls : d.Recalls d') (trash : ∀ {n entry}, d'.editor.trash.get? n = some entry →
      d.editor.trash.get? n = some entry ∨ d.Discards s.setup d' n entry)
    (low : s.editor.nextId.ordinal ≤ d'.editor.nextId.ordinal) : (s.keep name d').Fit where
  workflows {other w} hw := by
    rw [get?_keep] at hw
    split at hw
    · cases hw
      exact fits
    · exact fit.workflows hw
  trash {n entry} held := by
    have before : s.Suits entry := by
      rcases trash held with old | new
      · rw [(desk?_eq_some.1 here).2] at old
        exact fit.trash old
      · exact fit.suits_of_discard settled room here new
    exact before.recalled (recalls_keep here recalls trash low)

/-- A session stays fit if it keeps a desk with the same workflow and the same trash. -/
theorem Fit.still (fit : s.Fit) (settled : s.Settled drawn) (room : drawn < UInt64.size)
    (here : s.desk? name = some d) (workflow : d'.workflow = d.workflow)
    (trash : d'.editor.trash = d.editor.trash)
    (low : s.editor.nextId.ordinal ≤ d'.editor.nextId.ordinal) : (s.keep name d').Fit := by
  refine fit.keep settled room here ?_ (Desk.recalls_of_eq (by rw [workflow])) (fun held => ?_) low
  · rw [workflow]
    exact fit.workflows (desk?_eq_some.1 here).1
  · exact Or.inl (trash ▸ held)

/-- The counter of ids does not fall as long as it does not come round. -/
theorem Settled.le_of_advances (settled : s.Settled drawn) (here : s.desk? name = some d)
    {limit : Nat} (advances : d.Advances limit d') (room : drawn + limit < UInt64.size) :
    s.editor.nextId.ordinal ≤ d'.editor.nextId.ordinal := by
  obtain ⟨drawn', low, high, counted⟩ := advances drawn room (settled.counted.desk here)
  rw [settled.ordinal_next (by omega), counted.next, NodeId.ordinal_mk (by omega)]
  exact low

/-- An operation keeps a session fit unless it puts a node back in the place of its replacement. -/
theorem Fit.operate (fit : s.Fit) (settled : s.Settled drawn) (room : drawn + 1 < UInt64.size)
    (accepting : s.setup.Accepting) (named : s.setup.registry.Named) (name : String)
    (o : Operation) (plain : o.leftover = none) : (s.operate name o).Fit := by
  rcases operate_cases s name o with same | ⟨d, d', here, same, outcome⟩
  · rwa [same]
  have some_room : drawn < UInt64.size := Nat.lt_of_succ_lt room
  have filed := settled.filed.desk here
  have advances := o.advances accepting
  rw [same]
  rcases outcome with ⟨made, run⟩ | ⟨f, run⟩
  · have ready := fit.ready settled some_room here
    obtain ⟨fits, recalls⟩ := o.fits accepting named ready plain run
    exact fit.keep settled some_room here fits recalls (o.discards accepting filed run)
      (settled.le_of_advances here (advances.ok run) room)
  · have drew := (o.idle_of_error accepting filed run).drew
    exact fit.still settled some_room here drew.workflow drew.trash
      (settled.le_of_advances here (advances.error run) room)

/-- To copy a workflow keeps a session fit. -/
theorem Fit.copy (fit : s.Fit) (settled : s.Settled drawn) (accepting : s.setup.Accepting)
    (named : s.setup.registry.Named) (name copyName : String) (id : WorkflowId) (title : String)
    (room : drawn + s.draws (.copy name copyName id title) < UInt64.size) :
    (s.copy name copyName id title).Fit := by
  rcases copy_cases s name copyName id title with ⟨same, _⟩ | ⟨d, d', here, outcome⟩
  · rwa [same]
  rw [draws_copy here] at room
  have some_room : drawn < UInt64.size := by omega
  have filed := (settled.filed.desk here).workflow
  rcases outcome with ⟨w, run, after⟩ | ⟨f, run, after⟩
  · rw [after]
    obtain ⟨_, workflow, trash⟩ := Edit.duplicateWorkflow_ok filed run
    obtain ⟨new, next⟩ :=
      Edit.duplicateWorkflow_new filed (Nat.le_of_lt room) (settled.next_desk here) run
    obtain ⟨hw, editor⟩ := desk?_eq_some.1 here
    have fits := Edit.duplicateWorkflow_fits named (fit.workflows hw) filed run
    have low : s.editor.nextId.ordinal ≤ d'.editor.nextId.ordinal := by
      rw [settled.ordinal_next some_room, next, NodeId.ordinal_mk room]
      exact Nat.le_add_right _ _
    have kept := fit.still settled some_room here workflow trash low
    have same := node?_keep_same here workflow trash
    refine ⟨fun {other w'} hw => ?_, fun {n entry} held => ?_⟩
    · rw [get?_put] at hw
      split at hw
      · cases hw
        exact fits
      · exact kept.workflows hw
    change d'.editor.trash.get? n = some entry at held
    rw [trash, editor] at held
    refine (fit.trash held).recalled ⟨rfl, low, fun {p k node} hp => ?_⟩
    cases p with
    | trash => exact Or.inr ⟨.trash, node, (same .trash k).symm.trans hp, rfl⟩
    | live other =>
      rw [node?_put_live] at hp
      split at hp
      · rw [settled.ordinal_next some_room]
        exact Or.inl (new k (NodeMap.mem_ids_of_get? hp)).1
      · exact Or.inr ⟨.live other, node, (same _ k).symm.trans hp, rfl⟩
  · rw [after]
    have drew := Edit.duplicateWorkflow_error accepting run
    exact fit.still settled some_room here drew.drew.workflow drew.drew.trash
      (settled.le_of_advances here drew.advances room)

/-- Whether a step puts a node back in the place of its replacement. -/
def Step.swapsBack : Step → Bool
  | .operate _ o => o.leftover.isSome
  | .copy .. | .list _ | .reserve _ => false

/-- Every other step keeps a session fit. -/
theorem Fit.after (fit : s.Fit) (settled : s.Settled drawn) (accepting : s.setup.Accepting)
    (named : s.setup.registry.Named) (step : Step) (plain : step.swapsBack = false)
    (room : drawn + s.draws step < UInt64.size) : (s.after step).Fit := by
  have idle : ∀ name, step = .list name ∨ step = .reserve name → drawn + 1 < UInt64.size →
      (s.after step).Fit := by
    intro name idle room
    rcases settled.counted.idle room idle with same | ⟨d, d', here, still, same⟩
    · rwa [same]
    · rw [same]
      refine fit.still settled (Nat.lt_of_succ_lt room) here still.workflow still.trash ?_
      exact settled.le_of_advances here (still.advances 1) room
  cases step with
  | operate name o =>
    refine fit.operate settled room accepting named name o ?_
    exact Option.isNone_iff_eq_none.1 (Option.isSome_eq_false_iff.1 plain)
  | copy name copyName id title =>
    exact fit.copy settled accepting named name copyName id title room
  | list name => exact idle name (Or.inl rfl) room
  | reserve name => exact idle name (Or.inr rfl) room

theorem fit_opened (setup : Setup) (nodeCache : Bool)
    (shelf : List (String × WorkflowId × String)) : (opened setup nodeCache shelf).Fit where
  workflows hw := by
    obtain ⟨id, title, rfl⟩ := eq_of_opened hw
    exact (Desk.tidy_start setup.registry nodeCache id title).fits
  trash := nofun

/-- After any steps a session is settled and fit, as long as none of them puts a node back in the
place of its replacement. -/
theorem Fit.run (fit : s.Fit) (settled : s.Settled drawn) (accepting : s.setup.Accepting)
    (named : s.setup.registry.Named) (steps : List Step)
    (plain : ∀ step ∈ steps, step.swapsBack = false)
    (room : drawn + s.demand steps < UInt64.size) :
    (∃ drawn' < UInt64.size, (s.run steps).Settled drawn') ∧ (s.run steps).Fit := by
  induction steps generalizing s drawn with
  | nil => exact ⟨⟨drawn, room, settled⟩, fit⟩
  | cons step steps ih =>
    rw [demand] at room
    have now : drawn + s.draws step < UInt64.size := by omega
    have setup := setup_after s step
    obtain ⟨drawn₁, le, settled₁⟩ := settled.after accepting step now
    have fit₁ := fit.after settled accepting named step (plain step List.mem_cons_self) now
    exact ih fit₁ settled₁ (setup ▸ accepting) (setup ▸ named)
      (fun step' mem => plain step' (List.mem_cons_of_mem _ mem)) (by omega)

end Session

end Autoflow
