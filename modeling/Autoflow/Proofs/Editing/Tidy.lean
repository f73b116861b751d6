import Autoflow.Proofs.Editing.Fit

/-!
# Tidy desks

A desk is tidy if its workflow fits, the marker is on a live node, what is in the trash is not
live, can go back to the slot it had as far as its type is concerned, and all ids that are known
were drawn from the counter. Each way to change the nodes that are known keeps a desk tidy under
what the checks of the edits grant: planting one (`Tidy.grown`), letting one give way to
another (`Tidy.swapped`) and leaving all where they are known (`Tidy.reworked`).
-/

namespace Autoflow

open Workflow (IsContainer IsTrigger Housed)

/-- The place of an id in the order in which ids are drawn, counted from zero. -/
def NodeId.ordinal (n : NodeId) : Nat := (n.val - 1).toNat

theorem NodeId.ordinal_mk {drawn : Nat} (room : drawn < UInt64.size) :
    (NodeId.mk (1 + UInt64.ofNat drawn)).ordinal = drawn := by
  have e : 1 + UInt64.ofNat drawn - 1 = UInt64.ofNat drawn := by
    rw [UInt64.add_comm, UInt64.add_sub_cancel]
  rw [ordinal, e]
  exact UInt64.toNat_ofNat_of_lt room

theorem NodeId.next_mk (drawn : Nat) :
    (NodeId.mk (1 + UInt64.ofNat drawn)).next = ⟨1 + UInt64.ofNat (drawn + 1)⟩ := by
  rw [next, UInt64.ofNat_add, ← UInt64.add_assoc]
  rfl

namespace Desk

/-- A node is live or in the trash. -/
def Known (d : Desk) (n : NodeId) (node : Node) : Prop :=
  d.workflow.nodes.get? n = some node ∨ ∃ e, d.editor.trash.get? n = some e ∧ e.node = node

/-- The recorded slot of a node suits its type: only a trigger comes from the root, and what it
was inside of is a container. -/
structure Restorable (registry : Registry) (d : Desk) (node : Node) (p : Position) : Prop where
  root : IsTrigger registry node ↔ p.reference = none
  inside : ∀ r, p.reference = some r → p.placement = .child →
    ∃ node, d.Known r node ∧ IsContainer registry node

/-- A desk whose workflow fits and whose trash goes with it, after a number of ids drawn. -/
structure Tidy (registry : Registry) (drawn : Nat) (d : Desk) : Prop where
  fits : d.workflow.Fits registry
  marker : ∀ n, d.workflow.simulateUntil = some n → n ∈ d.workflow.nodes.ids
  apart : ∀ n, n ∈ d.workflow.nodes.ids → d.editor.trash.get? n = none
  trashed : ∀ n e, d.editor.trash.get? n = some e → Housed registry d.workflow n e.node
  restorable : ∀ n e p, d.editor.trash.get? n = some e → e.position = some p →
    d.Restorable registry e.node p
  next : d.editor.nextId = ⟨1 + UInt64.ofNat drawn⟩
  numbered : ∀ n node, d.Known n node → n.ordinal < drawn

/-- Nothing happened to a desk, but for an id that may have been drawn. -/
def Idle (d d' : Desk) : Prop := d = d' ∨ d.drawn = d'

/-- Whatever is known to a desk is known to another one with the same type. -/
def Remembers (d' d : Desk) : Prop :=
  ∀ n node, d.Known n node → ∃ node', d'.Known n node' ∧ node'.typeName = node.typeName

variable {registry : Registry} {drawn drawn' : Nat} {d d' : Desk} {n : NodeId} {node : Node}
  {p : Position}

theorem Restorable.mono (h : d.Restorable registry node p) (remembers : d'.Remembers d) :
    d'.Restorable registry node p := by
  refine ⟨h.root, fun r ref place => ?_⟩
  obtain ⟨node, known, c⟩ := h.inside r ref place
  obtain ⟨node', known', same⟩ := remembers r node known
  refine ⟨node', known', ?_⟩
  unfold IsContainer at c ⊢
  rwa [same]

namespace Tidy

/-- The next id has not been drawn yet. -/
theorem ordinal_next (tidy : d.Tidy registry drawn) (room : drawn < UInt64.size) :
    d.editor.nextId.ordinal = drawn := by
  rw [tidy.next, NodeId.ordinal_mk room]

theorem next_unknown (tidy : d.Tidy registry drawn) (room : drawn < UInt64.size) (node : Node) :
    ¬ d.Known d.editor.nextId node := by
  intro known
  have below := tidy.numbered _ _ known
  rw [tidy.ordinal_next room] at below
  exact Nat.lt_irrefl _ below

theorem not_trashed (tidy : d.Tidy registry drawn) (hn : d.workflow.nodes.get? n = some node) :
    d.editor.trash.get? n = none := tidy.apart n (NodeMap.mem_ids_of_get? hn)

theorem next_not_live (tidy : d.Tidy registry drawn) (room : drawn < UInt64.size) :
    d.editor.nextId ∉ d.workflow.nodes.ids := by
  intro mem
  obtain ⟨node, h⟩ := NodeMap.mem_ids_iff.1 mem
  exact tidy.next_unknown room node (Or.inl h)

theorem next_not_trashed (tidy : d.Tidy registry drawn) (room : drawn < UInt64.size) :
    d.editor.trash.get? d.editor.nextId = none := by
  cases h : d.editor.trash.get? d.editor.nextId with
  | none => rfl
  | some e => exact absurd (Or.inr ⟨e, h, rfl⟩) (tidy.next_unknown room e.node)

/-- The next id after another one was drawn. -/
theorem next_drawn (tidy : d.Tidy registry drawn) :
    d.editor.nextId.next = ⟨1 + UInt64.ofNat (drawn + 1)⟩ := by
  rw [tidy.next, NodeId.next_mk]

/-- What has to be shown of a desk that follows a tidy one. -/
theorem follow (tidy : d.Tidy registry drawn) (le : drawn ≤ drawn')
    (id : d'.workflow.id = d.workflow.id) (fits : d'.workflow.Fits registry)
    (marker : ∀ n, d'.workflow.simulateUntil = some n → n ∈ d'.workflow.nodes.ids)
    (apart : ∀ n, n ∈ d'.workflow.nodes.ids → d'.editor.trash.get? n = none)
    (next : d'.editor.nextId = ⟨1 + UInt64.ofNat drawn'⟩) (remembers : d'.Remembers d)
    (known : ∀ n node, d'.Known n node → (∃ node, d.Known n node) ∨ n.ordinal < drawn')
    (trash : ∀ n e, d'.editor.trash.get? n = some e → d.editor.trash.get? n = some e ∨
      Housed registry d.workflow n e.node ∧
        ∀ p, e.position = some p → d.Restorable registry e.node p) :
    d'.Tidy registry drawn' := by
  refine ⟨fits, marker, apart, fun n e he => ?_, fun n e p he hp => ?_, next, fun n node h => ?_⟩
  · have housed : Housed registry d.workflow n e.node := by
      rcases trash n e he with old | ⟨housed, _⟩
      · exact tidy.trashed n e old
      · exact housed
    exact housed.of_id id
  · rcases trash n e he with old | ⟨_, restorable⟩
    · exact (tidy.restorable n e p old hp).mono remembers
    · exact (restorable p hp).mono remembers
  · rcases known n node h with ⟨node, old⟩ | new
    · exact Nat.lt_of_lt_of_le (tidy.numbered n node old) le
    · exact new

/-- The slot of a live node suits its type. -/
theorem restorable_of_position (tidy : d.Tidy registry drawn)
    (hn : d.workflow.nodes.get? n = some node) (hp : d.workflow.graph.position n = .ok p) :
    d.Restorable registry node p := by
  obtain ⟨s, rfl, mem, _⟩ := Graph.mem_occupants_of_position hp
  refine ⟨?_, fun r ref place => ?_⟩
  · rw [tidy.fits.trigger hn, Slot.reference_position]
    constructor
    · intro top
      rw [tidy.fits.tree.slot_unique mem (Graph.mem_occupants_root.2 top)]
      rfl
    · intro o
      rw [Slot.eq_root_of_owner o] at mem
      exact Graph.mem_occupants_root.1 mem
  · cases s with
    | root => cases ref
    | south m o => cases place
    | child m =>
      cases ref
      obtain ⟨node', hm, c⟩ := tidy.fits.container (List.ne_nil_of_mem mem)
      exact ⟨node', Or.inl hm, c⟩

/-- A node was planted that was not live. If it was in the trash, it no longer is. -/
theorem grown (tidy : d.Tidy registry drawn) (le : drawn ≤ drawn')
    (fits : d'.workflow.Fits registry) {g : Graph}
    (workflow : d'.workflow = { d.workflow with graph := g }.addNode node) (id : node.id = n)
    (trash : ∀ m, d'.editor.trash.get? m = if n = m then none else d.editor.trash.get? m)
    (next : d'.editor.nextId = ⟨1 + UInt64.ofNat drawn'⟩) (number : n.ordinal < drawn')
    (new : n ∉ d.workflow.nodes.ids)
    (from_trash : ∀ e, d.editor.trash.get? n = some e → e.node = node) :
    d'.Tidy registry drawn' := by
  have nodes : ∀ m, d'.workflow.nodes.get? m =
      if n = m then some node else d.workflow.nodes.get? m := by
    rw [workflow]
    exact Workflow.get?_addNode id _
  have live := NodeMap.mem_ids_of_insert nodes
  refine tidy.follow le (by rw [workflow]; rfl) fits ?_ ?_ next ?_ ?_ ?_
  · intro m hm
    rw [workflow] at hm
    exact (live m).2 (Or.inr (tidy.marker m hm))
  · intro m hm
    rw [trash m]
    by_cases e : n = m
    · rw [if_pos e]
    · rw [if_neg e]
      exact tidy.apart m (((live m).1 hm).resolve_left (Ne.symm e))
  · rintro m node' (hm | ⟨e, hm, rfl⟩)
    · have ne : n ≠ m := fun e => new (e ▸ NodeMap.mem_ids_of_get? hm)
      exact ⟨node', Or.inl (by rw [nodes m, if_neg ne, hm]), rfl⟩
    · by_cases same : n = m
      · subst same
        exact ⟨node, Or.inl (by rw [nodes, if_pos rfl]), by rw [from_trash e hm]⟩
      · exact ⟨e.node, Or.inr ⟨e, by rw [trash m, if_neg same, hm], rfl⟩, rfl⟩
  · rintro m node' (hm | ⟨e, hm, rfl⟩)
    · rw [nodes m] at hm
      split at hm
      · next same => exact Or.inr (same ▸ number)
      · exact Or.inl ⟨node', Or.inl hm⟩
    · rw [trash m] at hm
      split at hm
      · cases hm
      · exact Or.inl ⟨e.node, Or.inr ⟨e, hm, rfl⟩⟩
  · intro m e hm
    rw [trash m] at hm
    split at hm
    · cases hm
    · exact Or.inl hm

/-- A new node was planted. -/
theorem grown_fresh (tidy : d.Tidy registry drawn) (room : drawn < UInt64.size)
    (fits : d'.workflow.Fits registry) {g : Graph}
    (workflow : d'.workflow = { d.workflow with graph := g }.addNode node)
    (id : node.id = d.editor.nextId) (trash : d'.editor.trash = d.editor.trash)
    (next : d'.editor.nextId = d.editor.nextId.next) : d'.Tidy registry (drawn + 1) := by
  have off := tidy.next_not_trashed room
  refine tidy.grown (Nat.le_succ _) fits workflow id (fun m => ?_) (next.trans tidy.next_drawn) ?_
    (tidy.next_not_live room) (fun e he => ?_)
  · rw [trash]
    split
    · next same => rw [← same, off]
    · rfl
  · rw [tidy.ordinal_next room]
    exact Nat.lt_succ_self _
  · rw [off] at he
    cases he

/-- The desk after an id was drawn. -/
theorem drawn_tidy (tidy : d.Tidy registry drawn) : d.drawn.Tidy registry (drawn + 1) :=
  tidy.follow (Nat.le_succ _) rfl tidy.fits tidy.marker tidy.apart tidy.next_drawn
    (fun _ node known => ⟨node, known, rfl⟩) (fun _ node known => Or.inl ⟨node, known⟩)
    (fun _ _ he => Or.inl he)

theorem of_idle (tidy : d.Tidy registry drawn) (idle : Idle d d') :
    ∃ k, drawn ≤ k ∧ k ≤ drawn + 1 ∧ d'.Tidy registry k := by
  rcases idle with rfl | rfl
  · exact ⟨drawn, Nat.le_refl _, Nat.le_succ _, tidy⟩
  · exact ⟨drawn + 1, Nat.le_succ _, Nat.le_refl _, tidy.drawn_tidy⟩

/-- A node gave way to another one that was not live. It is in the trash now, and the other one
is no longer, if it was. -/
theorem swapped (tidy : d.Tidy registry drawn) (le : drawn ≤ drawn') {old new : Node}
    {m : NodeId} {e : TrashEntry} (id : d'.workflow.id = d.workflow.id)
    (fits : d'.workflow.Fits registry)
    (nodes : ∀ k, d'.workflow.nodes.get? k =
      if m = k then some new else if n = k then none else d.workflow.nodes.get? k)
    (trash : ∀ k, d'.editor.trash.get? k =
      if m = k then none else if n = k then some e else d.editor.trash.get? k)
    (marker : ∀ k, d'.workflow.simulateUntil = some k →
      k ≠ n ∧ d.workflow.simulateUntil = some k)
    (next : d'.editor.nextId = ⟨1 + UInt64.ofNat drawn'⟩) (number : m.ordinal < drawn')
    (hn : d.workflow.nodes.get? n = some old) (off : m ∉ d.workflow.nodes.ids)
    (from_trash : ∀ e, d.editor.trash.get? m = some e → e.node = new) (node : e.node = old)
    (position : ∀ p, e.position = some p → d.workflow.graph.position n = .ok p) :
    d'.Tidy registry drawn' := by
  have live : ∀ {k node'}, d.workflow.nodes.get? k = some node' → m ≠ k := by
    rintro k node' hk rfl
    exact off (NodeMap.mem_ids_of_get? hk)
  have apart := tidy.not_trashed hn
  refine tidy.follow le id fits ?_ ?_ next ?_ ?_ ?_
  · intro k hk
    obtain ⟨ne, was⟩ := marker k hk
    obtain ⟨node', hk⟩ := NodeMap.mem_ids_iff.1 (tidy.marker k was)
    exact NodeMap.mem_ids_iff.2 ⟨node', by rw [nodes k, if_neg (live hk), if_neg (Ne.symm ne), hk]⟩
  · intro k hk
    obtain ⟨node', hk⟩ := NodeMap.mem_ids_iff.1 hk
    rw [nodes k] at hk
    rw [trash k]
    split at hk
    · next same => rw [if_pos same]
    · next ne =>
      split at hk
      · cases hk
      · next ne' =>
        rw [if_neg ne, if_neg ne']
        exact tidy.not_trashed hk
  · rintro k node' (hk | ⟨e', hk, rfl⟩)
    · by_cases same : n = k
      · subst same
        rw [hn] at hk
        cases hk
        exact ⟨e.node, Or.inr ⟨e, by rw [trash, if_neg (live hn), if_pos rfl], rfl⟩, by rw [node]⟩
      · exact ⟨node', Or.inl (by rw [nodes k, if_neg (live hk), if_neg same, hk]), rfl⟩
    · by_cases same : m = k
      · subst same
        exact ⟨new, Or.inl (by rw [nodes, if_pos rfl]), by rw [from_trash e' hk]⟩
      · have ne : n ≠ k := by
          rintro rfl
          rw [apart] at hk
          cases hk
        exact ⟨e'.node, Or.inr ⟨e', by rw [trash k, if_neg same, if_neg ne, hk], rfl⟩, rfl⟩
  · rintro k node' (hk | ⟨e', hk, rfl⟩)
    · rw [nodes k] at hk
      split at hk
      · next same => exact Or.inr (same ▸ number)
      · split at hk
        · cases hk
        · exact Or.inl ⟨node', Or.inl hk⟩
    · rw [trash k] at hk
      split at hk
      · cases hk
      · split at hk
        · next same => exact Or.inl ⟨old, Or.inl (same ▸ hn)⟩
        · exact Or.inl ⟨e'.node, Or.inr ⟨e', hk, rfl⟩⟩
  · intro k e' hk
    rw [trash k] at hk
    split at hk
    · cases hk
    · split at hk
      · next same =>
        cases hk
        subst same
        rw [node]
        exact Or.inr ⟨tidy.fits.housed hn, fun p hp =>
          tidy.restorable_of_position hn (position p hp)⟩
      · exact Or.inl hk

/-- The workflow changed, but neither which nodes are known nor their types. -/
theorem reworked (tidy : d.Tidy registry drawn) (id : d'.workflow.id = d.workflow.id)
    (fits : d'.workflow.Fits registry) (trash : d'.editor.trash = d.editor.trash)
    (next : d'.editor.nextId = d.editor.nextId)
    (marker : ∀ k, d'.workflow.simulateUntil = some k → k ∈ d.workflow.nodes.ids)
    (live : ∀ k, k ∈ d'.workflow.nodes.ids ↔ k ∈ d.workflow.nodes.ids)
    (types : ∀ k node, d.workflow.nodes.get? k = some node →
      ∃ node', d'.workflow.nodes.get? k = some node' ∧ node'.typeName = node.typeName) :
    d'.Tidy registry drawn := by
  refine tidy.follow (Nat.le_refl _) id fits (fun k hk => (live k).2 (marker k hk)) ?_
    (next.trans tidy.next) ?_ ?_ ?_
  · intro k hk
    rw [trash]
    exact tidy.apart k ((live k).1 hk)
  · rintro k node (hk | ⟨e, hk, rfl⟩)
    · obtain ⟨node', hk', same⟩ := types k node hk
      exact ⟨node', Or.inl hk', same⟩
    · exact ⟨e.node, Or.inr ⟨e, by rw [trash, hk], rfl⟩, rfl⟩
  · rintro k node (hk | ⟨e, hk, rfl⟩)
    · obtain ⟨node', hk'⟩ := NodeMap.mem_ids_iff.1 ((live k).1 (NodeMap.mem_ids_of_get? hk))
      exact Or.inl ⟨node', Or.inl hk'⟩
    · exact Or.inl ⟨e.node, Or.inr ⟨e, by rw [← trash, hk], rfl⟩⟩
  · intro k e hk
    exact Or.inl (by rw [← trash, hk])

end Tidy

end Desk

end Autoflow
