import Autoflow.Proofs.Editing.Fit
import Autoflow.Proofs.Graph.Reversal
import Autoflow.Proofs.Service.Scripts

/-!
# Changes between neat workflows

A workflow is neat if it fits, no slot holds two nodes, every output that leads somewhere is
exposed and all services are scripted. An edit that succeeds changes a workflow in one of four
ways: a node is planted or, read backwards, taken out (`Planted`), one node stands in for
another (`Swapped`), a node gets other values (`Updated`) or stands elsewhere (`Moved`). Each
says of the two workflows all that it takes to go from the one to the other and back, and each
goes from a neat workflow to a neat one.
-/

namespace Autoflow

namespace Workflow

/-- A live node has an output. -/
def Exposes (w : Workflow) (n : NodeId) (o : String) : Prop :=
  ∃ node, w.nodes.get? n = some node ∧ node.hasOutput o = true

/-- A workflow that fits, with at most one node in each slot and only exposed outputs in use. -/
structure Neat (registry : Registry) (w : Workflow) : Prop extends Fits registry w where
  single : w.graph.occupants.Single
  exposed : ∀ {n o}, w.graph.occupants (.south n o) ≠ [] → w.Exposes n o
  scripted : ∀ {n node}, w.nodes.get? n = some node → node.service.IsScripted

/-- Two workflows have the same layout and the same live nodes. -/
structure Matches (w w' : Workflow) : Prop where
  id : w.id = w'.id
  layout : w.graph.occupants = w'.graph.occupants
  nodes : w.nodes = w'.nodes

/-- The second workflow has one more node in a slot. -/
structure Planted (n : NodeId) (s : Slot) (node : Node) (w w' : Workflow) : Prop where
  id : w'.id = w.id
  new : w.nodes.get? n = none
  nodes : ∀ m, w'.nodes.get? m = if n = m then some node else w.nodes.get? m
  layout : w'.graph.occupants = w.graph.occupants.plant s n
  /-- Only the first node is planted at the root. -/
  first : s = .root → w.graph.occupants .root = []

/-- In the second workflow one node stands in the place of another. -/
structure Swapped (n m : NodeId) (old new : Node) (w w' : Workflow) : Prop where
  id : w'.id = w.id
  live : w.nodes.get? n = some old
  off : w.nodes.get? m = none
  nodes : ∀ k, w'.nodes.get? k =
    if m = k then some new else if n = k then none else w.nodes.get? k
  layout : w'.graph.occupants = w.graph.occupants.relabel (Equiv.swap n m)
  bare : w.graph.occupants (.child n) = []

/-- In the second workflow a node has another label and another service. -/
structure Updated (n : NodeId) (old new : Node) (w w' : Workflow) : Prop where
  id : w'.id = w.id
  live : w.nodes.get? n = some old
  nodes : ∀ k, w'.nodes.get? k = if n = k then some new else w.nodes.get? k
  layout : w'.graph.occupants = w.graph.occupants
  same : new = { old with label := new.label, service := new.service }

/-- A position names a slot of another live node that exposes it. -/
structure Open (registry : Registry) (w : Workflow) (n : NodeId) (p : Position) : Prop where
  outlet : ∃ r reference, p.reference = some r ∧ r ≠ n ∧ w.nodes.get? r = some reference ∧
    reference.hasOutput p.output = true ∧ (p.placement = .child → IsContainer registry reference)

/-- In the second workflow a node stands in another slot. -/
structure Moved (registry : Registry) (n : NodeId) (p q : Position) (w w' : Workflow) : Prop where
  id : w'.id = w.id
  nodes : w'.nodes = w.nodes
  layout : ∃ K : Layout, K.Vacant n ∧ w.graph.occupants = K.plant p.slot n ∧
    w'.graph.occupants = K.plant q.slot n
  origin : w.Open registry n p
  destination : w.Open registry n q

variable {registry : Registry} {w w' w'' : Workflow} {n m r : NodeId} {node old new : Node}
  {s : Slot} {p q : Position} {o : String}

namespace Matches

/-- Matching compares everything but the order in which entries and outputs are stored, -/
theorem refl (w : Workflow) : w.Matches w := ⟨rfl, rfl, rfl⟩

theorem symm (h : w.Matches w') : w'.Matches w := ⟨h.id.symm, h.layout.symm, h.nodes.symm⟩

/-- and it is an equivalence. -/
theorem trans (h : w.Matches w') (h' : w'.Matches w'') : w.Matches w'' :=
  ⟨h.id.trans h'.id, h.layout.trans h'.layout, h.nodes.trans h'.nodes⟩

/-- A workflow that fits is neat if it matches a neat one. -/
theorem neat (h : w.Matches w') (fits : w.Fits registry) (neat : w'.Neat registry) :
    w.Neat registry where
  toFits := fits
  single := h.layout ▸ neat.single
  exposed := by
    intro n o held
    unfold Exposes
    rw [h.nodes]
    rw [h.layout] at held
    exact neat.exposed held
  scripted hn := neat.scripted (h.nodes ▸ hn)

end Matches

/-- A node that is not live has no entry, since all entries are of live nodes. -/
theorem Fits.not_mem_graph (fits : w.Fits registry) (off : w.nodes.get? n = none) :
    n ∉ w.graph.ids := by
  rw [fits.ids n]
  exact NodeMap.get?_eq_none_iff.1 off

/-- Nothing stands for a node that is not live. -/
theorem Fits.vacant (fits : w.Fits registry) (off : w.nodes.get? n = none) :
    w.graph.occupants.Vacant n where
  out _ mem := fits.not_mem_graph off (fits.tree.mem mem)
  free _ := Graph.occupants_eq_nil (fits.not_mem_graph off) rfl

/-- Every live node of a neat workflow has the default output. -/
theorem Neat.default (neat : w.Neat registry) (hn : w.nodes.get? n = some node) :
    node.hasOutput "" = true := (neat.scripted hn).hasOutput_default

/-- The owner of a slot that is in use exposes it. -/
theorem Neat.outlet (neat : w.Neat registry) (hn : n ∈ w.graph.occupants s)
    (owner : s.owner? = some r) : ∃ reference, w.nodes.get? r = some reference ∧
      reference.hasOutput s.position.output = true ∧
      (s.position.placement = .child → IsContainer registry reference) := by
  cases s with
  | root => cases owner
  | south m o =>
    cases owner
    obtain ⟨reference, live, out⟩ := neat.exposed (List.ne_nil_of_mem hn)
    exact ⟨reference, live, out, nofun⟩
  | child m =>
    cases owner
    obtain ⟨reference, live, container⟩ := neat.container (List.ne_nil_of_mem hn)
    exact ⟨reference, live, neat.default live, fun _ => container⟩

/-! ## Planting and taking out -/

namespace Planted

/-- The new node stands in the slot. -/
theorem mem (h : Planted n s node w w') : n ∈ w'.graph.occupants s := by
  rw [h.layout]
  exact Layout.mem_plant_self _ s n

/-- It is live. -/
theorem live (h : Planted n s node w w') : w'.nodes.get? n = some node := by
  rw [h.nodes n, if_pos rfl]

/-- Other nodes are as they were. -/
theorem other (h : Planted n s node w w') (ne : n ≠ m) : w'.nodes.get? m = w.nodes.get? m := by
  rw [h.nodes m, if_neg ne]

/-- It does not stand in one of its own slots. -/
theorem own (h : Planted n s node w w') (fits' : w'.Fits registry) : s.owner? ≠ some n :=
  fits'.tree.owner_ne h.mem

/-- A neat workflow with one more node is neat if the slot is exposed. -/
theorem neat (h : Planted n s node w w') (neat : w.Neat registry) (fits' : w'.Fits registry)
    (script : node.service.IsScripted) (outlet : ∀ r o, s = .south r o → w.Exposes r o) :
    w'.Neat registry := by
  have own := h.own fits'
  have before : ∀ {m node'}, w.nodes.get? m = some node' → w'.nodes.get? m = some node' := by
    intro m node' hm
    rw [h.other, hm]
    rintro rfl
    rw [h.new] at hm
    cases hm
  refine ⟨fits', h.layout ▸ neat.single.plant, fun {m o} held => ?_, fun {m node'} hm => ?_⟩
  · rw [h.layout] at held
    have old : w.Exposes m o → w'.Exposes m o := fun ⟨node', hm, out⟩ => ⟨node', before hm, out⟩
    rcases Layout.plant_in_use own held with here | ⟨rfl, rfl⟩ | ⟨_, used⟩
    · exact old (outlet m o here.symm)
    · exact ⟨node, h.live, script.hasOutput_default⟩
    · exact old (neat.exposed used)
  · rw [h.nodes m] at hm
    split at hm
    · cases hm
      exact script
    · exact neat.scripted hm

/-- A neat workflow with one node less is neat. -/
theorem neat_of_neat (h : Planted n s node w w') (neat : w'.Neat registry)
    (fits : w.Fits registry) : w.Neat registry := by
  have own := h.own neat.toFits
  have off : ∀ {t}, t.owner? = some n → w.graph.occupants t = [] := fun o =>
    Graph.occupants_eq_nil (fits.not_mem_graph h.new) o
  have still : ∀ {m node'}, w.nodes.get? m = some node' → n ≠ m := by
    rintro m node' hm rfl
    rw [h.new] at hm
    cases hm
  refine ⟨fits, fun t => ?_, fun {m o} held => ?_, fun {m node'} hm => ?_⟩
  · by_cases here : t = s
    · rw [here, ← Layout.plant_default (L := w.graph.occupants) own, ← h.layout]
      exact neat.single _
    · by_cases mine : t.owner? = some n
      · rw [off mine]
        exact Nat.zero_le 1
      · rw [← Layout.plant_of_owner_ne (L := w.graph.occupants) here mine, ← h.layout]
        exact neat.single _
  · have ne : n ≠ m := by
      rintro rfl
      exact held (off rfl)
    have used : w'.graph.occupants (.south m o) ≠ [] := by
      rw [h.layout]
      by_cases here : Slot.south m o = s
      · rw [here, Layout.plant_self]
        exact List.cons_ne_nil _ _
      · rwa [Layout.plant_of_owner_ne here fun e => ne (Option.some.inj e).symm]
    obtain ⟨node', hm, out⟩ := neat.exposed used
    exact ⟨node', (h.other ne).symm.trans hm, out⟩
  · exact neat.scripted ((h.other (still hm)).trans hm)

end Planted

/-! ## Standing in -/

namespace Swapped

/-- A live node is never replaced by itself. -/
theorem ne (h : Swapped n m old new w w') : n ≠ m := by
  rintro rfl
  have live := h.live
  rw [h.off] at live
  cases live

/-- A swap is undone by the swap back. -/
theorem symm (h : Swapped n m old new w w') : Swapped m n new old w' w where
  id := h.id.symm
  live := by rw [h.nodes, if_pos rfl]
  off := by rw [h.nodes, if_neg (Ne.symm h.ne), if_pos rfl]
  nodes k := by
    rw [h.nodes]
    by_cases e : n = k
    · subst e
      rw [if_pos rfl, h.live]
    · rw [if_neg e]
      by_cases e' : m = k
      · subst e'
        rw [if_pos rfl, h.off]
      · rw [if_neg e', if_neg e', if_neg e]
  layout := by rw [h.layout, Layout.relabel_relabel]
  bare := by
    rw [h.layout]
    simp [Layout.relabel, Slot.rename, h.bare]

/-- A swapped workflow is neat if the new node needs none of the outputs that the old one had. -/
theorem neat (h : Swapped n m old new w w') (neat : w.Neat registry) (fits' : w'.Fits registry)
    (script : new.service.IsScripted)
    (default : ∀ o, o ≠ "" → w.graph.occupants (.south n o) = []) : w'.Neat registry := by
  refine ⟨fits', h.layout ▸ neat.single.relabel _, fun {k o} held => ?_, fun {k node} hk => ?_⟩
  · have before : w.graph.occupants (.south (Equiv.swap n m k) o) ≠ [] :=
      Layout.relabel_in_use.1 (h.layout ▸ held)
    by_cases e : m = k
    · subst e
      rw [Equiv.swap_apply_right] at before
      have branch : o = "" := by
        by_contra branch
        exact before (default o branch)
      subst branch
      exact ⟨new, by rw [h.nodes, if_pos rfl], script.hasOutput_default⟩
    · by_cases e' : n = k
      · subst e'
        rw [Equiv.swap_apply_left] at before
        exact absurd ((neat.vacant h.off).free o) before
      · rw [Equiv.swap_apply_of_ne_of_ne (Ne.symm e') (Ne.symm e)] at before
        obtain ⟨node, hk, out⟩ := neat.exposed before
        exact ⟨node, by rw [h.nodes, if_neg e, if_neg e', hk], out⟩
  · rw [h.nodes] at hk
    split at hk
    · cases hk
      exact script
    · split at hk
      · cases hk
      · exact neat.scripted hk

end Swapped

/-! ## Other values -/

namespace Updated

/-- An update is undone by the update back. -/
theorem symm (h : Updated n old new w w') : Updated n new old w' w where
  id := h.id.symm
  live := by rw [h.nodes, if_pos rfl]
  nodes k := by
    rw [h.nodes]
    by_cases e : n = k
    · subst e
      rw [if_pos rfl, h.live]
    · rw [if_neg e, if_neg e]
  layout := h.layout.symm
  same := by rw [h.same]

/-- An updated workflow is neat if the update keeps the outputs in use. -/
theorem neat (h : Updated n old new w w') (neat : w.Neat registry) (fits' : w'.Fits registry)
    (script : new.service.IsScripted)
    (keeps : ∀ o, w.graph.occupants (.south n o) ≠ [] → new.hasOutput o = true) :
    w'.Neat registry := by
  refine ⟨fits', h.layout ▸ neat.single, fun {k o} held => ?_, fun {k node} hk => ?_⟩
  · rw [h.layout] at held
    by_cases e : n = k
    · subst e
      exact ⟨new, by rw [h.nodes, if_pos rfl], keeps o held⟩
    · obtain ⟨node, hk, out⟩ := neat.exposed held
      exact ⟨node, by rw [h.nodes, if_neg e, hk], out⟩
  · rw [h.nodes] at hk
    split at hk
    · cases hk
      exact script
    · exact neat.scripted hk

end Updated

/-! ## Another slot -/

/-- An open slot is none of the node's own. -/
theorem Open.own (h : w.Open registry n p) : p.slot.owner? ≠ some n := by
  obtain ⟨r, _, ref, ne, _⟩ := h.outlet
  rw [p.owner_slot, ref]
  exact fun e => ne (Option.some.inj e)

namespace Moved

/-- A move is undone by the move back. -/
theorem symm (h : Moved registry n p q w w') : Moved registry n q p w' w := by
  obtain ⟨K, vacant, layout, layout'⟩ := h.layout
  refine ⟨h.id.symm, h.nodes.symm, ⟨K, vacant, layout', layout⟩, ⟨?_⟩, ⟨?_⟩⟩
  · rw [h.nodes]
    exact h.destination.outlet
  · rw [h.nodes]
    exact h.origin.outlet

/-- The node stands at the position that it comes from. -/
theorem mem (h : Moved registry n p q w w') : n ∈ w.graph.occupants p.slot := by
  obtain ⟨K, _, layout, _⟩ := h.layout
  rw [layout]
  exact K.mem_plant_self p.slot n

/-- A moved node leaves the workflow neat, since the slot it comes to is exposed. -/
theorem neat (h : Moved registry n p q w w') (neat : w.Neat registry) (fits' : w'.Fits registry) :
    w'.Neat registry := by
  obtain ⟨K, vacant, layout, layout'⟩ := h.layout
  have own := h.origin.own
  have single : K.Single := by
    intro t
    by_cases here : t = p.slot
    · rw [here, ← Layout.plant_default (L := K) own, ← layout]
      exact neat.single _
    · by_cases south : t.isSouthOf n = true
      · obtain ⟨o, rfl⟩ := Layout.south_of_isSouthOf south
        rw [vacant.free o]
        exact Nat.zero_le 1
      · rw [← Layout.plant_other (L := K) here (Bool.not_eq_true _ ▸ south), ← layout]
        exact neat.single _
  refine ⟨fits', layout' ▸ single.plant, fun {m o} held => ?_, fun {m node} hm => ?_⟩
  · have exposes : w.Exposes m o := by
      rw [layout'] at held
      rcases Layout.plant_in_use h.destination.own held with here | ⟨rfl, rfl⟩ | ⟨ne, used⟩
      · obtain ⟨ref, _, out⟩ := Position.slot_eq_south here.symm
        obtain ⟨r, reference, ref', _, live, exposed, _⟩ := h.destination.outlet
        rw [ref] at ref'
        cases ref'
        exact ⟨reference, live, out ▸ exposed⟩
      · obtain ⟨node, live⟩ := neat.exists_node (neat.tree.mem h.mem)
        exact ⟨node, live, neat.default live⟩
      · refine neat.exposed ?_
        rw [layout]
        by_cases left : Slot.south m o = p.slot
        · rw [left, Layout.plant_self]
          exact List.cons_ne_nil _ _
        · rwa [Layout.plant_of_owner_ne left fun e => ne (Option.some.inj e)]
    unfold Exposes
    rw [h.nodes]
    exact exposes
  · rw [h.nodes] at hm
    exact neat.scripted hm

end Moved

end Workflow

end Autoflow
