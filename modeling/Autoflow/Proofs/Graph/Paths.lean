import Autoflow.Graph.Walks
import Autoflow.Proofs.Graph.Occupants

/-!
# Paths of slots

A path of slots leads down from a node to another one if each of its slots belongs to the node
at hand and the next node is the first one in the slot. The search of a graph gives such paths
from the root (`leads_of_previousPositions`). In a tree the nodes on one are those above its end
(`mem_nodes_iff`), and of all that stands beside a node on the path only the next node is above
the end (`Leads.eq_next`).
-/

namespace Autoflow

/-- The nodes on the way to a node along a path of slots, and that node. -/
def Position.nodes (path : List Position) (last : NodeId) : List NodeId :=
  path.filterMap Position.reference ++ [last]

namespace Layout

/-- A path of slots leads from a node down to another one, by the first node in each slot. -/
inductive Leads (L : Layout) (last : NodeId) : NodeId → List Position → Prop
  | here : Leads L last last []
  | down {n next : NodeId} {p : Position} {path : List Position} (owner : p.reference = some n)
      (head : (L p.slot).head? = some next) (rest : Leads L last next path) :
      Leads L last n (p :: path)

variable {L : Layout} {D : Set NodeId} {last n next x : NodeId} {p : Position}
  {path : List Position}

theorem edge_of_head (owner : p.reference = some n) (head : (L p.slot).head? = some next) :
    L.Edge n next :=
  .of_mem (List.mem_of_head? head) (by rw [Position.owner_slot, owner])

namespace Leads

theorem snoc (h : L.Leads last n path) (owner : p.reference = some last)
    (head : (L p.slot).head? = some next) : L.Leads next n (path ++ [p]) := by
  induction h with
  | here => exact .down owner head .here
  | down owner' head' _ ih => exact .down owner' head' ih

theorem reach (h : L.Leads last n path) : L.Reach n last := by
  induction h with
  | here => exact .refl
  | down owner head _ ih => exact .head (edge_of_head owner head) ih

theorem nodes_cons (owner : p.reference = some n) :
    Position.nodes (p :: path) last = n :: Position.nodes path last := by
  simp [Position.nodes, owner]

theorem mem_nodes (h : L.Leads last n path) : n ∈ Position.nodes path last := by
  cases h with
  | here => exact List.mem_singleton_self _
  | down owner _ _ =>
    rw [nodes_cons owner]
    exact List.mem_cons_self

/-- In a tree the node before the last one is another one. -/
theorem ne_last (tree : L.IsTree D) (h : L.Leads last n (p :: path)) : n ≠ last := by
  rintro rfl
  cases h with
  | down owner head rest =>
    exact tree.not_reach_of_edge (edge_of_head owner head) rest.reach

/-- What stands in a slot of a node on the path and is above the end is the next node, in the
slot that is next on the path. -/
theorem eq_next (tree : L.IsTree D) (owner : p.reference = some n)
    (head : (L p.slot).head? = some next) (rest : L.Leads last next path) {s : Slot}
    (owned : s.owner? = some n) (mem : x ∈ L s) (above : L.Reach x last) :
    x = next ∧ s = p.slot := by
  have e := tree.eq_of_reach (.of_mem mem owned) (edge_of_head owner head) above rest.reach
  subst e
  exact ⟨rfl, tree.slot_unique mem (List.mem_of_head? head)⟩

/-- In a tree the nodes on a path are those between its ends. -/
theorem mem_nodes_iff (tree : L.IsTree D) (h : L.Leads last n path) :
    x ∈ Position.nodes path last ↔ L.Reach n x ∧ L.Reach x last := by
  induction h with
  | here =>
    constructor
    · intro mem
      cases List.mem_singleton.1 mem
      exact ⟨.refl, .refl⟩
    · rintro ⟨up, down⟩
      rcases Relation.ReflTransGen.cases_head up with e | ⟨y, e, r⟩
      · exact List.mem_singleton.2 e.symm
      · exact absurd (r.trans down) (tree.not_reach_of_edge e)
  | @down n next p path owner head rest ih =>
    rw [nodes_cons owner, List.mem_cons]
    have edge := edge_of_head owner head
    constructor
    · rintro (rfl | mem)
      · exact ⟨.refl, .head edge rest.reach⟩
      · exact ⟨.head edge (ih.1 mem).1, (ih.1 mem).2⟩
    · rintro ⟨up, down⟩
      rcases Relation.ReflTransGen.cases_head up with e | ⟨y, ⟨s, owned, mem⟩, r⟩
      · exact Or.inl e.symm
      · obtain ⟨rfl, _⟩ := eq_next tree owner head rest owned mem (r.trans down)
        exact Or.inr (ih.2 ⟨r, down⟩)

/-- In a tree the nodes on a path are all different. -/
theorem nodup_nodes (tree : L.IsTree D) (h : L.Leads last n path) :
    (Position.nodes path last).Nodup := by
  induction h with
  | here => exact List.nodup_singleton last
  | down owner head rest ih =>
    rw [nodes_cons owner]
    refine List.nodup_cons.2 ⟨fun mem => ?_, ih⟩
    have back := ((rest.mem_nodes_iff tree).1 mem).1
    exact tree.not_reach_of_edge (edge_of_head owner head) back

/-- In a tree the nodes on a path from the root are all nodes above its end. -/
theorem mem_nodes_iff_reach (tree : L.IsTree D) (root : n ∈ L .root) (h : L.Leads last n path) :
    x ∈ Position.nodes path last ↔ L.Reach x last := by
  rw [h.mem_nodes_iff tree]
  refine ⟨And.right, fun above => ⟨?_, above⟩⟩
  rcases tree.reach_total h.reach above with r | r
  · exact r
  · rcases Relation.ReflTransGen.cases_tail r with e | ⟨y, _, e⟩
    · rw [e]
    · exact absurd e (tree.not_edge_of_mem_root root)

end Leads

end Layout

namespace Graph

open Layout

variable {g : Graph} {n target : NodeId} {p : Position} {e : Entry}

theorem head?_of_nodeAt (h : g.nodeAt p = .ok (some n)) :
    (g.occupants p.slot).head? = some n := by
  unfold nodeAt at h
  cases owner : p.reference with
  | none =>
    rw [owner] at h
    cases place : p.placement with
    | south =>
      rw [place] at h
      have root : g.root = some n := Except.ok.inj h
      simp [Position.slot, owner, occupants_root root]
    | child =>
      rw [place] at h
      cases h
  | some r =>
    rw [owner] at h
    simp only [require] at h
    cases he : g.find? r with
    | none =>
      rw [he] at h
      cases h
    | some e =>
      rw [he] at h
      have held : (e.slot? p.placement p.output).bind List.head? = some n := Except.ok.inj h
      rw [Position.slot, owner]
      simp only [occupants_beside, he, Option.bind_some]
      cases hs : e.slot? p.placement p.output with
      | none => simp [hs] at held
      | some l => simpa [hs] using held

theorem reference_of_mem_positions {q : Position} (h : q ∈ e.positions n) :
    q.reference = some n := by
  unfold Entry.positions at h
  rcases List.mem_append.1 h with h | h
  · cases hn : e.next with
    | none => simp [hn] at h
    | some outputs =>
      rw [hn] at h
      obtain ⟨_, _, rfl⟩ := List.mem_map.1 h
      rfl
  · split at h
    · rw [List.mem_singleton.1 h]
      rfl
    · cases h

/-- The search gives a path if the paths on its stack lead to their slots. -/
theorem leads_of_findPath {root : NodeId} {visited : List NodeId}
    {stack : List (Position × List Position)} {path : List Position}
    (leads : ∀ item ∈ stack, ∀ n, g.nodeAt item.1 = .ok (some n) →
      g.occupants.Leads n root item.2)
    (found : g.findPath target visited stack = some path) :
    g.occupants.Leads target root path := by
  fun_induction findPath g target visited stack with
  | case1 => cases found
  | case2 visited p path' stack held =>
    cases found
    exact leads _ List.mem_cons_self target held
  | case3 visited p path' stack n held other seen ih =>
    exact ih (fun item mem => leads item (List.mem_cons_of_mem _ mem)) found
  | case4 visited p path' stack n held other new none ih =>
    exact ih (fun item mem => leads item (List.mem_cons_of_mem _ mem)) found
  | case5 visited p path' stack n held other new e he ih =>
    refine ih (fun item mem m at_item => ?_) found
    rcases List.mem_append.1 mem with mem | mem
    · obtain ⟨q, hq, rfl⟩ := List.mem_map.1 mem
      have above := leads _ List.mem_cons_self n held
      exact above.snoc (reference_of_mem_positions hq) (head?_of_nodeAt at_item)
    · exact leads item (List.mem_cons_of_mem _ mem) m at_item
  | case6 visited p path' stack other ih =>
    exact ih (fun item mem => leads item (List.mem_cons_of_mem _ mem)) found

/-- The search ends with the path of a slot that holds the target. -/
theorem findPath_hit {visited : List NodeId} {stack : List (Position × List Position)}
    {path : List Position} (held : g.nodeAt p = .ok (some target)) :
    g.findPath target visited ((p, path) :: stack) = some path := by
  rw [findPath, held]
  simp

/-- The search goes on with the slots of a node that it has not met. -/
theorem findPath_down {visited : List NodeId} {stack : List (Position × List Position)}
    {path : List Position} (held : g.nodeAt p = .ok (some n)) (ne : n ≠ target)
    (new : n ∉ visited) (he : g.find? n = some e) :
    g.findPath target visited ((p, path) :: stack) = g.findPath target (n :: visited)
      ((e.positions n).map (fun q => (q, path ++ [q])) ++ stack) := by
  rw [findPath, held]
  simp only [ne, new, if_false, dif_neg, not_false_eq_true]
  split
  · next missing =>
    rw [he] at missing
    cases missing
  · next e' he' =>
    rw [he] at he'
    cases he'
    rfl

/-- The path found for a node leads there from the root. -/
theorem leads_of_previousPositions {path : List Position}
    (found : g.previousPositions target = some path) :
    ∃ root, g.root = some root ∧ g.occupants.Leads target root path := by
  cases root : g.root with
  | none =>
    have empty : g.nodeAt .root = .ok none := by simp [nodeAt, Position.root, root]
    simp [previousPositions, findPath, empty] at found
  | some r =>
    refine ⟨r, rfl, leads_of_findPath (fun item mem n held => ?_) found⟩
    cases List.mem_singleton.1 mem
    have first : n = r := by
      simpa [nodeAt, Position.root, root, eq_comm] using held
    rw [first]
    exact .here

end Graph

end Autoflow
