import Autoflow.Proofs.Graph.Search
import Autoflow.Proofs.Graph.Validation
import Mathlib.Algebra.Order.BigOperators.Group.List
import Mathlib.Algebra.Order.Group.Nat
import Mathlib.Data.List.Chain

/-!
# Trails of the search

What the search of a graph gives, a tree or not (`previousPositions_trail`). It follows the first
nodes of slots, and finds what they lead to from the root (`exists_leads_iff`). Each node that it
meets lays its slots on the stack once (`waiting_perm`), so there are no more rounds than slots
(`findPathWithin_eq`). The paths on the stack go through nodes that were met before the slot at
their end (`Tracked`), which is why none goes through a node twice.
-/

namespace Autoflow.Graph

open Layout

variable {g : Graph} {n r target : NodeId} {e : Entry} {p q : Position}
  {visited : List NodeId} {path : List Position} {stack : List (Position × List Position)}

/-! ## What is reached -/

/-- The entry of a node lists another one first, on an output or inside. -/
def Heads (g : Graph) (a b : NodeId) : Prop :=
  ∃ e, g.find? a = some e ∧ ((∃ o, (e.nextOn o).head? = some b) ∨ e.childIds.head? = some b)

/-- A node heads a slot of another one if it is the first there. -/
theorem heads_iff {a b : NodeId} :
    g.Heads a b ↔ ∃ p : Position, p.reference = some a ∧ (g.occupants p.slot).head? = some b := by
  constructor
  · rintro ⟨e, he, ⟨o, first⟩ | first⟩
    · exact ⟨.south a o, rfl, (congrArg List.head? (occupants_south he o)).trans first⟩
    · exact ⟨.child a, rfl, (congrArg List.head? (occupants_child he)).trans first⟩
  · rintro ⟨p, owner, first⟩
    rw [← Position.owner_slot] at owner
    obtain ⟨e, he⟩ := mem_ids_iff.1 (owner_mem_ids (List.mem_of_head? first) owner)
    refine ⟨e, he, ?_⟩
    cases at_p : p.slot with
    | root =>
      rw [at_p] at owner
      cases owner
    | south m o =>
      rw [at_p] at owner first
      cases owner
      exact Or.inl ⟨o, (congrArg List.head? (occupants_south he o)).symm.trans first⟩
    | child m =>
      rw [at_p] at owner first
      cases owner
      exact Or.inr ((congrArg List.head? (occupants_child he)).symm.trans first)

/-- There is a trail to a node exactly if steps to first occupants lead to it. -/
theorem exists_leads_iff : (∃ path, g.occupants.Leads target n path) ↔
    Relation.ReflTransGen g.Heads n target := by
  constructor
  · rintro ⟨path, leads⟩
    induction leads with
    | here => exact .refl
    | down owner head _ ih => exact .head (heads_iff.2 ⟨_, owner, head⟩) ih
  · intro reached
    induction reached using Relation.ReflTransGen.head_induction_on with
    | refl => exact ⟨[], .here⟩
    | head first _ ih =>
      obtain ⟨p, owner, head⟩ := heads_iff.1 first
      obtain ⟨path, leads⟩ := ih
      exact ⟨p :: path, .down owner head leads⟩

/-! ## The search ends -/

/-- The search of `findPath`, given up if there are slots on the stack after so many rounds. -/
def findPathWithin (g : Graph) (target : NodeId) :
    Nat → List NodeId → List (Position × List Position) → Option (Option (List Position))
  | _, _, [] => some none
  | 0, _, _ :: _ => none
  | rounds + 1, visited, (p, path) :: stack =>
    match g.nodeAt p with
    | .ok (some n) =>
      if n = target then some (some path)
      else if n ∈ visited then g.findPathWithin target rounds visited stack
      else
        match g.find? n with
        | none => g.findPathWithin target rounds (n :: visited) stack
        | some e =>
          g.findPathWithin target rounds (n :: visited)
            ((e.positions n).map (fun q => (q, path ++ [q])) ++ stack)
    | _ => g.findPathWithin target rounds visited stack

/-- The slots that a search has not laid on its stack yet. -/
def waiting (g : Graph) (visited : List NodeId) : List Position :=
  (g.ids.filter (· ∉ visited)).flatMap fun n => (g.find? n).elim [] (·.positions n)

/-- A node that is met has its slots taken out of those that wait. -/
theorem waiting_perm (he : g.find? n = some e) (new : n ∉ visited) :
    (g.waiting visited).Perm (e.positions n ++ g.waiting (n :: visited)) := by
  have left : n ∈ g.ids.filter (· ∉ visited) :=
    List.mem_filter.2 ⟨mem_ids_of_find? he, by simpa using new⟩
  have distinct : (g.ids.filter (· ∉ visited)).Nodup := List.Nodup.filter _ g.entries.nodup
  have rest : (g.ids.filter (· ∉ visited)).erase n = g.ids.filter (· ∉ n :: visited) := by
    rw [distinct.erase_eq_filter, List.filter_filter]
    exact List.filter_congr fun x _ => by grind
  have split := (List.perm_cons_erase left).flatMap_right
    fun n => (g.find? n).elim [] (·.positions n)
  rwa [rest, List.flatMap_cons, he] at split

/-- A node without an entry has no slots that wait. -/
theorem waiting_of_missing (missing : g.find? n = none) :
    g.waiting (n :: visited) = g.waiting visited := by
  unfold waiting
  congr 1
  refine List.filter_congr fun x known => ?_
  have other : x ≠ n := fun same => find?_eq_none_iff.1 missing (same ▸ known)
  simp [other]

/-- Each round takes a slot off the stack, and what is laid there has been waiting before. -/
theorem findPathWithin_eq_of_waiting {rounds : Nat}
    (enough : stack.length + (g.waiting visited).length ≤ rounds) :
    g.findPathWithin target rounds visited stack = some (g.findPath target visited stack) := by
  induction rounds generalizing visited stack with
  | zero =>
    have empty : stack = [] := List.length_eq_zero_iff.1 (by omega)
    rw [empty, findPathWithin, findPath]
  | succ rounds ih =>
    fun_cases findPath g target visited stack with
    | case1 => rw [findPathWithin]
    | case2 p path stack held => simp only [findPathWithin, held, if_true]
    | case3 p path stack n held other old =>
      simp only [findPathWithin, held, if_neg other, if_pos old]
      exact ih (by grind)
    | case4 p path stack n held other new missing =>
      simp only [findPathWithin, held, if_neg other, if_neg new, missing]
      exact ih (by rw [waiting_of_missing missing]; grind)
    | case5 p path stack n held other new e he =>
      have taken := (waiting_perm he new).length_eq
      simp only [findPathWithin, held, if_neg other, if_neg new, he]
      exact ih (by grind)
    | case6 p path stack free =>
      rw [findPathWithin]
      split
      · next n held => exact absurd held (free n)
      · exact ih (by grind)

theorem length_positions_le (e : Entry) (n : NodeId) : (e.positions n).length ≤
    ((e.next.elim [] OrderedMap.keys).map (Slot.south n) ++ [Slot.child n]).length := by
  unfold Entry.positions
  rw [List.length_append, List.length_append]
  refine Nat.add_le_add ?_ ?_
  · cases e.next with
    | none => exact Nat.le_refl 0
    | some outputs => simpa [OrderedMap.keys, Assoc.keys] using List.length_filter_le _ _
  · split
    · exact Nat.le_refl 1
    · exact Nat.zero_le 1

/-- The slots that wait are fewer than all slots, since that of the root never does. -/
theorem length_waiting_lt (g : Graph) : (g.waiting []).length < g.slots.length := by
  have all : g.waiting [] = g.entries.toList.flatMap fun p => p.2.positions p.1 := by
    simp only [waiting, ids, OrderedMap.keys, Assoc.keys, List.not_mem_nil, not_false_eq_true,
      decide_true, List.filter_true, List.flatMap_map]
    refine List.flatMap_congr fun p mem => ?_
    have he : g.find? p.1 = some p.2 := OrderedMap.mem_toList_iff.1 mem
    rw [he, Option.elim_some]
  rw [all, slots, List.length_cons, Nat.lt_succ_iff, List.length_flatMap, List.length_flatMap]
  exact List.sum_le_sum fun p _ => length_positions_le p.2 p.1

/-- No more rounds than there are slots are enough. -/
theorem findPathWithin_eq {rounds : Nat} (enough : g.slots.length ≤ rounds) :
    g.findPathWithin target rounds [] [(.root, [])] = some (g.previousPositions target) := by
  refine findPathWithin_eq_of_waiting (Nat.le_trans ?_ enough)
  rw [List.length_singleton, Nat.add_comm]
  exact length_waiting_lt g

/-! ## What it finds -/

/-- A path goes through nodes that were met, through each once. -/
structure Tracked (visited : List NodeId) (path : List Position) : Prop where
  met : ∀ p ∈ path, ∃ n ∈ visited, p.reference = some n
  distinct : (path.map Position.reference).Nodup

namespace Tracked

/-- A path that was tracked stays so when one more node is visited. -/
theorem later (h : Tracked visited path) (n : NodeId) : Tracked (n :: visited) path where
  met p mem := (h.met p mem).imp fun _ held => ⟨List.mem_cons_of_mem _ held.1, held.2⟩
  distinct := h.distinct

/-- A path may go on through a node that was not met before. -/
theorem snoc (h : Tracked visited path) (new : n ∉ visited) (owner : q.reference = some n) :
    Tracked (n :: visited) (path ++ [q]) where
  met p mem := by
    rcases List.mem_append.1 mem with mem | mem
    · exact (h.later n).met p mem
    · rw [List.mem_singleton.1 mem]
      exact ⟨n, List.mem_cons_self, owner⟩
  distinct := by
    rw [List.map_append, List.map_singleton, owner]
    refine List.nodup_append.2 ⟨h.distinct, List.nodup_singleton _, ?_⟩
    rintro _ on_path _ mem rfl
    obtain ⟨p, there, at_p⟩ := List.mem_map.1 on_path
    obtain ⟨m, met, at_m⟩ := h.met p there
    have same : m = n := Option.some.inj (by rw [← at_m, at_p, List.mem_singleton.1 mem])
    exact new (same ▸ met)

end Tracked

/-- The search never takes a node twice into a path. -/
theorem tracked_of_findPath (tracked : ∀ item ∈ stack, Tracked visited item.2)
    (ahead : target ∉ visited) (found : g.findPath target visited stack = some path) :
    (path.map Position.reference ++ [some target]).Nodup := by
  fun_induction findPath g target visited stack with
  | case1 => cases found
  | case2 visited p path' stack held =>
    cases found
    have here := tracked _ List.mem_cons_self
    have last := (here.snoc ahead (q := .child target) rfl).distinct
    rwa [List.map_append, List.map_singleton] at last
  | case3 visited p path' stack n held other seen ih =>
    exact ih (fun item mem => tracked item (List.mem_cons_of_mem _ mem)) ahead found
  | case4 visited p path' stack n held other new none ih =>
    refine ih (fun item mem => (tracked item (List.mem_cons_of_mem _ mem)).later n) ?_ found
    exact List.not_mem_cons_of_ne_of_not_mem (Ne.symm other) ahead
  | case5 visited p path' stack n held other new e he ih =>
    refine ih (fun item mem => ?_) ?_ found
    · rcases List.mem_append.1 mem with mem | mem
      · obtain ⟨q, hq, rfl⟩ := List.mem_map.1 mem
        exact (tracked _ List.mem_cons_self).snoc new (reference_of_mem_positions hq)
      · exact (tracked item (List.mem_cons_of_mem _ mem)).later n
    · exact List.not_mem_cons_of_ne_of_not_mem (Ne.symm other) ahead
  | case6 visited p path' stack other ih =>
    exact ih (fun item mem => tracked item (List.mem_cons_of_mem _ mem)) ahead found

/-- A path of slots from the root to a node. It starts at the root, each slot on it belongs to the
node that stands first in the slot before, and the node at its end stands first in the last one.
None of its nodes comes twice. -/
structure Trail (g : Graph) (target : NodeId) (path : List Position) : Prop where
  empty : path = [] ↔ g.root = some target
  start : ∀ p ∈ path.head?, ∃ r, g.root = some r ∧ p.reference = some r
  linked : path.IsChain fun p q => ∃ n, g.nodeAt p = .ok (some n) ∧ q.reference = some n
  last : ∀ p ∈ path.getLast?, g.nodeAt p = .ok (some target)
  distinct : (path.map Position.reference ++ [some target]).Nodup

/-- A path starts at the node it leads from, -/
theorem head_of_leads (h : g.occupants.Leads target n path) :
    ∀ p ∈ path.head?, p.reference = some n := by
  cases h with
  | here => nofun
  | down owner _ _ =>
    rintro p ⟨⟩
    exact owner

/-- each position is one of the node at the position before it, -/
theorem linked_of_leads (h : g.occupants.Leads target n path) :
    path.IsChain fun p q => ∃ n, g.nodeAt p = .ok (some n) ∧ q.reference = some n := by
  induction h with
  | here => exact .nil
  | down owner head rest ih =>
    refine List.isChain_cons.2 ⟨fun q first => ?_, ih⟩
    exact ⟨_, nodeAt_of_head owner head, head_of_leads rest q first⟩

/-- and the last one is that of the target. -/
theorem last_of_leads (h : g.occupants.Leads target n path) :
    ∀ p ∈ path.getLast?, g.nodeAt p = .ok (some target) := by
  induction h with
  | here => nofun
  | @down n next p path owner head rest ih =>
    cases rest with
    | here =>
      rintro q ⟨⟩
      exact nodeAt_of_head owner head
    | down _ _ _ => rwa [List.getLast?_cons_cons]

/-- A path that is found is a trail. -/
theorem trail_of_previousPositions (found : g.previousPositions target = some path) :
    g.Trail target path := by
  obtain ⟨r, root, leads⟩ := leads_of_previousPositions found
  have distinct : (path.map Position.reference ++ [some target]).Nodup := by
    refine tracked_of_findPath (fun item mem => ?_) List.not_mem_nil found
    rw [List.mem_singleton.1 mem]
    exact ⟨nofun, List.nodup_nil⟩
  refine ⟨?_, fun p first => ⟨r, root, head_of_leads leads p first⟩, linked_of_leads leads,
    last_of_leads leads, distinct⟩
  rw [root, Option.some.injEq]
  cases leads with
  | here => simp
  | down owner _ _ =>
    -- the first slot belongs to the root, and the node at the end owns none
    have apart : r ≠ target := by
      rintro rfl
      simp [owner] at distinct
    simp [apart]

/-- The search of any graph ends, and finds a node exactly if the first nodes of slots lead to it
from the root. What it finds is a trail. -/
theorem previousPositions_trail (g : Graph) (target : NodeId) :
    (∀ rounds, g.slots.length ≤ rounds →
      g.findPathWithin target rounds [] [(.root, [])] = some (g.previousPositions target)) ∧
    ((g.previousPositions target).isSome ↔
      ∃ r, g.root = some r ∧ Relation.ReflTransGen g.Heads r target) ∧
    ∀ path, g.previousPositions target = some path → g.Trail target path := by
  refine ⟨fun rounds enough => findPathWithin_eq enough, ?_, fun path found =>
    trail_of_previousPositions found⟩
  rw [isSome_previousPositions_iff]
  refine exists_congr fun r => ?_
  rw [exists_and_left, exists_leads_iff]

end Autoflow.Graph
