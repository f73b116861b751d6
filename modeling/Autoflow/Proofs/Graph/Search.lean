import Autoflow.Proofs.Graph.Paths

/-!
# What the search of a graph finds

The search follows the first node of every slot (`exists_missed`), so it finds a node exactly
if slots lead to it from the root, each by its first node (`isSome_previousPositions_iff`). The
validation of a graph follows all nodes of a slot. In a valid graph the two differ by the nodes
that stand behind another one in their slot, and by all that hangs from those
(`IsTree.led_iff`): where every slot holds at most one node, everything is found
(`IsTree.led_of_single`).
-/

namespace Autoflow

namespace Layout

variable {L : Layout} {D : Set NodeId} {last n x : NodeId} {path : List Position}

/-- A node stands first in a slot. -/
def First (L : Layout) (x : NodeId) : Prop := ∃ s, (L s).head? = some x

/-- A node and all nodes above it stand first in their slots. -/
def Led (L : Layout) (n : NodeId) : Prop := ∀ x, L.Reach x n → L.First x

theorem Led.of_reach (h : L.Led n) (r : L.Reach x n) : L.Led x := fun y r' => h y (r'.trans r)

/-- The nodes on a path of slots stand first in their slots if the node at its start does. -/
theorem Leads.first (h : L.Leads last n path) (start : L.First n) :
    ∀ x ∈ Position.nodes path last, L.First x := by
  induction h with
  | here =>
    intro x mem
    rw [List.mem_singleton.1 mem]
    exact start
  | down owner head _ ih =>
    rw [nodes_cons owner]
    exact List.forall_mem_cons.2 ⟨start, ih ⟨_, head⟩⟩

theorem Leads.led (tree : L.IsTree D) (h : L.Leads last n path) (root : n ∈ L .root)
    (start : L.First n) : L.Led last := fun x above =>
  h.first start x ((h.mem_nodes_iff_reach tree root).2 above)

end Layout

namespace Graph

open Layout

variable {g : Graph} {n x next target : NodeId} {p : Position} {e : Entry} {s : Slot}

/-! ## The search -/

theorem nodeAt_of_head (owner : p.reference = some n)
    (head : (g.occupants p.slot).head? = some next) : g.nodeAt p = .ok (some next) := by
  rw [Position.slot, owner] at head
  obtain ⟨e, he⟩ := mem_ids_iff.1
    (owner_mem_ids (List.mem_of_head? head) (Slot.owner_beside n p.placement p.output))
  have known : g.require n = .ok e := by simp [require, he]
  simp only [nodeAt, owner, known, bind, Except.bind, pure, Except.pure]
  simp only [occupants_beside, he, Option.bind_some] at head
  cases at_slot : e.slot? p.placement p.output with
  | none => simp [at_slot] at head
  | some l => simpa [at_slot] using head

/-- The slots of an entry that hold something are listed. -/
theorem mem_positions_of_mem (he : g.find? n = some e) (owner : s.owner? = some n)
    (mem : x ∈ g.occupants s) : s.position ∈ e.positions n := by
  unfold Entry.positions
  cases s with
  | root => cases owner
  | south m output =>
    cases owner
    rw [occupants_south he] at mem
    refine List.mem_append_left _ ?_
    cases outputs : e.next with
    | none => simp [Entry.nextOn, outputs] at mem
    | some o =>
      cases at_output : o.get? output with
      | none => simp [Entry.nextOn, outputs, at_output] at mem
      | some l =>
        have held : x ∈ l := by simpa [Entry.nextOn, outputs, at_output] using mem
        have filled : l ≠ [] := List.ne_nil_of_mem held
        refine List.mem_map.2 ⟨(output, l), List.mem_filter.2 ⟨?_, by simpa using filled⟩, rfl⟩
        exact OrderedMap.mem_of_get? at_output
  | child m =>
    cases owner
    rw [occupants_child he] at mem
    have filled : e.hasChildren = true := by simp [Entry.hasChildren, List.ne_nil_of_mem mem]
    refine List.mem_append_right _ ?_
    rw [if_pos filled]
    exact List.mem_singleton_self _

/-- The first nodes in the slots of a node are all in a set. -/
def FirstIn (g : Graph) (seen : NodeId → Prop) (x : NodeId) : Prop :=
  ∀ (p : Position) (next : NodeId), p.reference = some x →
    (g.occupants p.slot).head? = some next → seen next

theorem firstIn_of_missing (missing : g.find? n = none) (seen : NodeId → Prop) :
    g.FirstIn seen n := fun _ _ owner head =>
  absurd (owner_mem_ids (List.mem_of_head? head) ((Position.owner_slot _).trans owner))
    (find?_eq_none_iff.1 missing)

/-- What a search without success has seen: all that it began with, and from each node that it
came to itself also the first nodes in the slots, but not its target. -/
structure Missed (g : Graph) (target : NodeId) (visited : List NodeId)
    (stack : List (Position × List Position)) (seen : NodeId → Prop) : Prop where
  keep : ∀ x ∈ visited, seen x
  missed : seen target → target ∈ visited
  cover : ∀ item ∈ stack, ∀ n, g.nodeAt item.1 = .ok (some n) → seen n
  closed : ∀ x, seen x → x ∈ visited ∨ g.FirstIn seen x

namespace Missed

variable {visited : List NodeId} {stack stack' : List (Position × List Position)}
  {path : List Position} {seen : NodeId → Prop}

/-- A slot whose first node has been seen may be on the stack. -/
theorem skip (h : g.Missed target visited stack seen)
    (held : ∀ n, g.nodeAt p = .ok (some n) → seen n) :
    g.Missed target visited ((p, path) :: stack) seen :=
  ⟨h.keep, h.missed, List.forall_mem_cons.2 ⟨held, h.cover⟩, h.closed⟩

/-- A node that was met need not have been visited before, if the first nodes in its slots have
been seen. -/
theorem met (h : g.Missed target (n :: visited) stack seen) (other : n ≠ target)
    (first : g.FirstIn seen n) : g.Missed target visited stack seen where
  keep x mem := h.keep x (List.mem_cons_of_mem _ mem)
  missed hit := (List.mem_cons.1 (h.missed hit)).resolve_left (Ne.symm other)
  cover := h.cover
  closed x hx := by
    rcases h.closed x hx with mem | closed
    · rcases List.mem_cons.1 mem with rfl | mem
      · exact Or.inr first
      · exact Or.inl mem
    · exact Or.inr closed

end Missed

/-- A search that finds nothing has gone on from all nodes it met to the first nodes in their
slots. -/
theorem exists_missed {visited : List NodeId} {stack : List (Position × List Position)}
    (nothing : g.findPath target visited stack = none) :
    ∃ seen, g.Missed target visited stack seen := by
  fun_induction findPath g target visited stack with
  | case1 visited =>
    exact ⟨(· ∈ visited), fun _ => id, id, fun _ mem => (List.not_mem_nil mem).elim,
      fun _ => Or.inl⟩
  | case2 => cases nothing
  | case3 visited p path stack n held other old ih =>
    obtain ⟨seen, h⟩ := ih nothing
    refine ⟨seen, h.skip fun m held' => ?_⟩
    rw [held] at held'
    cases held'
    exact h.keep n old
  | case4 visited p path stack n held other new missing ih =>
    obtain ⟨seen, h⟩ := ih nothing
    refine ⟨seen, (h.met other (firstIn_of_missing missing seen)).skip fun m held' => ?_⟩
    rw [held] at held'
    cases held'
    exact h.keep n List.mem_cons_self
  | case5 visited p path stack n held other new e he ih =>
    obtain ⟨seen, h⟩ := ih nothing
    obtain ⟨below, cover⟩ := List.forall_mem_append.1 h.cover
    have first : g.FirstIn seen n := fun p next owner head => by
      have slot : p.slot.owner? = some n := (Position.owner_slot p).trans owner
      have listed := mem_positions_of_mem he slot (List.mem_of_head? head)
      refine below _ (List.mem_map_of_mem listed) next (nodeAt_of_head (n := n) ?_ ?_)
      · rw [Slot.reference_position, slot]
      · rwa [Slot.slot_position]
    have rest : g.Missed target (n :: visited) stack seen := ⟨h.keep, h.missed, cover, h.closed⟩
    refine ⟨seen, (rest.met other first).skip fun m held' => ?_⟩
    rw [held] at held'
    cases held'
    exact h.keep n List.mem_cons_self
  | case6 visited p path stack free ih =>
    obtain ⟨seen, h⟩ := ih nothing
    exact ⟨seen, h.skip fun m held => absurd held (free m)⟩

/-- A path of slots ends in a set that is closed under the first nodes of slots. -/
theorem seen_of_leads {seen : NodeId → Prop} {path : List Position}
    (closed : ∀ x, seen x → g.FirstIn seen x) (h : g.occupants.Leads target n path)
    (start : seen n) : seen target := by
  induction h with
  | here => exact start
  | down owner head _ ih => exact ih (closed _ start _ _ owner head)

/-- The search finds a node exactly if slots lead to it from the root by their first nodes. -/
theorem isSome_previousPositions_iff : (g.previousPositions target).isSome ↔
    ∃ root path, g.root = some root ∧ g.occupants.Leads target root path := by
  constructor
  · intro found
    obtain ⟨path, found⟩ := Option.isSome_iff_exists.1 found
    obtain ⟨root, at_root, leads⟩ := leads_of_previousPositions found
    exact ⟨root, path, at_root, leads⟩
  · rintro ⟨root, path, at_root, leads⟩
    rw [Option.isSome_iff_ne_none]
    intro nothing
    obtain ⟨seen, h⟩ := exists_missed nothing
    have start : seen root := h.cover _ List.mem_cons_self root (by
      simp only [nodeAt, Position.root, at_root])
    have closed : ∀ x, seen x → g.FirstIn seen x := fun x hx =>
      (h.closed x hx).resolve_left List.not_mem_nil
    exact List.not_mem_nil (h.missed (seen_of_leads closed leads start))

/-! ## Valid graphs -/

theorem first_root {root : NodeId} (at_root : g.root = some root) :
    g.occupants.First root :=
  ⟨.root, by rw [occupants_root at_root, List.head?_cons]⟩

/-- Slots lead to each node of a tree that stands, as all nodes above it do, first in its slot. -/
theorem IsTree.exists_leads (tree : g.IsTree) (known : n ∈ g.ids) (led : g.occupants.Led n) :
    ∃ root path, g.root = some root ∧ g.occupants.Leads n root path := by
  have rooted := tree.rooted known
  clear known
  induction rooted with
  | @intro s x _ mem ih =>
    obtain ⟨t, head⟩ := led x .refl
    cases tree.slot_unique mem (List.mem_of_head? head)
    cases owner : s.owner? with
    | none =>
      rw [Slot.eq_root_of_owner owner] at mem
      exact ⟨x, [], mem_occupants_root.1 mem, .here⟩
    | some a =>
      have edge : g.occupants.Edge a x := .of_mem mem owner
      obtain ⟨root, path, at_root, leads⟩ := ih a owner (led.of_reach (.single edge))
      refine ⟨root, path ++ [s.position], at_root, leads.snoc ?_ ?_⟩
      · rw [Slot.reference_position, owner]
      · rwa [Slot.slot_position]

/-- In a tree the search finds a node exactly if it and all nodes above it stand first in their
slots. -/
theorem IsTree.led_iff (tree : g.IsTree) (known : n ∈ g.ids) :
    (g.previousPositions n).isSome ↔ g.occupants.Led n := by
  rw [isSome_previousPositions_iff]
  refine ⟨?_, tree.exists_leads known⟩
  rintro ⟨root, path, at_root, leads⟩
  exact leads.led tree (mem_occupants_root.2 at_root) (first_root at_root)

/-- Where slots hold no more than one node, all nodes stand first in their slots. -/
theorem IsTree.led_of_single (tree : g.IsTree) (single : ∀ s, (g.occupants s).length ≤ 1)
    (known : n ∈ g.ids) : g.occupants.Led n := by
  have first : ∀ x ∈ g.ids, g.occupants.First x := by
    intro x known
    obtain ⟨s, mem⟩ := tree.exists_slot known
    obtain ⟨y, alone⟩ := List.length_eq_one_iff.1
      (Nat.le_antisymm (single s) (List.length_pos_of_mem mem))
    rw [alone] at mem
    exact ⟨s, by rw [alone, List.mem_singleton.1 mem, List.head?_cons]⟩
  intro x above
  rcases Relation.ReflTransGen.cases_head above with rfl | ⟨y, edge, _⟩
  · exact first x known
  · exact first x (tree.mem_of_edge edge).1

end Graph

end Autoflow
