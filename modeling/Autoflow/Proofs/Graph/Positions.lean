import Autoflow.Proofs.Graph.Reversal
import Autoflow.Proofs.Graph.Upkeep

/-!
# Positions there and back

In an orderly graph the layout says where each node stands (`Orderly.position_congr`). A node that
is inserted only changes where those stand that were in its slot. To take a node out of its slot and
to plant it there again leaves all positions as they were exactly if the node was alone in its slot,
only its default output led anywhere and nothing was inside it that did not stay
(`Orderly.returned_iff`). For the nodes that close the gap are lined up in one slot, and all that is
in the slot goes behind the node that comes back.
-/

namespace Autoflow

namespace Layout

/-- A node alone in a slot, with nothing on its branches, and with nothing inside it that does not
stay there when it is taken out. At the root no more than one node may follow it. -/
structure Lone (L : Layout) (n : NodeId) (s : Slot) (inside : Bool) : Prop where
  alone : L s = [n]
  default : ∀ o, o ≠ "" → L (.south n o) = []
  bare : inside = false → L (.child n) = []
  top : s = .root → (L (.south n "")).length ≤ 1

variable {L : Layout} {D : Set NodeId} {n x : NodeId} {s t : Slot} {l : List NodeId}
  {inside : Bool}

/-- Who stood in the slot that a node left and came back to follows the node. -/
theorem mem_behind (h : L.Orderly D) (own : s.owner? ≠ some n) (hn : n ∈ L s) (hx : x ∈ L s)
    (ne : x ≠ n) : x ∈ (L.extract n s l inside).plant s n (.south n "") := by
  rw [plant_default own, mem_extract_iff h hn]
  exact ⟨fun up => own up.1, Or.inr ⟨ne, hx⟩⟩

/-- Only those that close the gap follow a node that comes back to the root. -/
theorem plant_extract_root (alone : L .root = [n]) :
    (L.extract n .root l inside).plant .root n (.south n "") = l := by
  have kept : ¬ givenUp n inside .root := fun up => by cases up.1
  rw [plant_default (by simp)]
  simp [extract, kept, alone, Graph.splice_nil_singleton]

end Layout

namespace Graph

open Layout

variable {g g' : Graph} {n x : NodeId} {e : Entry} {s t : Slot} {p : Position} {f : GraphFault}
  {inside : Bool}

theorem fault_of_position (h : g.position n = .error f) : f = .nodeNotFound n := by
  unfold position at h
  split at h
  · cases h
  · simp only at h
    split at h
    · cases h
    · cases h
      rfl

theorem Orderly.position_eq (h : g.Orderly) (mem : n ∈ g.occupants s) (own : s.owner? ≠ some n) :
    g.position n = .ok s.position := by
  obtain ⟨p, at_p⟩ := exists_position mem own
  obtain ⟨t, rfl, there, _⟩ := mem_occupants_of_position at_p
  rw [at_p, h.slot_unique there mem]

theorem mem_of_position (h : g.position n = .ok s.position) : n ∈ g.occupants s := by
  obtain ⟨t, same, mem, _⟩ := mem_occupants_of_position h
  have e : s = t := by simpa using congrArg Position.slot same
  exact e ▸ mem

/-- Where a node stands is a matter of the slots that it is in. -/
theorem Orderly.position_congr_of_mem (h : g.Orderly) (h' : g'.Orderly)
    (same : ∀ s, n ∈ g'.occupants s ↔ n ∈ g.occupants s) : g'.position n = g.position n := by
  cases at_p : g.position n with
  | ok p =>
    obtain ⟨s, rfl, mem, own⟩ := mem_occupants_of_position at_p
    exact h'.position_eq ((same s).2 mem) own
  | error f =>
    cases at_q : g'.position n with
    | ok q =>
      obtain ⟨s, rfl, mem, own⟩ := mem_occupants_of_position at_q
      rw [h.position_eq ((same s).1 mem) own] at at_p
      cases at_p
    | error f' => rw [fault_of_position at_p, fault_of_position at_q]

/-- Where a node stands is a matter of the layout. -/
theorem Orderly.position_congr (h : g.Orderly) (h' : g'.Orderly)
    (same : g'.occupants = g.occupants) (n : NodeId) : g'.position n = g.position n :=
  h.position_congr_of_mem h' fun s => by rw [same]

/-! ## Inserted nodes -/

section Inserted

variable (h : g.Orderly) (new : n ∉ g.ids) (run : Graph.insert n p g = .ok () g')

include new run in
theorem owner_ne_of_insert : p.slot.owner? ≠ some n := by
  rw [p.owner_slot]
  exact fun own => new (reference_of_insert run own)

include h new run in
/-- A new node stands in the slot that it was inserted into. -/
theorem Orderly.position_insert : g'.position n = .ok p.slot.position := by
  obtain ⟨layout, h'⟩ := h.insert new run
  exact h'.position_eq (layout ▸ mem_plant_self _ _ _) (owner_ne_of_insert new run)

include h new run in
/-- The nodes that were in the slot stand behind the new one. -/
theorem Orderly.position_insert_displaced (mem : x ∈ g.occupants p.slot) :
    g'.position x = .ok (.south n "") := by
  obtain ⟨layout, h'⟩ := h.insert new run
  refine h'.position_eq (s := .south n "") ?_ fun same => ?_
  · rw [layout, plant_default (owner_ne_of_insert new run)]
    exact mem
  · cases same
    exact new (h.mem mem)

include h new run in
/-- All others stand where they stood. -/
theorem Orderly.position_insert_other (ne : x ≠ n) (off : x ∉ g.occupants p.slot) :
    g'.position x = g.position x := by
  obtain ⟨layout, h'⟩ := h.insert new run
  have free : ∀ t, t.isSouthOf n = true → g.occupants t = [] := fun t south =>
    occupants_eq_nil new (Slot.owner_of_isSouthOf south)
  refine h.position_congr_of_mem h' fun t => ?_
  rw [layout, mem_plant_iff free (owner_ne_of_insert new run)]
  constructor
  · rintro (⟨same, _⟩ | ⟨_, mem⟩ | ⟨_, mem⟩)
    · exact absurd same ne
    · exact absurd mem off
    · exact mem
  · exact fun mem => Or.inr (Or.inr ⟨fun same => off (same ▸ mem), mem⟩)

end Inserted

theorem closing_of_lone (stands : g.Stands n s e) (lone : g.occupants.Lone n s inside) :
    closing s (leaving e inside) = g.occupants (.south n "") := by
  have behind : leaving e inside = g.occupants (.south n "") := by
    cases inside with
    | true => exact nextIds_eq stands.entry lone.default
    | false => exact successors_eq stands.entry lone.default (lone.bare rfl)
  rw [behind]
  unfold closing
  split
  · next top => exact List.take_of_length_le (lone.top top)
  · rfl

/-- The root is free after its node was taken out exactly if the node left no others. -/
theorem root_of_left (stands : g.Stands n .root e) (layout : g'.occupants =
    g.occupants.extract n .root (closing .root (leaving e inside)) inside) :
    g'.root = none ↔ leaving e inside = [] := by
  have kept : ¬ givenUp n inside .root := fun up => by cases up.1
  have root := mem_occupants_root.1 stands.mem
  have closed : g'.occupants .root = (leaving e inside).take 1 := by
    rw [layout, extract, if_neg kept, if_pos rfl, occupants_root root, splice_nil_singleton]
    exact if_pos rfl
  rw [← occupants_root_eq_nil, closed]
  cases leaving e inside <;> simp

/-- A node that is moved a second time might as well have been moved there at once. -/
theorem Orderly.move_again {K : Layout} {r r' : NodeId} (h : g.Orderly) (there : n ∈ g.ids)
    (layout : g.occupants = K.plant t n) (vacant : K.Vacant n) (owner : t.owner? = some r)
    (ne : r ≠ n) (owner' : s.owner? = some r') (ne' : r' ≠ n)
    (run : Graph.move n s.position g = .ok () g') : g'.occupants = K.plant s n ∧ g'.Orderly := by
  have own : t.owner? ≠ some n := by
    rw [owner]
    exact fun e => ne (Option.some.inj e)
  obtain ⟨t', e, stands, layout', orderly⟩ :=
    h.move there (s.reference_position.trans owner') ne' run
  have here : n ∈ g.occupants t := layout ▸ K.mem_plant_self t n
  obtain rfl : t' = t := h.slot_unique stands.mem here
  have low : t' ≠ .root := by
    rintro rfl
    cases owner
  have left : closing t' (leaving e true) = K t' := by
    calc closing t' (leaving e true)
      _ = e.nextIds := if_neg low
      _ = g.occupants (.south n "") :=
        nextIds_eq stands.entry fun o branch => by rw [layout, plant_branch own branch]
      _ = K t' := by rw [layout, plant_default own]
  refine ⟨?_, orderly⟩
  rw [layout', left, layout, plant_extract vacant fun e => (by cases e), s.slot_position]

section Returned

variable (h : g.Orderly) (h' : g'.Orderly) (stands : g.Stands n s e)
  (layout : g'.occupants =
    (g.occupants.extract n s (closing s (leaving e inside)) inside).plant s n)
  (same : ∀ m, g'.position m = g.position m)

include h same in
/-- With the same positions, who stood in a slot of another node stands there. -/
theorem mem_of_same (mem : x ∈ g.occupants t) (own : t.owner? ≠ some x) : x ∈ g'.occupants t :=
  mem_of_position ((same x).trans (h.position_eq mem own))

include h stands in
theorem other_of_owned (owned : t.owner? = some n) (mem : x ∈ g.occupants t) :
    t.owner? ≠ some x := by
  intro own
  have same : x = n := Option.some.inj (own.symm.trans owned)
  exact stands.own (h.slot_unique stands.mem (same ▸ mem) ▸ owned)

include h h' stands layout same in
theorem lone_of_same : g.occupants.Lone n s inside := by
  have alone : g.occupants s = [n] := by
    have only : ∀ x, x ∈ g.occupants s ↔ x ∈ [n] := by
      refine fun x => ⟨fun mem => ?_, fun mem => List.mem_singleton.1 mem ▸ stands.mem⟩
      by_contra ne
      have ne : x ≠ n := fun e => ne (List.mem_singleton.2 e)
      have behind : x ∈ g'.occupants (.south n "") :=
        layout ▸ mem_behind h stands.own stands.mem mem ne
      have at_behind := (same x).symm.trans
        (h'.position_eq behind fun e => ne (Option.some.inj e).symm)
      have slot := h.slot_unique mem (mem_of_position at_behind)
      exact stands.own (slot ▸ rfl)
    exact List.perm_singleton.1
      ((List.perm_ext_iff_of_nodup (h.nodup s) (List.nodup_singleton n)).2 only)
  refine ⟨alone, fun o branch => ?_, fun out => ?_, fun top => ?_⟩
  · refine List.eq_nil_iff_forall_not_mem.2 fun x mem => ?_
    have still := mem_of_same h same mem (other_of_owned h stands rfl mem)
    rw [layout, plant_branch stands.own branch] at still
    exact List.not_mem_nil still
  · refine List.eq_nil_iff_forall_not_mem.2 fun x mem => ?_
    have still := mem_of_same h same mem (other_of_owned h stands rfl mem)
    have up : givenUp n inside (.child n) := ⟨rfl, fun on => by rw [out] at on; cases on⟩
    rw [layout, plant_child stands.own, extract, if_pos up] at still
    exact List.not_mem_nil still
  · have sub : g.occupants (.south n "") ⊆ closing s (leaving e inside) := by
      intro x mem
      have still := mem_of_same h same mem (other_of_owned h stands rfl mem)
      subst top
      rwa [layout, plant_extract_root alone] at still
    exact ((h.nodup _).length_le_of_subset sub).trans (length_closing top _)

include h h' stands layout in
/-- A node that was taken out and planted in its slot again leaves all positions as they were
exactly if it was alone there and led to other nodes by its default output only. -/
theorem Orderly.returned_iff :
    (∀ m, g'.position m = g.position m) ↔ g.occupants.Lone n s inside := by
  refine ⟨lone_of_same h h' stands layout, fun lone => h.position_congr h' ?_⟩
  rw [layout, closing_of_lone stands lone]
  exact extract_plant lone.alone lone.default stands.own lone.bare

end Returned

end Graph

end Autoflow
