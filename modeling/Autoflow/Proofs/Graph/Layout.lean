import Autoflow.Node.Position
import Mathlib.Data.Set.Insert
import Mathlib.Logic.Relation

/-!
# Layouts and trees of nodes

A layout says which nodes stand in which slot: at the root, on an output of a node or inside
a node. It is a tree if every node stands in exactly one slot, once, and can be reached from
the root. In a tree the owner of a node's slot is unique (`IsTree.owner_unique`), no node is
below itself (`IsTree.acyclic`), and what lies below two siblings is disjoint
(`IsTree.eq_of_reach`).
-/

namespace Autoflow

/-- A place for nodes. -/
inductive Slot where
  | root
  | south (owner : NodeId) (output : String)
  | child (owner : NodeId)
deriving DecidableEq

namespace Slot

/-- The node that a slot belongs to. -/
def owner? : Slot → Option NodeId
  | root => none
  | south n _ => some n
  | child n => some n

@[simp] theorem owner_root : root.owner? = none := rfl

@[simp] theorem owner_south (n : NodeId) (output : String) : (south n output).owner? = some n := rfl

@[simp] theorem owner_child (n : NodeId) : (child n).owner? = some n := rfl

/-- Only the root belongs to no node. -/
theorem eq_root_of_owner {s : Slot} (h : s.owner? = none) : s = root := by
  cases s <;> simp_all

/-- The slot on a side of a node. -/
def beside (owner : NodeId) : Placement → String → Slot
  | .south, output => south owner output
  | .child, _ => child owner

/-- The position that names a slot. -/
def position : Slot → Position
  | root => .root
  | south n output => .south n output
  | child n => .child n

@[simp] theorem owner_beside (n : NodeId) (placement : Placement) (output : String) :
    (beside n placement output).owner? = some n := by
  cases placement <;> rfl

end Slot

/-- The slot that a position names. -/
def Position.slot (p : Position) : Slot :=
  match p.reference with
  | none => .root
  | some r => .beside r p.placement p.output

/-- The slot that a position names belongs to its reference. -/
theorem Position.owner_slot (p : Position) : p.slot.owner? = p.reference := by
  unfold slot
  cases h : p.reference with
  | none => rfl
  | some r => exact Slot.owner_beside r _ _

/-- A slot behind a node is named by its owner and its output. -/
theorem Position.slot_eq_south {p : Position} {r : NodeId} {o : String}
    (h : p.slot = .south r o) : p.reference = some r ∧ p.placement = .south ∧ p.output = o := by
  unfold slot at h
  cases ref : p.reference with
  | none => simp [ref] at h
  | some m => cases place : p.placement <;> simp_all [Slot.beside]

/-- A slot inside a node is named by its owner. The output plays no part. -/
theorem Position.slot_eq_child {p : Position} {r : NodeId} (h : p.slot = .child r) :
    p.reference = some r ∧ p.placement = .child := by
  unfold slot at h
  cases ref : p.reference with
  | none => simp [ref] at h
  | some m => cases place : p.placement <;> simp_all [Slot.beside]

/-- The position of a slot names the slot. -/
@[simp] theorem Slot.slot_position (s : Slot) : s.position.slot = s := by
  cases s <;> rfl

@[simp] theorem Slot.reference_position (s : Slot) : s.position.reference = s.owner? := by
  cases s <;> rfl

/-- The nodes in each slot, in order. -/
abbrev Layout := Slot → List NodeId

namespace Layout

/-- A node stands in a slot of another one. -/
def Edge (L : Layout) (a b : NodeId) : Prop := ∃ s, s.owner? = some a ∧ b ∈ L s

/-- A node is another one or below it. -/
abbrev Reach (L : Layout) : NodeId → NodeId → Prop := Relation.ReflTransGen L.Edge

/-- A node is inside a container or below a node inside it. -/
def Inside (L : Layout) (c x : NodeId) : Prop := ∃ d ∈ L (.child c), L.Reach d x

/-- A node can be reached from the root. -/
inductive Rooted (L : Layout) : NodeId → Prop
  | intro {s : Slot} {x : NodeId} (held : ∀ a, s.owner? = some a → Rooted L a) (mem : x ∈ L s) :
      Rooted L x

/-- Every node of a domain stands in one slot, once. -/
structure Orderly (L : Layout) (D : Set NodeId) : Prop where
  owner_mem : ∀ {s x a}, x ∈ L s → s.owner? = some a → a ∈ D
  mem : ∀ {s x}, x ∈ L s → x ∈ D
  nodup : ∀ s, (L s).Nodup
  slot_unique : ∀ {s t x}, x ∈ L s → x ∈ L t → s = t

/-- All nodes of a domain hang in a single tree from the root. -/
structure IsTree (L : Layout) (D : Set NodeId) : Prop extends Orderly L D where
  root_unique : ∀ {a b}, a ∈ L .root → b ∈ L .root → a = b
  rooted : ∀ {x}, x ∈ D → L.Rooted x

variable {L : Layout} {D : Set NodeId} {a b c x y : NodeId} {s t : Slot}

theorem Edge.of_mem (h : x ∈ L s) (o : s.owner? = some a) : L.Edge a x := ⟨s, o, h⟩

/-- What is below a node that can be reached from the root can be reached. -/
theorem Rooted.of_edge (h : L.Rooted a) (e : L.Edge a x) : L.Rooted x := by
  obtain ⟨s, o, mem⟩ := e
  refine .intro (fun b ob => ?_) mem
  rw [o] at ob
  cases ob
  exact h

/-- The nodes that can be reached from the root are those that are at the root or below it. -/
theorem rooted_iff : L.Rooted x ↔ ∃ r ∈ L .root, L.Reach r x := by
  constructor
  · intro h
    induction h with
    | @intro s x _ mem ih =>
      cases o : s.owner? with
      | none => exact ⟨x, Slot.eq_root_of_owner o ▸ mem, .refl⟩
      | some a =>
        obtain ⟨r, root, reach⟩ := ih a o
        exact ⟨r, root, reach.tail (.of_mem mem o)⟩
  · rintro ⟨r, root, reach⟩
    induction reach with
    | refl => exact .intro (s := .root) nofun root
    | tail _ edge ih => exact ih.of_edge edge

theorem Inside.of_mem (h : x ∈ L (.child c)) : L.Inside c x := ⟨x, h, .refl⟩

/-- What is below something inside a container is inside it. -/
theorem Inside.of_reach (h : L.Inside c x) (r : L.Reach x y) : L.Inside c y := by
  obtain ⟨d, hd, rd⟩ := h
  exact ⟨d, hd, rd.trans r⟩

theorem Inside.of_edge (h : L.Inside c x) (e : L.Edge x y) : L.Inside c y :=
  h.of_reach (.single e)

/-- What is inside a node is below it. -/
theorem Inside.transGen (h : L.Inside c x) : Relation.TransGen L.Edge c x := by
  obtain ⟨d, hd, rd⟩ := h
  exact .head' ⟨_, rfl, hd⟩ rd

theorem Inside.reach (h : L.Inside c x) : L.Reach c x := h.transGen.to_reflTransGen

namespace Orderly

/-- No node stands below two others. -/
theorem owner_unique (h : Orderly L D) (ea : L.Edge a x) (eb : L.Edge b x) : a = b := by
  obtain ⟨s, os, hs⟩ := ea
  obtain ⟨t, ot, ht⟩ := eb
  have e := h.slot_unique hs ht
  rw [e, ot] at os
  exact (Option.some.inj os).symm

/-- The root is below no node. -/
theorem not_edge_of_mem_root (h : Orderly L D) (hx : x ∈ L .root) : ¬ L.Edge a x := by
  rintro ⟨s, os, hs⟩
  have e := h.slot_unique hs hx
  subst e
  cases os

theorem mem_of_edge (h : Orderly L D) (e : L.Edge a x) : a ∈ D ∧ x ∈ D := by
  obtain ⟨s, os, hs⟩ := e
  exact ⟨h.owner_mem hs os, h.mem hs⟩

/-- Everything below a node of the layout is a node of it. -/
theorem mem_of_reach (h : Orderly L D) (ha : a ∈ D) (r : L.Reach a x) : x ∈ D := by
  induction r with
  | refl => exact ha
  | tail _ e _ => exact (h.mem_of_edge e).2

/-- What is strictly below a node that is reached from the root is not that node. -/
theorem acyclic_of_rooted (h : Orderly L D) (hx : L.Rooted x) : ¬ Relation.TransGen L.Edge x x := by
  induction hx with
  | @intro s x held mem ih =>
    intro cycle
    obtain ⟨z, rz, ez⟩ := Relation.TransGen.tail'_iff.1 cycle
    cases o : s.owner? with
    | none =>
      exact h.not_edge_of_mem_root (Slot.eq_root_of_owner o ▸ mem) ez
    | some a =>
      have e : z = a := h.owner_unique ez (.of_mem mem o)
      subst e
      exact ih z o (.head' (.of_mem mem o) rz)

/-- Two nodes above the same node are above one another. -/
theorem reach_total (h : Orderly L D) (ra : L.Reach a x) (rb : L.Reach b x) :
    L.Reach a b ∨ L.Reach b a := by
  induction ra with
  | refl => exact Or.inr rb
  | @tail y x ray e ih =>
    rcases Relation.ReflTransGen.cases_tail rb with eq | ⟨z, rbz, ez⟩
    · subst eq
      exact Or.inl (ray.tail e)
    · have eq := h.owner_unique ez e
      subst eq
      exact ih rbz

end Orderly

namespace IsTree

/-- No node is below itself: it would be reached from the root, and the way there would have to come
to it twice. -/
theorem acyclic (h : L.IsTree D) : ¬ Relation.TransGen L.Edge x x := by
  intro cycle
  obtain ⟨z, _, ez⟩ := Relation.TransGen.tail'_iff.1 cycle
  exact h.acyclic_of_rooted (h.rooted (h.mem_of_edge ez).2) cycle

theorem not_edge_self (h : L.IsTree D) : ¬ L.Edge x x := fun e => h.acyclic (.single e)

/-- No node stands in a slot of its own. -/
theorem owner_ne (h : L.IsTree D) (hx : x ∈ L s) : s.owner? ≠ some x := fun o =>
  h.not_edge_self (.of_mem hx o)

/-- The owner of a slot is not below what stands in it. -/
theorem not_reach_of_edge (h : L.IsTree D) (e : L.Edge a x) : ¬ L.Reach x a := fun r =>
  h.acyclic (.head' e r)

theorem not_inside_self (h : L.IsTree D) : ¬ L.Inside x x := fun i => h.acyclic i.transGen

/-- The owner of a slot is not below a node in the slot. -/
theorem not_reach_owner (h : L.IsTree D) (hx : x ∈ L s) (o : s.owner? = some a) :
    ¬ L.Reach x a :=
  h.not_reach_of_edge (.of_mem hx o)

/-- Two nodes with the same owner that have something below both of them are the same. -/
theorem eq_of_reach (h : L.IsTree D) (ea : L.Edge c a) (eb : L.Edge c b) (ra : L.Reach a x)
    (rb : L.Reach b x) : a = b := by
  have apart : ∀ {a b}, L.Edge c a → L.Edge c b → L.Reach a b → a = b := by
    intro a b ea eb r
    rcases Relation.ReflTransGen.cases_tail r with eq | ⟨z, rz, ez⟩
    · exact eq.symm
    · have eq := h.owner_unique ez eb
      subst eq
      exact absurd rz (h.not_reach_of_edge ea)
  rcases h.reach_total ra rb with r | r
  · exact apart ea eb r
  · exact (apart eb ea r).symm

end IsTree

end Layout

end Autoflow
