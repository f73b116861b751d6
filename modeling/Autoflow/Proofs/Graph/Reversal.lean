import Autoflow.Proofs.Graph.Edits

/-!
# Taking a change of a layout back

Extracting a node that was planted gives the layout before (`plant_extract`), and planting a
node again after it was extracted gives the layout before if the node was alone in its slot and
only its default output led anywhere (`extract_plant`). A node that was moved can go back, since
the slot that it left is not inside it (`not_inside_replanted`).
-/

namespace Autoflow

open Autoflow.Graph

namespace Layout

/-- A node stands nowhere and nothing follows it. -/
structure Vacant (L : Layout) (n : NodeId) : Prop where
  out : ∀ t, n ∉ L t
  free : ∀ o, L (.south n o) = []

/-- No slot holds more than one node. -/
def Single (L : Layout) : Prop := ∀ s, (L s).length ≤ 1

variable {L : Layout} {D D' : Set NodeId} {n m r x : NodeId} {s t : Slot} {o : String}
  {inside : Bool}

/-- A node that stands in a slot is alone there. -/
theorem Single.eq_singleton (single : L.Single) (hn : n ∈ L s) : L s = [n] := by
  have short := single s
  match h : L s with
  | [] => rw [h] at hn; cases hn
  | [a] =>
    rw [h] at hn
    rw [List.mem_singleton.1 hn]
  | a :: b :: l =>
    rw [h] at short
    simp at short

theorem south_of_isSouthOf (h : t.isSouthOf n = true) : ∃ o, t = .south n o := by
  cases t with
  | root => cases h
  | south m o =>
    have e : m = n := by simpa [Slot.isSouthOf] using h
    exact ⟨o, by rw [e]⟩
  | child m => cases h

/-! ## What a planted layout holds -/

@[simp] theorem plant_self (L : Layout) (s : Slot) (n : NodeId) : L.plant s n s = [n] :=
  if_pos rfl

theorem mem_plant_self (L : Layout) (s : Slot) (n : NodeId) : n ∈ L.plant s n s := by
  rw [plant_self]
  exact List.mem_singleton_self n

/-- What stood in a slot is on the default output of the node that was planted there. -/
theorem plant_default (own : s.owner? ≠ some n) : L.plant s n (.south n "") = L s := by
  have ne : Slot.south n "" ≠ s := fun e => own (by rw [← e]; rfl)
  simp [plant, ne]

/-- The other outputs of a planted node are free. -/
theorem plant_branch (own : s.owner? ≠ some n) (branch : o ≠ "") :
    L.plant s n (.south n o) = [] := by
  have ne : Slot.south n o ≠ s := fun e => own (by rw [← e]; rfl)
  simp [plant, ne, branch, Slot.isSouthOf]

/-- What is inside the planted node stays there. -/
theorem plant_child (own : s.owner? ≠ some n) : L.plant s n (.child n) = L (.child n) := by
  have ne : Slot.child n ≠ s := fun e => own (by rw [← e]; rfl)
  simp [plant, ne, Slot.isSouthOf]

/-- Every slot that is neither the one planted into nor on an output of the node is as it was. -/
theorem plant_other (ts : t ≠ s) (south : t.isSouthOf n = false) : L.plant s n t = L t := by
  have ne : t ≠ .south n "" := by
    rintro rfl
    simp [Slot.isSouthOf] at south
  simp [plant, ts, ne, south]

theorem plant_of_owner_ne (ts : t ≠ s) (other : t.owner? ≠ some n) : L.plant s n t = L t := by
  refine plant_other ts ?_
  cases south : t.isSouthOf n with
  | false => rfl
  | true => exact absurd (Slot.owner_of_isSouthOf south) other

/-- Planting hands the one node of a slot on to the default output, so no slot holds two. -/
theorem Single.plant (single : L.Single) : (L.plant s n).Single := by
  intro t
  unfold Layout.plant
  split
  · exact Nat.le_refl 1
  · split
    · exact single s
    · split
      · exact Nat.zero_le 1
      · exact single t

/-! ## Outputs that lead somewhere -/

/-- An output that leads somewhere after a node was planted is the slot it was planted into, its own
default output, or one that led somewhere before. -/
theorem plant_in_use (own : s.owner? ≠ some n) (used : L.plant s n (.south m o) ≠ []) :
    Slot.south m o = s ∨ m = n ∧ o = "" ∨ m ≠ n ∧ L (.south m o) ≠ [] := by
  by_cases here : Slot.south m o = s
  · exact Or.inl here
  · refine Or.inr ?_
    by_cases planted : m = n
    · subst planted
      by_cases branch : o = ""
      · exact Or.inl ⟨rfl, branch⟩
      · exact absurd (plant_branch own branch) used
    · rw [plant_of_owner_ne here fun e => planted (Option.some.inj e)] at used
      exact Or.inr ⟨planted, used⟩

/-- An output that leads somewhere after a node was extracted led somewhere before. -/
theorem extract_in_use {l : List NodeId} (hn : n ∈ L s)
    (used : L.extract n s l inside (.south m o) ≠ []) : m ≠ n ∧ L (.south m o) ≠ [] := by
  have up : ¬ givenUp n inside (.south m o) := fun up => used (if_pos up)
  constructor
  · rintro rfl
    exact up ⟨rfl, fun _ => nofun⟩
  · by_cases here : Slot.south m o = s
    · rw [here]
      exact List.ne_nil_of_mem hn
    · simpa [extract, up, here] using used

/-- An output leads somewhere under the other names if it did. -/
theorem relabel_in_use : L.relabel (Equiv.swap n r) (.south m o) ≠ [] ↔
    L (.south (Equiv.swap n r m) o) ≠ [] := by
  simp [relabel, Slot.rename]

/-! ## There and back -/

/-- Extracting a node that was planted gives the layout before, if nothing stood below it. -/
theorem plant_extract (vacant : L.Vacant n)
    (bare : inside = false → L (.child n) = []) :
    (L.plant s n).extract n s (L s) inside = L := by
  funext t
  unfold extract
  by_cases up : givenUp n inside t
  · rw [if_pos up]
    cases t with
    | root => cases up.1
    | south m o =>
      cases up.1
      exact (vacant.free o).symm
    | child m =>
      cases up.1
      cases inside with
      | true => exact absurd rfl (up.2 rfl)
      | false => exact (bare rfl).symm
  · rw [if_neg up]
    by_cases ts : t = s
    · rw [if_pos ts, ts, plant_self, splice_nil_singleton]
    · rw [if_neg ts]
      refine plant_other ts ?_
      cases south : t.isSouthOf n with
      | false => rfl
      | true =>
        obtain ⟨o, rfl⟩ := south_of_isSouthOf south
        exact absurd ⟨rfl, fun _ => nofun⟩ up

/-- Planting a node again where it was extracted gives the layout before, if it was alone in the
slot and only its default output led anywhere. -/
theorem extract_plant (alone : L s = [n]) (default : ∀ o, o ≠ "" → L (.south n o) = [])
    (own : s.owner? ≠ some n) (bare : inside = false → L (.child n) = []) :
    (L.extract n s (L (.south n "")) inside).plant s n = L := by
  have kept : ¬ givenUp n inside s := fun up => own up.1
  funext t
  by_cases ts : t = s
  · rw [ts, plant_self, alone]
  · by_cases south : t.isSouthOf n = true
    · obtain ⟨o, rfl⟩ := south_of_isSouthOf south
      by_cases branch : o = ""
      · subst branch
        rw [plant_default own]
        simp [extract, kept, alone, splice_nil_singleton]
      · rw [plant_branch own branch, default o branch]
    · rw [plant_other ts (Bool.not_eq_true _ ▸ south)]
      unfold extract
      by_cases up : givenUp n inside t
      · have child : t = .child n := by
          by_contra ne
          exact south (Slot.isSouthOf_of_owner up.1 ne)
        rw [if_pos up, child]
        refine (bare ?_).symm
        cases inside with
        | true => exact absurd child (up.2 rfl)
        | false => rfl
      · rw [if_neg up, if_neg ts]

/-- An extracted node stands nowhere, and nothing follows it. -/
theorem vacant_extract (tree : L.IsTree D) (alone : L s = [n]) :
    (L.extract n s (L (.south n "")) inside).Vacant n := by
  have held : n ∈ L s := by rw [alone]; exact List.mem_singleton_self n
  constructor
  · intro t
    unfold extract
    split
    · exact List.not_mem_nil
    · split
      · rw [alone, splice_nil_singleton]
        exact fun mem => tree.owner_ne mem rfl
      · next ts => exact fun mem => ts (tree.slot_unique mem held)
  · exact fun o => if_pos ⟨rfl, fun _ => nofun⟩

/-- Exchanging two nodes twice changes nothing. -/
theorem relabel_relabel (L : Layout) (n m : NodeId) :
    (L.relabel (Equiv.swap n m)).relabel (Equiv.swap m n) = L := by
  funext t
  have back : (t.rename (Equiv.swap m n)).rename (Equiv.swap n m) = t := by
    rw [Slot.rename_rename, ← Equiv.coe_trans, Equiv.swap_comm, Equiv.swap_swap]
    exact t.rename_id
  have twice : (Equiv.swap m n : NodeId → NodeId) ∘ Equiv.swap n m = id := by
    rw [← Equiv.coe_trans, Equiv.swap_comm, Equiv.swap_swap]
    rfl
  simp only [relabel, Equiv.symm_swap, back, List.map_map, twice, List.map_id]

theorem Single.relabel (single : L.Single) (σ : Equiv.Perm NodeId) : (L.relabel σ).Single := by
  intro t
  rw [Layout.relabel, List.length_map]
  exact single _

/-! ## Moving back -/

/-- What is inside a node in one place is inside it in another place, unless that place is. -/
theorem Inside.replanted (own : s.owner? ≠ some n) (own' : t.owner? ≠ some n)
    (tree : (L.plant s n).IsTree D) (h : (L.plant s n).Inside n x) :
    (L.plant t n).Inside n x ∨ ∃ r, t.owner? = some r ∧ (L.plant t n).Inside n r := by
  obtain ⟨d, hd, rd⟩ := h
  rw [plant_child own, ← plant_child (L := L) own'] at hd
  have below : ∀ {y}, (L.plant s n).Reach d y → (L.plant s n).Inside n y := by
    intro y ry
    rw [plant_child own', ← plant_child (L := L) own] at hd
    exact ⟨d, hd, ry⟩
  have away : ∀ {y}, (L.plant s n).Reach d y → y ≠ n := by
    rintro y ry rfl
    exact tree.not_inside_self (below ry)
  induction rd with
  | refl => exact Or.inl (.of_mem hd)
  | @tail y z ry edge ih =>
    rcases ih with inside | out
    · obtain ⟨u, ou, hz⟩ := edge
      have other : u.owner? ≠ some n := by
        rw [ou]
        exact fun e => away ry (Option.some.inj e)
      have us : u ≠ s := by
        rintro rfl
        rw [plant_self] at hz
        exact away (ry.tail ⟨u, ou, by rw [plant_self]; exact hz⟩) (List.mem_singleton.1 hz)
      by_cases ut : u = t
      · rw [ut] at ou
        exact Or.inr ⟨y, ou, inside⟩
      · rw [plant_of_owner_ne us other, ← plant_of_owner_ne (L := L) ut other] at hz
        exact Or.inl (inside.of_edge ⟨u, ou, hz⟩)
    · exact Or.inr out

/-- A node that can stand in two places has neither place inside it. -/
theorem not_inside_replanted (tree : (L.plant s n).IsTree D) (tree' : (L.plant t n).IsTree D')
    (o : t.owner? = some r) : ¬ (L.plant s n).Inside n r := by
  intro inside
  have own : s.owner? ≠ some n := tree.owner_ne (L.mem_plant_self s n)
  have held := L.mem_plant_self t n
  have inside' : (L.plant t n).Inside n r := by
    rcases inside.replanted own (tree'.owner_ne held) tree with inside' | ⟨r', o', inside'⟩
    · exact inside'
    · rw [o] at o'
      cases o'
      exact inside'
  exact tree'.not_reach_owner held o inside'.reach

end Layout

namespace Graph

variable {g : Graph} {n : NodeId} {e : Entry}

/-- The values of a map of lists, of which only one is not empty. -/
theorem flatMap_eq_of_default {κ α : Type} [DecidableEq κ] {l : List (κ × List α)} {k : κ}
    (distinct : (Assoc.keys l).Nodup) (empty : ∀ p ∈ l, p.1 ≠ k → p.2 = []) :
    l.flatMap Prod.snd = (Assoc.find? k l).getD [] := by
  induction l with
  | nil => rfl
  | cons p l ih =>
    obtain ⟨fresh, distinct⟩ := List.nodup_cons.1 distinct
    have rest := ih distinct fun q hq => empty q (List.mem_cons_of_mem _ hq)
    rw [List.flatMap_cons, rest]
    by_cases e : p.1 = k
    · have none_left : Assoc.find? k l = none := Assoc.find?_eq_none_iff.2 (e ▸ fresh)
      simp [Assoc.find?, e, none_left]
    · simp [Assoc.find?, e, empty p List.mem_cons_self e]

/-- A node of which only the default output leads anywhere. -/
theorem nextIds_eq (he : g.find? n = some e)
    (default : ∀ o, o ≠ "" → g.occupants (.south n o) = []) :
    e.nextIds = g.occupants (.south n "") := by
  rw [occupants_south he]
  cases hm : e.next with
  | none => simp [Entry.nextIds, Entry.nextOn, hm]
  | some outputs =>
    simp only [Entry.nextIds, Entry.nextOn, hm, Option.elim_some, Option.bind_some]
    refine flatMap_eq_of_default outputs.nodup fun p hp branch => ?_
    have held : outputs.get? p.1 = some p.2 := OrderedMap.mem_toList_iff.1 hp
    have := default p.1 branch
    rwa [occupants_south he, Entry.nextOn, hm, Option.bind_some, held] at this

/-- If only the default output of a node leads anywhere and nothing is inside, that is all that is
below it. -/
theorem successors_eq (he : g.find? n = some e)
    (default : ∀ o, o ≠ "" → g.occupants (.south n o) = [])
    (bare : g.occupants (.child n) = []) : e.successors = g.occupants (.south n "") := by
  rw [Entry.successors, nextIds_eq he default, ← occupants_child he, bare, List.append_nil]

end Graph

end Autoflow
