import Autoflow.Proofs.Graph.Reversal

/-!
# Layouts that are no tree any more

A layout is no tree if a node stands in two slots, or in none but its own. So a node that is in a
tree cannot be planted anywhere else unless it is taken out first (`IsTree.not_plant`), nor below
itself (`IsTree.not_replant_of_inside`), and whoever does not close the gap that a node leaves is
lost (`extract_lost`). Two more changes of a layout keep it a tree at times: a node planted in a
slot of its own (`plantOwn`), and one that stands in for another one (`standIn`).
-/

namespace Autoflow

open Autoflow.Graph

theorem Graph.splice_self (n : NodeId) (l : List NodeId) : splice n [n] l = l := by
  induction l with
  | nil => rfl
  | cons m l ih => by_cases e : m = n <;> simp [splice, e, ih]

namespace Layout

variable {L : Layout} {D D' : Set NodeId} {n old new r x y : NodeId} {s t u : Slot} {o o' : String}
  {l : List NodeId} {inside : Bool}

theorem not_isTree_of_two (hs : x ∈ L s) (ht : x ∈ L t) (ne : s ≠ t) : ¬ L.IsTree D := fun tree =>
  ne (tree.slot_unique hs ht)

theorem not_isTree_of_lost (hx : x ∈ D) (lost : ∀ t, x ∈ L t → t.owner? = some x) :
    ¬ L.IsTree D := by
  intro tree
  obtain ⟨_, mem⟩ := tree.rooted hx
  exact tree.owner_ne mem (lost _ mem)

/-! ## A node that is there already -/

/-- A node of a tree cannot be planted a second time. -/
theorem IsTree.not_plant (h : L.IsTree D) (hn : n ∈ L s) (own : t.owner? ≠ some n) :
    ¬ (L.plant t n).IsTree D' := by
  by_cases st : s = t
  · -- it would follow itself
    have behind : n ∈ L.plant t n (.south n "") := by
      rw [plant_default own]
      exact st ▸ hn
    exact not_isTree_of_two behind (L.mem_plant_self t n) fun e => own (e ▸ rfl)
  · have stays : n ∈ L.plant t n s := by
      rwa [plant_of_owner_ne st (h.owner_ne hn)]
    exact not_isTree_of_two stays (L.mem_plant_self t n) st

/-- Puts a node into a slot of its own. What was there follows it on its default output, and its
other outputs are given up. -/
def plantOwn (L : Layout) (s : Slot) (n : NodeId) : Layout := fun t =>
  if t = .south n "" then L s
  else if t.isSouthOf n then []
  else if t = s then [n]
  else L t

theorem plantOwn_child (L : Layout) (n : NodeId) : ¬ (L.plantOwn (.child n) n).IsTree D := by
  have held : n ∈ L.plantOwn (.child n) n (.child n) := by simp [plantOwn, Slot.isSouthOf]
  exact fun tree => tree.owner_ne held rfl

theorem mem_plantOwn_south_iff :
    x ∈ L.plantOwn (.south n o) n t ↔
      (t = .south n "" ∧ x ∈ L (.south n o)) ∨ (t.isSouthOf n = false ∧ x ∈ L t) := by
  unfold plantOwn
  by_cases default : t = .south n ""
  · simp [default, Slot.isSouthOf]
  · by_cases south : t.isSouthOf n = true
    · simp [default, south]
    · have other : t ≠ .south n o := by
        rintro rfl
        simp [Slot.isSouthOf] at south
      simp [default, south, other]

/-- A node of which only one output leads anywhere can be planted there. That output becomes its
default one. -/
theorem IsTree.plantOwn_south (h : L.IsTree D)
    (only : ∀ o' x, x ∈ L (.south n o') → x ∈ L (.south n o)) :
    (L.plantOwn (.south n o) n).IsTree D := by
  have mem_iff := fun t x => mem_plantOwn_south_iff (L := L) (n := n) (o := o) (x := x) (t := t)
  refine ⟨⟨?_, ?_, ?_, ?_⟩, ?_, ?_⟩
  · intro t x a hx owner
    rcases (mem_iff t x).1 hx with ⟨rfl, moved⟩ | ⟨_, kept⟩
    · exact h.owner_mem moved owner
    · exact h.owner_mem kept owner
  · intro t x hx
    rcases (mem_iff t x).1 hx with ⟨_, hx⟩ | ⟨_, hx⟩ <;> exact h.mem hx
  · intro t
    unfold plantOwn
    split
    · exact h.nodup _
    · split
      · exact List.nodup_nil
      · split
        · exact List.nodup_singleton n
        · exact h.nodup t
  · intro t u x ht hu
    have apart : ∀ {u}, x ∈ L (.south n o) → u.isSouthOf n = false → x ∉ L u := by
      intro u hx south hu
      rw [← h.slot_unique hx hu] at south
      simp [Slot.isSouthOf] at south
    rcases (mem_iff t x).1 ht with ⟨rfl, moved⟩ | ⟨south, kept⟩ <;>
      rcases (mem_iff u x).1 hu with ⟨rfl, moved'⟩ | ⟨south', kept'⟩
    · rfl
    · exact absurd kept' (apart moved south')
    · exact absurd kept (apart moved' south)
    · exact h.slot_unique kept kept'
  · intro a b ha hb
    rcases (mem_iff _ a).1 ha with ⟨e, _⟩ | ⟨_, ha⟩
    · cases e
    · rcases (mem_iff _ b).1 hb with ⟨e, _⟩ | ⟨_, hb⟩
      · cases e
      · exact h.root_unique ha hb
  · intro x hx
    induction h.rooted hx with
    | @intro t x held mem ih =>
      have above : ∀ a, t.owner? = some a → (L.plantOwn (.south n o) n).Rooted a := fun a owner =>
        ih a owner (h.owner_mem mem owner)
      cases south : t.isSouthOf n with
      | true =>
        have owner := Slot.owner_of_isSouthOf south
        obtain ⟨out, rfl⟩ := south_of_isSouthOf south
        exact (above n owner).of_edge
          (.of_mem ((mem_iff (.south n "") x).2 (Or.inl ⟨rfl, only out x mem⟩)) rfl)
      | false => exact .intro above ((mem_iff t x).2 (Or.inr ⟨south, mem⟩))

/-- What follows on the other outputs is lost. -/
theorem Orderly.not_plantOwn_south (h : L.Orderly D) (hx : x ∈ L (.south n o'))
    (other : x ∉ L (.south n o)) : ¬ (L.plantOwn (.south n o) n).IsTree D := by
  refine not_isTree_of_lost (h.mem hx) fun t ht => ?_
  rcases mem_plantOwn_south_iff.1 ht with ⟨_, ht⟩ | ⟨south, ht⟩
  · exact absurd ht other
  · rw [← h.slot_unique hx ht] at south
    simp [Slot.isSouthOf] at south

/-- A node that stands nowhere does not get back by a slot of its own. -/
theorem not_plantOwn_of_out (hn : n ∈ D) (out : ∀ t, n ∉ L t) (own : s.owner? = some n) :
    ¬ (L.plantOwn s n).IsTree D := by
  refine not_isTree_of_lost hn fun t ht => ?_
  unfold plantOwn at ht
  split at ht
  · exact absurd ht (out s)
  · split at ht
    · cases ht
    · split at ht
      · next ts => exact ts ▸ own
      · exact absurd ht (out t)

/-! ## A node that is taken out -/

/-- Who stood in a slot of a node that was taken out and does not close the gap is lost. -/
theorem Orderly.extract_lost (h : L.Orderly D) (hn : n ∈ L s) (up : givenUp n inside u)
    (hx : x ∈ L u) (out : x ∉ l) (t : Slot) : x ∉ L.extract n s l inside t := by
  intro ht
  rcases (mem_extract_iff h hn).1 ht with ⟨notUp, ⟨_, closes⟩ | ⟨_, ht⟩⟩
  · exact out closes
  · exact notUp (h.slot_unique hx ht ▸ up)

theorem Orderly.not_extract (h : L.Orderly D) (hn : n ∈ L s) (up : givenUp n inside u)
    (hx : x ∈ L u) (out : x ∉ l) (hD : x ∈ D') : ¬ (L.extract n s l inside).IsTree D' :=
  not_isTree_of_lost hD fun t ht => absurd ht (h.extract_lost hn up hx out t)

section Replant

variable (h : L.Orderly D) (hn : n ∈ L s) (here : s.owner? ≠ some n)
  (closes : ∀ x ∈ l, ∃ t, givenUp n true t ∧ x ∈ L t) (own : t.owner? ≠ some n)

include h hn here closes own in
/-- Nor does it come back with the node. -/
theorem Orderly.not_replant_of_lost (up : givenUp n true u) (hx : x ∈ L u) (out : x ∉ l) :
    ¬ ((L.extract n s l true).plant t n).IsTree D := by
  have free := (h.vacant_extract hn here closes).1
  have lost := h.extract_lost hn up hx out
  refine not_isTree_of_lost (h.mem hx) fun v hv => ?_
  rcases (mem_plant_iff free own).1 hv with ⟨rfl, _⟩ | ⟨_, hv⟩ | ⟨_, hv⟩
  · exact absurd (h.slot_unique hn hx ▸ up.1) here
  · exact absurd hv (lost t)
  · exact absurd hv (lost v)

end Replant

/-- A node cannot be moved to a slot inside itself: it would hang from itself. -/
theorem IsTree.not_replant_of_inside (h : L.IsTree D) (hn : n ∈ L s)
    (closes : ∀ x ∈ l, ∃ t, givenUp n true t ∧ x ∈ L t) (ot : t.owner? = some r)
    (inside : L.Inside n r) : ¬ ((L.extract n s l true).plant t n).IsTree D' := by
  have own : t.owner? ≠ some n := fun o =>
    h.not_inside_self (Option.some.inj (ot.symm.trans o) ▸ inside)
  have free := (h.toOrderly.vacant_extract hn (h.owner_ne hn) closes).1
  have stays : ∀ {u y z}, u.owner? = some y → z ∈ L u → u ≠ t → ¬ givenUp n true u → z ≠ n →
      ((L.extract n s l true).plant t n).Edge y z := fun ou hz ut up zn =>
    .of_mem ((mem_plant_iff free own).2 (Or.inr (Or.inr
      ⟨ut, (mem_extract_iff h.toOrderly hn).2 ⟨up, Or.inr ⟨zn, hz⟩⟩⟩))) ou
  obtain ⟨d, hd, rd⟩ := inside
  have away : ∀ {y}, L.Reach d y → y ≠ n := by
    rintro y ry rfl
    exact h.not_inside_self ⟨d, hd, ry⟩
  -- on the way down to the new place, that place may be passed
  have below : ∀ {y}, L.Reach d y → ((L.extract n s l true).plant t n).Reach n y ∨
      ((L.extract n s l true).plant t n).Reach n r := by
    intro y ry
    induction ry with
    | refl =>
      refine Or.inl (.single (stays rfl hd ?_ (fun up => up.2 rfl rfl) (away .refl)))
      rintro rfl
      exact own rfl
    | @tail y z ry edge ih =>
      rcases ih with reach | reach
      · obtain ⟨u, ou, hz⟩ := edge
        by_cases ut : u = t
        · rw [ut, ot] at ou
          exact Or.inr (Option.some.inj ou ▸ reach)
        · refine Or.inl (reach.tail (stays ou hz ut (fun up => ?_) (away (ry.tail ⟨u, ou, hz⟩))))
          exact away ry (Option.some.inj (ou.symm.trans up.1))
      · exact Or.inr reach
  intro tree
  exact tree.not_reach_owner (mem_plant_self _ t n) ot ((below rd).elim id id)

/-! ## A node that stands in for another one -/

/-- Gives what stands in the slots of a node to those of another one. -/
def standIn (L : Layout) (old new : NodeId) : Layout := fun t =>
  if t.owner? = some new then L (t.rename fun _ => old)
  else if t.owner? = some old then []
  else L t

/-- Gives the place of a node to another one, and what stands in its slots. -/
def exchange (L : Layout) (s : Slot) (old new : NodeId) : Layout := fun t =>
  if t = s then splice old [new] (L.standIn old new t) else L.standIn old new t

theorem mem_standIn_iff : x ∈ L.standIn old new t ↔
    (t.owner? = some new ∧ x ∈ L (t.rename fun _ => old)) ∨
      (t.owner? ≠ some new ∧ t.owner? ≠ some old ∧ x ∈ L t) := by
  unfold standIn
  by_cases o : t.owner? = some new
  · simp [o]
  · by_cases o' : t.owner? = some old
    · simp [o']
    · simp [o, o']

theorem owner_rename_const (o : t.owner? = some new) (old : NodeId) :
    (t.rename fun _ => old).owner? = some old := by
  rw [Slot.owner_rename, o, Option.map_some]

theorem rename_const_rename (o : t.owner? = some old) (new : NodeId) :
    (t.rename fun _ => new).rename (fun _ => old) = t := by
  cases t <;> cases o <;> rfl

theorem rename_const_inj (o : t.owner? = some new) (o' : u.owner? = some new)
    (same : t.rename (fun _ => old) = u.rename fun _ => old) : t = u := by
  rw [← rename_const_rename o old, same, rename_const_rename o' old]

/-- A node may stand in for itself. -/
theorem exchange_self (L : Layout) (s : Slot) (n : NodeId) : L.exchange s n n = L := by
  have same : ∀ t, L.standIn n n t = L t := by
    intro t
    unfold standIn
    split
    · next o => exact congrArg L (by cases t <;> cases o <;> rfl)
    · rfl
  funext t
  unfold exchange
  rw [same, splice_self, ite_self]

/-- In a slot of its own a node takes no place. -/
theorem IsTree.exchange_of_owned (h : L.IsTree D) (o : s.owner? = some new) :
    L.exchange s old new = L.standIn old new := by
  have out : old ∉ L.standIn old new s := by
    unfold standIn
    rw [if_pos o]
    exact fun mem => h.owner_ne mem (owner_rename_const o old)
  funext t
  unfold exchange
  split
  · next ts => rw [ts, splice_of_not_mem out]
  · rfl

/-- A node whose only successor is taken out stands in for it. -/
theorem IsTree.standIn (h : L.IsTree D) (only : ∀ x, L.Edge new x ↔ x = old) :
    (L.standIn old new).IsTree {x | x ≠ old ∧ x ∈ D} := by
  have edge : L.Edge new old := (only old).2 rfl
  have ne : new ≠ old := fun e => h.not_edge_self (e ▸ edge)
  have above : ∀ {t}, old ∈ L t → t.owner? = some new := by
    intro t mem
    obtain ⟨u, ou, hu⟩ := edge
    exact h.slot_unique mem hu ▸ ou
  refine ⟨⟨?_, ?_, ?_, ?_⟩, ?_, ?_⟩
  · intro t x a hx o
    rcases mem_standIn_iff.1 hx with ⟨o', _⟩ | ⟨_, off, hx⟩
    · obtain rfl : a = new := Option.some.inj (o.symm.trans o')
      exact ⟨ne, (h.mem_of_edge edge).1⟩
    · exact ⟨fun e => off (e ▸ o), h.owner_mem hx o⟩
  · intro t x hx
    rcases mem_standIn_iff.1 hx with ⟨o, hx⟩ | ⟨off, _, hx⟩
    · refine ⟨fun e => h.owner_ne hx ?_, h.mem hx⟩
      rw [owner_rename_const o old, e]
    · exact ⟨fun e => off (above (e ▸ hx)), h.mem hx⟩
  · intro t
    unfold Layout.standIn
    split
    · exact h.nodup _
    · split
      · exact List.nodup_nil
      · exact h.nodup t
  · intro t u x ht hu
    have apart : ∀ {t u : Slot}, t.owner? = some new → x ∈ L (t.rename fun _ => old) →
        u.owner? ≠ some old → x ∉ L u := fun o ht off hu =>
      off (h.slot_unique ht hu ▸ owner_rename_const o old)
    rcases mem_standIn_iff.1 ht with ⟨o, moved⟩ | ⟨_, off, kept⟩ <;>
      rcases mem_standIn_iff.1 hu with ⟨o', moved'⟩ | ⟨_, off', kept'⟩
    · exact rename_const_inj o o' (h.slot_unique moved moved')
    · exact absurd kept' (apart o moved off')
    · exact absurd kept (apart o' moved' off)
    · exact h.slot_unique kept kept'
  · intro a b ha hb
    rcases mem_standIn_iff.1 ha with ⟨o, _⟩ | ⟨_, _, ha⟩
    · cases o
    · rcases mem_standIn_iff.1 hb with ⟨o, _⟩ | ⟨_, _, hb⟩
      · cases o
      · exact h.root_unique ha hb
  · -- the node that stands in is reached wherever the other one was
    have reached : ∀ {x}, L.Rooted x →
        (x = old → (L.standIn old new).Rooted new) ∧
          (x ≠ old → (L.standIn old new).Rooted x) := by
      intro x rooted
      induction rooted with
      | @intro t x _ mem ih =>
        constructor
        · rintro rfl
          exact (ih new (above mem)).2 ne
        · intro other
          have off : t.owner? ≠ some new := fun o => other ((only x).1 (.of_mem mem o))
          by_cases o : t.owner? = some old
          · have there : x ∈ L.standIn old new (t.rename fun _ => new) :=
              mem_standIn_iff.2 (Or.inl ⟨owner_rename_const o new, by
                rwa [rename_const_rename o new]⟩)
            exact ((ih old o).1 rfl).of_edge (.of_mem there (owner_rename_const o new))
          · exact .intro (fun a oa => (ih a oa).2 fun e => o (e ▸ oa))
              (mem_standIn_iff.2 (Or.inr ⟨off, o, mem⟩))
    exact fun {x} hx => (reached (h.rooted hx.2)).2 hx.1

/-- All that followed the node before it stood in is lost. -/
theorem Orderly.not_standIn (h : L.Orderly D) (ne : new ≠ old) (edge : L.Edge new y)
    (hD : y ∈ D') : ¬ (L.standIn old new).IsTree D' := by
  refine not_isTree_of_lost hD fun t ht => ?_
  rcases mem_standIn_iff.1 ht with ⟨o, moved⟩ | ⟨off, _, kept⟩
  · exact absurd (h.owner_unique edge (.of_mem moved (owner_rename_const o old))) ne
  · obtain ⟨u, ou, hu⟩ := edge
    exact absurd (h.slot_unique hu kept ▸ ou) off

/-- A node that is in the tree already cannot take the place of another one that it is not right
above. -/
theorem IsTree.not_exchange (h : L.IsTree D) (hs : old ∈ L s) (ht : new ∈ L t) (ne : new ≠ old)
    (off : s.owner? ≠ some new) : ¬ (L.exchange s old new).IsTree D' := by
  have kept : L.standIn old new s = L s := by
    unfold Layout.standIn
    rw [if_neg off, if_neg (h.owner_ne hs)]
  have placed : L.exchange s old new s = splice old [new] (L s) := by
    rw [exchange, if_pos rfl, kept]
  have here : new ∈ L.exchange s old new s := by
    rw [placed]
    exact (mem_splice_iff hs (h.nodup s)).2 (Or.inl (List.mem_singleton_self new))
  have elsewhere : ∀ {u}, u ≠ s → new ∈ L.standIn old new u →
      ¬ (L.exchange s old new).IsTree D' := by
    intro u us mem
    refine not_isTree_of_two (x := new) (s := u) ?_ here us
    rwa [exchange, if_neg us]
  by_cases o : t.owner? = some old
  · refine elsewhere (u := t.rename fun _ => new) (fun e => off ?_) ?_
    · rw [← e, owner_rename_const o new]
    · exact mem_standIn_iff.2 (Or.inl ⟨owner_rename_const o new, by
        rwa [rename_const_rename o new]⟩)
  · by_cases ts : t = s
    · -- the node would be in the slot twice
      intro tree
      have nodup := tree.nodup s
      rw [placed, (splice_perm hs [new]).nodup_iff] at nodup
      exact (List.nodup_cons.1 nodup).1 ((h.nodup s).mem_erase_iff.2 ⟨ne, ts ▸ ht⟩)
    · exact elsewhere ts (mem_standIn_iff.2 (Or.inr ⟨h.owner_ne ht, o, ht⟩))

end Layout

end Autoflow
