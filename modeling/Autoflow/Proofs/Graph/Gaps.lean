import Autoflow.Proofs.Graph.Entries
import Autoflow.Proofs.Graph.Reversal
import Autoflow.Proofs.Graph.Validation

/-!
# Gaps between successors

Each slot of an entry takes up one stretch of the list of its successors, and an edit of the slot
leaves the rest of that list alone (`Entry.exists_around`). So bypassing a node puts the nodes that
close its gap in its place among the successors, wherever it stands (`Orderly.successors_bypass`).
Putting a node into a slot does the opposite: the nodes that it displaced, put in its place, give
the successors that were there before (`Planted`).
-/

namespace Autoflow

namespace Assoc

variable {κ α : Type} [DecidableEq κ]

/-- The values of a map one after the other are what stands before the value of a key, this value,
and what stands behind it. -/
theorem exists_around (k : κ) (l : List (κ × List α)) : ∃ before after,
    l.flatMap Prod.snd = before ++ ((find? k l).getD [] ++ after) ∧
      (∀ v, (put k v l).flatMap Prod.snd = before ++ (v ++ after)) ∧
        (drop k l).flatMap Prod.snd = before ++ after := by
  induction l with
  | nil => exact ⟨[], [], rfl, fun v => by simp [put], rfl⟩
  | cons p l ih =>
    obtain ⟨a, v⟩ := p
    by_cases e : a = k
    · exact ⟨[], l.flatMap Prod.snd, by simp [find?, e], fun w => by simp [put, e],
        by simp [drop, e]⟩
    · obtain ⟨before, after, here, there, gone⟩ := ih
      exact ⟨v ++ before, after, by simp [find?, e, here], fun w => by simp [put, e, there],
        by simp [drop, e, gone]⟩

/-- The keys of a map that got a new pair are the old ones with the new one right behind its anchor,
if that is there. -/
theorem exists_keys_putAfter {anchor : κ} {l : List (κ × α)} (mem : anchor ∈ keys l) (k : κ)
    (v : α) : ∃ front back, keys l = front ++ anchor :: back ∧
      keys (putAfter anchor k v l) = front ++ anchor :: k :: back := by
  induction l with
  | nil => cases mem
  | cons p l ih =>
    obtain ⟨a, w⟩ := p
    by_cases e : a = anchor
    · exact ⟨[], keys l, by simp [e], by simp [putAfter, e]⟩
    · obtain ⟨front, back, old, new⟩ := ih ((List.mem_cons.1 mem).resolve_left (Ne.symm e))
      exact ⟨a :: front, back, by simp [old], by simp [putAfter, e, new]⟩

end Assoc

theorem OrderedMap.keys_erase_eq_filter {κ ν : Type} [DecidableEq κ] (m : OrderedMap κ ν) (k : κ) :
    (m.erase k).keys = m.keys.filter (· ≠ k) := by
  have distinct : m.keys.Nodup := m.nodup
  rw [keys_erase, distinct.erase_eq_filter]
  exact List.filter_congr fun x _ => by rw [Bool.eq_iff_iff]; simp

namespace Graph

/-- A node that is not in the first part of a list gives way in the second one. -/
theorem splice_append_right {n : NodeId} {a : List NodeId} (out : n ∉ a) (r b : List NodeId) :
    splice n r (a ++ b) = a ++ splice n r b := by
  induction a with
  | nil => rfl
  | cons x a ih =>
    rw [List.mem_cons, not_or] at out
    simp [splice, Ne.symm out.1, ih out.2]

/-- A node in the first part gives way there. -/
theorem splice_append_left {n : NodeId} {a : List NodeId} (mem : n ∈ a) (r b : List NodeId) :
    splice n r (a ++ b) = splice n r a ++ b := by
  induction a with
  | nil => cases mem
  | cons x a ih =>
    by_cases e : x = n
    · simp [splice, e]
    · simp [splice, e, ih ((List.mem_cons.1 mem).resolve_left (Ne.symm e))]

end Graph

namespace Entry

open Autoflow.Graph

variable {e : Entry} {placement : Placement} {o : String} {n : NodeId}

/-- A slot is one stretch of the successors of an entry, whatever it holds. -/
theorem exists_around (e : Entry) (placement : Placement) (o : String) : ∃ before after,
    e.successors = before ++ ((e.slot? placement o).getD [] ++ after) ∧
      (∀ ids, (e.setSlot placement o ids).successors = before ++ (ids ++ after)) ∧
        (e.dropSlot placement o).successors = before ++ after := by
  cases placement with
  | child =>
    refine ⟨e.nextIds, [], ?_, fun ids => ?_, ?_⟩ <;>
      simp [successors, slot?, setSlot, dropSlot, nextIds, childIds]
  | south =>
    obtain ⟨before, after, here, there, gone⟩ :=
      Assoc.exists_around o (e.next.getD .empty).toList
    refine ⟨before, after ++ e.childIds, ?_, fun ids => ?_, ?_⟩
    · have held : e.nextIds = before ++ ((e.slot? .south o).getD [] ++ after) := by
        cases next : e.next with
        | none => simpa [next, nextIds, slot?] using here
        | some outputs => simpa [next, nextIds, slot?, Outputs.allIds, OrderedMap.get?] using here
      simp [successors, held]
    · have held : (e.setSlot .south o ids).nextIds = before ++ (ids ++ after) := there ids
      have inside : (e.setSlot .south o ids).childIds = e.childIds := rfl
      simp [successors, held, inside]
    · have rest : (e.dropSlot .south o).nextIds = before ++ after := by
        -- with its last output an entry loses the list of outputs as well
        simp only [dropSlot, nextIds]
        split
        · next empty =>
          have nothing : ((e.next.getD .empty).erase o).toList = [] := List.isEmpty_iff.1 empty
          exact gone ▸ congrArg (List.flatMap Prod.snd) nothing.symm
        · exact gone
      have inside : (e.dropSlot .south o).childIds = e.childIds := rfl
      simp [successors, rest, inside]

/-- Splicing a list into a slot splices it into the successors of the entry. -/
theorem successors_spliceSlot (mem : n ∈ (e.slot? placement o).getD [])
    (distinct : e.successors.Nodup) (l : List NodeId) :
    (spliceSlot e placement o n l).successors = splice n l e.successors := by
  obtain ⟨before, after, here, there, gone⟩ := e.exists_around placement o
  have apart : n ∉ before := fun first =>
    (List.nodup_append.1 (here ▸ distinct)).2.2 n first n (List.mem_append_left after mem) rfl
  rw [here, splice_append_right apart, splice_append_left mem]
  unfold spliceSlot
  cases held : e.slot? placement o with
  | none => simp [held] at mem
  | some ids =>
    simp only [Option.getD_some]
    split
    · next empty => rw [gone, List.isEmpty_iff.1 empty, List.nil_append]
    · exact there _

/-- A slot that gets empty is taken out, so no slot is left with an empty list. -/
theorem slot?_spliceSlot_ne_nil (e : Entry) (placement : Placement) (o : String) (n : NodeId)
    (l : List NodeId) : (spliceSlot e placement o n l).slot? placement o ≠ some [] := by
  unfold spliceSlot
  cases held : e.slot? placement o with
  | none => simp [held]
  | some ids =>
    simp only
    split
    · rw [slot?_dropSlot_self]
      nofun
    · next filled =>
      rw [slot?_setSlot_self]
      simpa using filled

/-- A node that was put into a slot can give way to what was there again. -/
theorem splice_setSlot (out : n ∉ e.successors) :
    splice n ((e.slot? placement o).getD []) (e.setSlot placement o [n]).successors =
      e.successors := by
  obtain ⟨before, after, here, there, _⟩ := e.exists_around placement o
  have apart : n ∉ before := fun mem => out (here ▸ List.mem_append_left _ mem)
  rw [there [n], here, splice_append_right apart, splice_append_left (List.mem_singleton_self n),
    splice_nil_singleton]

end Entry

namespace Graph

open Layout

variable {g g' : Graph} {n r x : NodeId} {e : Entry} {s : Slot} {p : Position} {l : List NodeId}

/-! ## Entries in their order -/

/-- A new entry stands right behind that of its anchor. -/
theorem exists_ids_ensureEntry (new : n ∉ g.ids) (anchor : r ∈ g.ids) : ∃ front back,
    g.ids = front ++ r :: back ∧ (g.ensureEntry n (some r)).ids = front ++ r :: n :: back := by
  have entries : (g.ensureEntry n (some r)).ids =
      Assoc.keys (Assoc.putAfter r n {} g.entries.toList) := by
    simp only [ensureEntry, ids, OrderedMap.insertAfter, dif_neg (show n ∉ Assoc.keys _ from new)]
    rfl
  rw [entries]
  exact Assoc.exists_keys_putAfter anchor n {}

theorem ids_ensureEntry_of_mem (old : n ∈ g.ids) (anchor : Option NodeId) :
    (g.ensureEntry n anchor).ids = g.ids := by
  simp only [ensureEntry, ids, OrderedMap.insertAfter, dif_pos (show n ∈ Assoc.keys _ from old)]

theorem ids_ensureEntry_first (new : n ∉ g.ids) : (g.ensureEntry n none).ids = n :: g.ids := by
  simp only [ensureEntry, ids, OrderedMap.insertAfter, dif_neg (show n ∉ Assoc.keys _ from new)]
  rfl

theorem ids_erase (g : Graph) (n : NodeId) :
    ({ g with entries := g.entries.erase n } : Graph).ids = g.ids.filter (· ≠ n) :=
  g.entries.keys_erase_eq_filter n

theorem ids_placeAt_of_mem (old : n ∈ g.ids) (placement : Placement) (o : String) :
    (g.placeAt n r placement o).ids = g.ids := by
  rw [placeAt, ids_modifyEntry, ids_ensureEntry_of_mem (by rwa [ids_modifyEntry]),
    ids_modifyEntry]

theorem ids_placeAtRoot (new : n ∉ g.ids) : (g.placeAtRoot n).ids = n :: g.ids := by
  have placed : ({ g with root := some n }.ensureEntry n none).ids = n :: g.ids :=
    ids_ensureEntry_first (g := { g with root := some n }) new
  unfold placeAtRoot
  cases g.root with
  | none => exact placed
  | some previous =>
    simp only
    split
    · exact placed
    · rw [ids_modifyEntry, placed]

/-- A node that is inserted gets its entry right behind that of its reference, or the first one. -/
theorem ids_insert (run : insert n p g = .ok () g') (new : n ∉ g.ids) :
    (p.reference = none → g'.ids = n :: g.ids) ∧ ∀ r, p.reference = some r →
      ∃ front back, g.ids = front ++ r :: back ∧ g'.ids = front ++ r :: n :: back := by
  refine ⟨fun ref => insert_eq_placeAtRoot run ref ▸ ids_placeAtRoot new, fun r ref => ?_⟩
  obtain ⟨held, rfl⟩ := insert_eq_placeAt run ref
  have ids := ids_modifyEntry g r (·.setSlot p.placement p.output [n])
  rw [placeAt, ids_modifyEntry]
  exact ids ▸ exists_ids_ensureEntry (ids ▸ new) (ids ▸ held)

/-! ## Slots -/

/-- The list of a slot, if it is there. A missing list and an empty one are kept apart. -/
def held? (g : Graph) : Slot → Option (List NodeId)
  | .root => g.root.map ([·])
  | .south n o => (g.find? n).bind (·.slot? .south o)
  | .child n => (g.find? n).bind (·.slot? .child "")

/-- A slot of a node holds what its entry has in it. -/
theorem held?_beside (g : Graph) (n : NodeId) (placement : Placement) (o : String) :
    g.held? (.beside n placement o) = (g.find? n).bind (·.slot? placement o) := by
  cases placement <;> rfl

/-- The occupants of a slot are those on the list that it holds, if it holds one. -/
theorem occupants_eq (g : Graph) (s : Slot) : g.occupants s = (g.held? s).getD [] := by
  cases s with
  | root => cases root : g.root <;> simp [occupants, held?, root]
  | south n o | child n => rfl

/-- A node with the same entry has the same successors. -/
theorem successors_congr (same : g'.find? x = g.find? x) : g'.successors x = g.successors x := by
  rw [Graph.successors, Graph.successors, same]

/-- A slot is the same if the root and the entry of its owner are. -/
theorem held?_congr {t : Slot} (root : g'.root = g.root)
    (same : ∀ m, t.owner? = some m → g'.find? m = g.find? m) : g'.held? t = g.held? t := by
  cases t with
  | root => rw [held?, held?, root]
  | south m o | child m => rw [held?, held?, same m rfl]

/-- A change of one slot of an entry leaves all other slots alone. -/
theorem held?_modifyEntry {f : Entry → Entry} {placement : Placement} {o : String}
    (other : ∀ (e : Entry) placement' o', Slot.beside r placement' o' ≠ .beside r placement o →
      (f e).slot? placement' o' = e.slot? placement' o') {t : Slot}
    (ts : t ≠ .beside r placement o) : (g.modifyEntry r f).held? t = g.held? t := by
  have slots : ∀ m placement' o', t = .beside m placement' o' →
      (g.modifyEntry r f).held? t = g.held? t := by
    rintro m placement' o' rfl
    rw [held?_beside, held?_beside, find?_modifyEntry]
    by_cases e : r = m
    · subst e
      cases he : g.find? r with
      | none => simp
      | some e => simpa using other e placement' o' ts
    · rw [if_neg e]
  cases t with
  | root => rfl
  | south m o' => exact slots m .south o' rfl
  | child m => exact slots m .child "" rfl

/-! ## Bypassing -/

/-- A bypass touches the entry of the reference only. -/
theorem find?_bypass (off : p.reference ≠ some x) : (g.bypass n p l).find? x = g.find? x := by
  unfold bypass
  cases ref : p.reference with
  | none => rfl
  | some r =>
    have ne : r ≠ x := fun e => off (e ▸ ref)
    simp only
    rw [find?_modifyEntry, if_neg ne]

/-- A bypass touches the slot of the node only. -/
theorem held?_bypass {t : Slot} (ts : t ≠ s) : (g.bypass n s.position l).held? t = g.held? t := by
  unfold bypass
  rw [Slot.reference_position]
  cases o : s.owner? with
  | none =>
    have off : t ≠ .root := Slot.eq_root_of_owner o ▸ ts
    cases t with
    | root => exact absurd rfl off
    | south m o | child m => rfl
  | some r =>
    exact held?_modifyEntry (fun e _ _ ne => slot?_spliceSlot_other e n l ne)
      ((beside_position o).symm ▸ ts)

/-- A slot that gets empty is taken out. -/
theorem held?_bypass_self (g : Graph) (n : NodeId) (s : Slot) (l : List NodeId) :
    (g.bypass n s.position l).held? s ≠ some [] := by
  unfold bypass
  rw [Slot.reference_position]
  cases o : s.owner? with
  | none =>
    rw [Slot.eq_root_of_owner o]
    cases l <;> simp [held?]
  | some r =>
    simp only
    rw [← beside_position o, held?_beside, find?_modifyEntry, if_pos rfl, beside_position o]
    cases g.find? r with
    | none => simp
    | some e => simpa using Entry.slot?_spliceSlot_ne_nil e _ _ n l

/-- Without an entry, the slots of other nodes hold what they held. -/
theorem held?_erase {t : Slot} (off : t.owner? ≠ some n) :
    ({ g with entries := g.entries.erase n } : Graph).held? t = g.held? t :=
  held?_congr rfl fun m om => by
    have ne : n ≠ m := fun e => off (e ▸ om)
    rw [find?_erase, if_neg ne]

theorem successors_erase (ne : n ≠ x) :
    ({ g with entries := g.entries.erase n } : Graph).successors x = g.successors x :=
  successors_congr ((find?_erase g n x).trans (if_neg ne))

/-- A node is a successor of the owner of its slot only. -/
theorem Orderly.not_mem_successors (h : g.Orderly) (hn : n ∈ g.occupants s)
    (off : s.owner? ≠ some x) : n ∉ g.successors x := by
  intro mem
  obtain ⟨t, ot, ht⟩ := mem_successors.1 mem
  exact off (h.slot_unique ht hn ▸ ot)

/-- The nodes that close the gap stand in the place of the one that was bypassed. -/
theorem Orderly.successors_bypass (h : g.Orderly) (hn : n ∈ g.occupants s) (l : List NodeId)
    (x : NodeId) : (g.bypass n s.position l).successors x = splice n l (g.successors x) := by
  by_cases o : s.owner? = some x
  · -- the gap is in a slot of `x` itself
    obtain ⟨e, he⟩ := mem_ids_iff.1 (owner_mem_ids hn o)
    have held : n ∈ (e.slot? s.position.placement s.position.output).getD [] := by
      rwa [← beside_position o, occupants_beside, he] at hn
    have changed : (g.bypass n s.position l).find? x =
        some (spliceSlot e s.position.placement s.position.output n l) := by
      unfold bypass
      rw [Slot.reference_position, o]
      simp only
      rw [find?_modifyEntry, if_pos rfl, he, Option.map_some]
    rw [successors_of_find? changed, successors_of_find? he]
    exact Entry.successors_spliceSlot held (nodup_successors h he) l
  · have kept : (g.bypass n s.position l).find? x = g.find? x :=
      find?_bypass (s.reference_position.symm ▸ o)
    rw [successors_congr kept, splice_of_not_mem (h.not_mem_successors hn o)]

/-- The root gives way like a node in any other slot. -/
theorem Orderly.root_bypass (h : g.Orderly) (hn : n ∈ g.occupants s)
    (few : s = .root → l.length ≤ 1) :
    (g.bypass n s.position l).root.toList = splice n l g.root.toList := by
  have layout := congrFun (occupants_bypass hn few) .root
  refine layout.trans ?_
  by_cases top : Slot.root = s
  · rw [if_pos top, ← top]
    rfl
  · rw [if_neg top]
    exact (splice_of_not_mem (fun mem => top (h.slot_unique (s := .root) mem hn)) l).symm

/-! ## Putting a node into a slot -/

theorem successors_behind (l : List NodeId) (c : Option (List NodeId)) :
    (⟨behind l, c⟩ : Entry).successors = l ++ c.getD [] := by
  by_cases none : l = [] <;>
    simp [Entry.successors, Entry.nextIds, Entry.childIds, behind, none, Outputs.allIds,
      OrderedMap.single]

/-- A node stands in a slot that it was not in. What was there follows it on its default output,
and if it gives way to that everything is as before. -/
structure Planted (g : Graph) (n : NodeId) (p : Position) (g' : Graph) : Prop where
  entry : g'.find? n = some ⟨behind (g.occupants p.slot), (g.find? n).bind Entry.children⟩
  here : g'.held? p.slot = some [n]
  others : ∀ m, m ≠ n → p.reference ≠ some m → g'.find? m = g.find? m
  slots : ∀ t : Slot, t ≠ p.slot → t.owner? ≠ some n → g'.held? t = g.held? t
  root : splice n (g.occupants p.slot) g'.root.toList = g.root.toList
  successors : ∀ x, x ≠ n → splice n (g.occupants p.slot) (g'.successors x) = g.successors x

namespace Planted

/-- The planted node is alone in its slot. -/
theorem occupants_here (h : g.Planted n p g') : g'.occupants p.slot = [n] := by
  rw [occupants_eq, h.here, Option.getD_some]

/-- Behind it is what was in the slot before. -/
theorem occupants_behind (h : g.Planted n p g') :
    g'.occupants (.south n "") = g.occupants p.slot := by
  rw [occupants_south h.entry]
  by_cases none : g.occupants p.slot = [] <;> simp [Entry.nextOn, behind, none]

/-- The node has nothing on its other outputs. -/
theorem held?_south (h : g.Planted n p g') {o : String} (other : o ≠ "") :
    g'.held? (.south n o) = none := by
  rw [held?, h.entry]
  by_cases none : g.occupants p.slot = [] <;> simp [Entry.slot?, behind, none, Ne.symm other]

/-- The node keeps what is inside it. -/
theorem held?_child (h : g.Planted n p g') : g'.held? (.child n) = g.held? (.child n) := by
  rw [held?, held?, h.entry]
  cases g.find? n <;> rfl

/-- Inside it is what was there, which is something only for a node that is moved. -/
theorem occupants_child (h : g.Planted n p g') :
    g'.occupants (.child n) = g.occupants (.child n) := by
  rw [occupants_eq, occupants_eq, h.held?_child]

/-- A node that had no entry changes its slot and, for what it displaced, its default output. -/
theorem held?_of_new (h : g.Planted n p g') (new : n ∉ g.ids) (ts : s ≠ p.slot)
    (default : s ≠ .south n "") : g'.held? s = g.held? s := by
  by_cases own : s.owner? = some n
  · have missing : g.find? n = none := find?_eq_none_iff.2 new
    cases s with
    | root => cases own
    | south m o =>
      cases own
      rw [h.held?_south fun e => default (e ▸ rfl), held?, missing, Option.bind_none]
    | child m =>
      cases own
      exact h.held?_child
  · exact h.slots s ts own

/-- So these two are its successors. -/
theorem successors_self (h : g.Planted n p g') :
    g'.successors n = g.occupants p.slot ++ g.occupants (.child n) := by
  rw [successors_of_find? h.entry, successors_behind, occupants_eq g (.child n)]
  cases he : g.find? n <;> simp [held?, he, Entry.slot?]

end Planted

section PlaceAt

variable (ne : r ≠ n) (placement : Placement) (o : String)

include ne

/-- Placing a node beside another one writes two entries. -/
theorem find?_placeAt (m : NodeId) : (g.placeAt n r placement o).find? m =
    if n = m then
      some ⟨behind (g.occupants (.beside r placement o)), (g.find? n).bind Entry.children⟩
    else if r = m then (g.find? m).map (·.setSlot placement o [n])
    else g.find? m := by
  unfold placeAt
  rw [find?_modifyEntry, find?_ensureEntry, find?_modifyEntry, find?_modifyEntry, if_neg ne,
    occupants_beside]
  by_cases e : n = m
  · subst e
    cases g.find? n <;> simp
  · simp [e]

/-- It leaves all slots but that of the reference and those of the node. -/
theorem held?_placeAt {t : Slot} (ts : t ≠ .beside r placement o) (own : t.owner? ≠ some n) :
    (g.placeAt n r placement o).held? t = g.held? t := by
  calc (g.placeAt n r placement o).held? t
    _ = (g.modifyEntry r (·.setSlot placement o [n])).held? t := by
      refine held?_congr rfl fun m om => ?_
      have other : n ≠ m := fun e => own (e ▸ om)
      rw [find?_placeAt ne, if_neg other, find?_modifyEntry]
    _ = g.held? t := held?_modifyEntry (fun e _ _ other => e.slot?_setSlot_other [n] other) ts

end PlaceAt

theorem not_mem_successors_of_out (out : ∀ t, n ∉ g.occupants t) (x : NodeId) :
    n ∉ g.successors x := fun mem => by
  obtain ⟨t, _, ht⟩ := mem_successors.1 mem
  exact out t ht

/-- A node that stood nowhere is planted beside its reference, -/
theorem planted_placeAt (out : ∀ t, n ∉ g.occupants t) (hr : r ∈ g.ids) (ne : r ≠ n)
    (ref : p.reference = some r) : g.Planted n p (g.placeAt n r p.placement p.output) := by
  have slot : p.slot = .beside r p.placement p.output := by simp [Position.slot, ref]
  have find := find?_placeAt (g := g) ne p.placement p.output
  have root : (g.placeAt n r p.placement p.output).root = g.root := rfl
  obtain ⟨e, he⟩ := mem_ids_iff.1 hr
  refine ⟨?_, ?_, fun m mn off => ?_, fun t ts own => ?_, ?_, fun x xn => ?_⟩
  · rw [find, if_pos rfl, slot]
  · rw [slot, held?_beside, find, if_neg ne.symm, if_pos rfl, he]
    exact Entry.slot?_setSlot_self e _ _ [n]
  · have rm : r ≠ m := fun e => off (e ▸ ref)
    rw [find, if_neg mn.symm, if_neg rm]
  · exact held?_placeAt ne _ _ (slot ▸ ts) own
  · rw [root, splice_of_not_mem]
    exact out .root
  · by_cases rx : r = x
    · -- the reference is the only other node whose successors change
      subst rx
      have changed := find r
      rw [if_neg xn.symm, if_pos rfl, he, Option.map_some] at changed
      rw [slot, occupants_beside, successors_of_find? changed, successors_of_find? he, he]
      exact Entry.splice_setSlot (successors_of_find? he ▸ not_mem_successors_of_out out r)
    · have same := find x
      rw [if_neg xn.symm, if_neg rx] at same
      rw [successors_congr same]
      exact splice_of_not_mem (not_mem_successors_of_out out x) _

theorem find?_placeAtRoot (new : n ∉ g.ids) (off : g.root ≠ some n) (m : NodeId) :
    (g.placeAtRoot n).find? m =
      if n = m then some ⟨behind (g.occupants .root), none⟩ else g.find? m := by
  have none_at := find?_eq_none_iff.2 new
  have placed : ({ g with root := some n }.ensureEntry n none).find? m =
      if n = m then some {} else g.find? m := by
    rw [find?_ensureEntry]
    simp only [find?] at none_at ⊢
    rw [none_at, Option.getD_none]
  unfold placeAtRoot
  cases root : g.root with
  | none =>
    simp only
    rw [placed, occupants_root_eq_nil.2 root]
    rfl
  | some previous =>
    have ne : previous ≠ n := fun e => off (e ▸ root)
    simp only [if_neg ne]
    rw [find?_modifyEntry, placed, occupants_root root]
    by_cases e : n = m <;> simp [e]

/-- or at the root if it has none. -/
theorem planted_placeAtRoot (new : n ∉ g.ids) (out : ∀ t, n ∉ g.occupants t)
    (ref : p.reference = none) : g.Planted n p (g.placeAtRoot n) := by
  have slot : p.slot = .root := by simp [Position.slot, ref]
  have find := find?_placeAtRoot new fun root => out .root (mem_occupants_root.2 root)
  have root : (g.placeAtRoot n).root = some n := by
    unfold placeAtRoot
    cases g.root with
    | none => rfl
    | some previous =>
      simp only
      split <;> rfl
  refine ⟨?_, ?_, fun m mn _ => ?_, fun t ts own => ?_, ?_, fun x xn => ?_⟩
  · rw [find, if_pos rfl, slot, find?_eq_none_iff.2 new]
    rfl
  · rw [slot, held?, root]
    rfl
  · rw [find, if_neg mn.symm]
  · rw [slot] at ts
    cases t with
    | root => exact absurd rfl ts
    | south m o | child m =>
      have ne : n ≠ m := fun e => own (e ▸ rfl)
      rw [held?, held?, find, if_neg ne]
  · rw [root, slot]
    exact splice_nil_singleton n _
  · rw [successors_congr ((find x).trans (if_neg xn.symm))]
    exact splice_of_not_mem (not_mem_successors_of_out out x) _

/-- So an insertion plants the node. -/
theorem Orderly.planted_insert (h : g.Orderly) (new : n ∉ g.ids)
    (run : Graph.insert n p g = .ok () g') : g.Planted n p g' := by
  have out : ∀ t, n ∉ g.occupants t := fun t mem => new (h.mem mem)
  cases ref : p.reference with
  | none =>
    obtain rfl := insert_eq_placeAtRoot run ref
    exact planted_placeAtRoot new out ref
  | some r =>
    obtain ⟨held, rfl⟩ := insert_eq_placeAt run ref
    exact planted_placeAt out held (fun e => new (e ▸ held)) ref

end Graph

end Autoflow
