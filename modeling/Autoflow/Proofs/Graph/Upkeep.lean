import Autoflow.Proofs.Checks
import Autoflow.Proofs.Graph.Entries

/-!
# Orderly graphs

In an orderly graph every node in a slot has an entry and stands in that slot only. A graph need
not be a tree for that, and every edit that succeeds keeps it (`Orderly.insert` and its siblings),
with a layout that is known.
-/

namespace Autoflow

namespace Graph

variable {g g' : Graph} {n r old new x : NodeId} {p : Position} {o : String}

theorem orderly_empty : Graph.empty.Orderly := by
  have nothing : ∀ t x, x ∉ Graph.empty.occupants t := by
    rintro (_ | _ | _) x mem <;> cases mem
  exact ⟨fun mem => absurd mem (nothing _ _), fun mem => absurd mem (nothing _ _),
    fun t => List.eq_nil_iff_forall_not_mem.2 (nothing t) ▸ List.nodup_nil,
    fun mem => absurd mem (nothing _ _)⟩

/-- A reference that a node was inserted at has an entry. -/
theorem reference_of_insert (run : insert n p g = .ok () g') (ref : p.reference = some r) :
    r ∈ g.ids :=
  (insert_eq_placeAt run ref).1

/-- An insertion plants the node. -/
theorem Orderly.insert (h : g.Orderly) (fresh : n ∉ g.ids) (run : insert n p g = .ok () g') :
    g'.occupants = g.occupants.plant p.slot n ∧ g'.Orderly := by
  have held : ∀ r, p.reference = some r → r ∈ g.ids := fun r => reference_of_insert run
  obtain ⟨g₁, run₁, layout, ids⟩ :=
    exists_insert fresh (fun root => fresh (h.mem (mem_occupants_root.2 root))) held
  rw [run] at run₁
  cases run₁
  refine ⟨layout, ?_⟩
  unfold Orderly
  rw [layout, show {m | m ∈ g'.ids} = Set.insert n {m | m ∈ g.ids} from Set.ext ids]
  refine Layout.Orderly.plant h (fun t mem => fresh (h.mem mem)) (fun t south => ?_) (fun own => ?_)
    fun a owner => held a (p.owner_slot ▸ owner)
  · exact occupants_eq_nil fresh (Slot.owner_of_isSouthOf south)
  · exact fresh (held n (p.owner_slot ▸ own))

/-- A node with an entry stands in a slot that is not its own. -/
structure Stands (g : Graph) (n : NodeId) (s : Slot) (e : Entry) : Prop where
  entry : g.find? n = some e
  position : g.position n = .ok s.position
  mem : n ∈ g.occupants s
  own : s.owner? ≠ some n

/-- The nodes that a node leaves when it is taken out with or without what is inside it. -/
def leaving (e : Entry) (inside : Bool) : List NodeId := if inside then e.nextIds else e.successors

/-- Those of several nodes that close the gap in a slot, at the root only the first one. -/
def closing (s : Slot) (l : List NodeId) : List NodeId := if s = .root then l.take 1 else l

/-- Some of the nodes close the gap, in their order, -/
theorem closing_sublist (s : Slot) (l : List NodeId) : (closing s l).Sublist l := by
  unfold closing
  split
  · exact List.take_sublist 1 l
  · exact List.Sublist.refl l

/-- and at the root one of them at most. -/
theorem length_closing {s : Slot} (top : s = .root) (l : List NodeId) :
    (closing s l).length ≤ 1 := by
  rw [closing, if_pos top]
  exact List.length_take_le 1 l

/-- A bypass puts only those in the place of the node. -/
theorem bypass_closing (g : Graph) (n : NodeId) (s : Slot) (l : List NodeId) :
    g.bypass n s.position (closing s l) = g.bypass n s.position l := by
  cases s with
  | root => cases l <;> rfl
  | south m o | child m => rfl

/-- What a successful removal does to a node that has an entry. -/
theorem remove_eq_bypass {keepInfo : Bool} (run : remove n keepInfo g = .ok () g')
    (there : n ∈ g.ids) : ∃ s e, g.Stands n s e ∧
      g' = let left := g.bypass n s.position (closing s (leaving e keepInfo))
        if keepInfo then left else { left with entries := left.entries.erase n } := by
  obtain ⟨e, he⟩ := mem_ids_iff.1 there
  rw [remove_eq] at run
  rw [he] at run
  cases at_p : g.position n with
  | error fault =>
    simp only [at_p] at run
    cases run
  | ok p =>
    obtain ⟨s, rfl, mem, own⟩ := mem_occupants_of_position at_p
    simp only [at_p] at run
    cases run
    refine ⟨s, e, ⟨he, at_p, mem, own⟩, ?_⟩
    rw [bypass_closing]
    rfl

/-- A removal extracts the node, with what it leaves in its place. -/
theorem Orderly.remove (h : g.Orderly) (there : n ∈ g.ids)
    (run : remove n false g = .ok () g') : ∃ s e, g.Stands n s e ∧
      g'.occupants = g.occupants.extract n s (closing s (leaving e false)) false ∧
        g'.Orderly := by
  obtain ⟨s, e, stands, rfl⟩ := remove_eq_bypass run there
  have sub : (closing s (leaving e false)).Sublist e.successors := closing_sublist s _
  have layout := occupants_bypass_erase stands.mem fun top => length_closing top (leaving e false)
  refine ⟨s, e, stands, layout, ?_⟩
  unfold Orderly
  refine layout ▸ Layout.Orderly.extract h stands.mem stands.own
    (fun x hx => (mem_successors_iff_givenUp stands.entry).1 (sub.subset hx))
    ((nodup_successors h stands.entry).sublist sub) (fun x hx ne => ?_) nofun
  exact mem_ids_erase.2 ⟨ne, (ids_bypass g n _ _).symm ▸ hx⟩

/-- A replacement swaps the two nodes. -/
theorem Orderly.replace (h : g.Orderly) (fresh : new ∉ g.ids)
    (run : replace old new g = .ok () g') :
    g'.occupants = g.occupants.relabel (Equiv.swap old new) ∧ g'.Orderly := by
  obtain ⟨p, e, at_p, he, _⟩ := replace_eq_ok run
  obtain ⟨g₁, run₁, layout, _, orderly⟩ := h.exists_replace (mem_ids_of_find? he) fresh at_p
  rw [run] at run₁
  cases run₁
  exact ⟨layout, orderly⟩

/-- A move to a slot of another node takes the node out of its slot and puts it there. -/
theorem move_eq_placeAt (run : move n p g = .ok () g') (there : n ∈ g.ids)
    (ref : p.reference = some r) : r ∈ g.ids ∧ ∃ s e, g.Stands n s e ∧
      g' = (g.bypass n s.position (closing s e.nextIds)).placeAt n r p.placement p.output := by
  obtain ⟨g₁, left, put⟩ := move_eq_ok run
  obtain ⟨s, e, stands, rfl⟩ := remove_eq_bypass left there
  obtain ⟨held, rfl⟩ := insert_eq_placeAt put ref
  simp only [leaving, if_true, ids_bypass] at held
  exact ⟨held, s, e, stands, rfl⟩

/-- A move extracts the node without what is inside it and plants it at the position. -/
theorem Orderly.move (h : g.Orderly) (there : n ∈ g.ids) (ref : p.reference = some r) (ne : r ≠ n)
    (run : move n p g = .ok () g') : ∃ s e, g.Stands n s e ∧ g'.occupants =
      (g.occupants.extract n s (closing s (leaving e true)) true).plant p.slot n ∧ g'.Orderly := by
  obtain ⟨hr, s, e, stands, placed⟩ := move_eq_placeAt run there ref
  have sub : (closing s (leaving e true)).Sublist e.nextIds := closing_sublist s _
  have layout := occupants_bypass_placeAt stands.mem
    (fun top => length_closing top (leaving e true)) ref hr ne
  rw [leaving, if_pos rfl, ← placed] at layout
  refine ⟨s, e, stands, layout, ?_⟩
  unfold Orderly
  rw [layout, show {m | m ∈ g'.ids} = {m | m ∈ g.ids} from
    Set.ext fun m => mem_ids_move run there]
  exact Layout.Orderly.replant h stands.mem stands.own
    (fun x hx => (mem_nextIds_iff_givenUp stands.entry).1 (sub.subset hx))
    ((nodup_nextIds h stands.entry).sublist sub) (p.owner_slot.trans ref) hr ne

/-! ## Outputs in use -/

/-- The outputs under which the entry of a node lists successors. -/
def outputsInUse (g : Graph) (n : NodeId) : List String :=
  ((g.find? n).bind Entry.next).elim [] OrderedMap.keys

/-- The outputs in use are those with a list, empty or not. -/
theorem outputsInUse_eq {e : Entry} {outputs : Outputs} (he : g.find? n = some e)
    (next : e.next = some outputs) : g.outputsInUse n = outputs.keys := by
  simp [outputsInUse, he, next]

/-- Only a node with an entry has outputs in use. -/
theorem mem_ids_of_outputsInUse (used : o ∈ g.outputsInUse n) : n ∈ g.ids := by
  unfold outputsInUse at used
  cases he : g.find? n with
  | none => simp [he] at used
  | some e => exact mem_ids_of_find? he

/-- An output of a pruned graph is in use if it leads somewhere. -/
theorem Pruned.mem_outputsInUse (h : g.Pruned) :
    o ∈ g.outputsInUse n ↔ g.occupants (.south n o) ≠ [] := by
  unfold outputsInUse
  cases he : g.find? n with
  | none => simp [occupants, he]
  | some e =>
    rw [occupants_south he]
    unfold Entry.nextOn
    cases next : e.next with
    | none => simp [next]
    | some outputs =>
      have full := (h n e he).slots .south o
      simp only [Entry.slot?, next, Option.bind_some] at full
      simp only [next, Option.bind_some, Option.elim_some, OrderedMap.mem_keys_iff]
      cases held : outputs.get? o with
      | none => simp
      | some ids =>
        rw [held] at full
        simpa using full

end Graph

end Autoflow
