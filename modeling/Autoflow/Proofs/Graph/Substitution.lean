import Autoflow.Proofs.Graph.Order
import Autoflow.Proofs.Graph.Relabeling

/-!
# Replacing as renaming

A replacement changes the name of one entry and one slot, the one that it finds for the old node.
In a valid graph no other slot holds that node (`Orderly.image_of_owner`, `Orderly.image_of_other`),
so the result is the graph with the node renamed wherever it occurs, and with its entry at the end
(`IsTree.replace_eq_relabel`). Renaming can be taken back, so a second replacement restores the
graph but for the place of the entry (`replace_renames`).
-/

namespace Autoflow

namespace OrderedMap

variable {κ ν : Type} [DecidableEq κ] {m : OrderedMap κ ν}

/-- A key that is there keeps its place, -/
theorem keys_insert_of_mem {k : κ} (mem : k ∈ m.keys) (v : ν) : (m.insert k v).keys = m.keys :=
  Assoc.keys_put_of_mem mem

/-- and a new one comes last. -/
theorem keys_insert_of_not_mem {k : κ} (new : k ∉ m.keys) (v : ν) :
    (m.insert k v).keys = m.keys ++ [k] :=
  (congrArg Assoc.keys (Assoc.put_of_not_mem new)).trans List.map_append

end OrderedMap

namespace Entry

variable {e : Entry} {f : NodeId → NodeId} {placement : Placement} {o : String} {ids : List NodeId}

/-- A slot that is there can be set without another order of the outputs. -/
theorem keys_setSlot (held : e.slot? placement o = some ids) (l : List NodeId) :
    (e.setSlot placement o l).next.map OrderedMap.keys = e.next.map OrderedMap.keys := by
  cases placement with
  | south =>
    obtain ⟨outputs, next, held⟩ := Option.bind_eq_some_iff.1 held
    have listed : o ∈ outputs.keys := OrderedMap.mem_keys_iff.2 ⟨ids, held⟩
    simp [setSlot, next, OrderedMap.keys_insert_of_mem listed]
  | child => rfl

/-- The image of an entry differs from it in one slot only, if all that the other ones hold
stays. -/
theorem image_eq_setSlot {n : NodeId} (held : e.slot? placement o = some ids)
    (others : ∀ placement' o', Slot.beside n placement' o' ≠ .beside n placement o →
      ∀ x ∈ (e.slot? placement' o').getD [], f x = x) :
    e.image f id = e.setSlot placement o (ids.map f) := by
  refine ext_slot? (by rw [keys_image, keys_setSlot held]) fun placement' o' => ?_
  rw [Graph.slot?_image]
  by_cases same : Slot.beside n placement' o' = .beside n placement o
  · have alike : ∀ e : Entry, e.slot? placement' o' = e.slot? placement o := fun e => by
      cases placement <;> cases placement' <;> cases same <;> rfl
    rw [alike, alike, slot?_setSlot_self, held, Option.map_some]
  · rw [slot?_setSlot_other _ _ same]
    cases there : e.slot? placement' o' with
    | none => rfl
    | some l =>
      have stays := others placement' o' same
      rw [there, Option.getD_some] at stays
      rw [Option.map_some, List.map_congr_left stays, List.map_id']

end Entry

namespace Graph

variable {g : Graph} {old new n m x : NodeId} {e : Entry} {s t : Slot}

/-- Two graphs with the same root, the same nodes in the same order and the same entries are the
same. -/
theorem ext_find? {h : Graph} (root : g.root = h.root) (ids : g.ids = h.ids)
    (entries : ∀ n, g.find? n = h.find? n) : g = h := by
  obtain ⟨_, _⟩ := g
  obtain ⟨_, _⟩ := h
  cases root
  exact congrArg _ (OrderedMap.ext_get? ids entries)

/-! ## The last entry -/

/-- A graph with the entry of a node behind all others. -/
def entryLast (g : Graph) (n : NodeId) : Graph :=
  match g.find? n with
  | some e => g.handOver n n e
  | none => g

/-- An entry that is handed over comes last. -/
theorem ids_handOver (fresh : new = old ∨ new ∉ g.ids) (e : Entry) :
    (g.handOver old new e).ids = g.ids.filter (· ≠ old) ++ [new] := by
  have rest : (g.entries.erase old).keys = g.ids.filter (· ≠ old) := ids_erase g old
  have out : new ∉ (g.entries.erase old).keys := by
    rw [rest, List.mem_filter]
    rintro ⟨there, other⟩
    have ne : new ≠ old := by simpa using other
    exact fresh.elim ne fun off => off there
  rw [← rest]
  exact OrderedMap.keys_insert_of_not_mem out e

/-- To put an entry last only changes the order of the ids. -/
theorem ids_entryLast (there : n ∈ g.ids) :
    (g.entryLast n).ids = g.ids.filter (· ≠ n) ++ [n] := by
  obtain ⟨e, he⟩ := mem_ids_iff.1 there
  rw [entryLast, he]
  exact ids_handOver (Or.inl rfl) e

theorem root_entryLast (g : Graph) (n : NodeId) : (g.entryLast n).root = g.root := by
  unfold entryLast
  cases g.find? n <;> rfl

theorem find?_entryLast (g : Graph) (n m : NodeId) : (g.entryLast n).find? m = g.find? m := by
  unfold entryLast
  cases he : g.find? n with
  | none => rfl
  | some e =>
    simp only [find?_handOver]
    by_cases same : n = m
    · rw [if_pos same, ← same, he]
    · rw [if_neg same, if_neg same]

/-- What is last stays last. -/
theorem entryLast_entryLast (g : Graph) (n : NodeId) :
    (g.entryLast n).entryLast n = g.entryLast n := by
  by_cases there : n ∈ g.ids
  · refine ext_find? (root_entryLast _ n) ?_ (find?_entryLast _ n)
    have last : n ∈ (g.entryLast n).ids := by
      rw [ids_entryLast there]
      exact List.mem_append_right _ (List.mem_singleton_self n)
    rw [ids_entryLast last, ids_entryLast there, List.filter_append, List.filter_filter,
      List.filter_cons_of_neg (by simp), List.filter_nil, List.append_nil]
    simp only [Bool.and_self]
  · have missing := find?_eq_none_iff.2 there
    simp [entryLast, missing]

/-- Renaming the nodes and putting an entry last can be done in either order. -/
theorem relabel_entryLast (σ : Equiv.Perm NodeId) (g : Graph) (n : NodeId) :
    (g.entryLast n).relabel σ = (g.relabel σ).entryLast (σ n) := by
  unfold entryLast
  rw [find?_image_apply]
  cases g.find? n with
  | none => rfl
  | some e => exact image_handOver σ g n n e

/-! ## Replacing -/

section

variable (h : g.Orderly) (mem : old ∈ g.occupants s) (fresh : new ∉ g.ids)

include h mem fresh

/-- In the other slots no node gets another name. -/
theorem Orderly.swap_eq_self (there : x ∈ g.occupants t) (other : t ≠ s) :
    Equiv.swap old new x = x :=
  Equiv.swap_apply_of_ne_of_ne (fun same => other (h.slot_unique (same ▸ there) mem))
    fun same => fresh (same ▸ h.mem there)

/-- Entries other than that of the owner do not mention a node. -/
theorem Orderly.image_of_other (hm : g.find? m = some e) (other : s.owner? ≠ some m) :
    e.image (Equiv.swap old new) id = e := by
  refine Entry.image_eq_self e fun x held => ?_
  rw [← successors_of_find? hm] at held
  obtain ⟨t, owner, there⟩ := mem_successors.1 held
  exact h.swap_eq_self mem fresh there fun same => other (same ▸ owner)

/-- The entries of nodes that do not have the old node beside them are not changed by the swap. -/
theorem Orderly.find?_image_of_other (other : s.owner? ≠ some m) :
    (g.find? m).map (Entry.image (Equiv.swap old new) id) = g.find? m := by
  cases hm : g.find? m with
  | none => rfl
  | some e => rw [Option.map_some, h.image_of_other mem fresh hm other]

/-- The owner mentions a node in the slot where it stands, once. -/
theorem Orderly.image_of_owner (hm : g.find? m = some e) (owner : s.owner? = some m) :
    e.image (Equiv.swap old new) id =
      match e.slot? s.position.placement s.position.output with
      | some ids => e.setSlot s.position.placement s.position.output (splice old [new] ids)
      | none => e := by
  have occupants : ∀ placement o,
      g.occupants (.beside m placement o) = (e.slot? placement o).getD [] := fun placement o => by
    rw [occupants_beside, hm, Option.bind_some]
  have here := occupants s.position.placement s.position.output
  rw [beside_position owner] at here
  cases held : e.slot? s.position.placement s.position.output with
  | none =>
    rw [here, held] at mem
    exact (List.not_mem_nil mem).elim
  | some ids =>
    rw [held, Option.getD_some] at here
    have distinct : ids.Nodup := here ▸ h.nodup s
    have off : new ∉ ids := fun there => fresh (h.mem (here ▸ there))
    simp only [splice_singleton_eq_map distinct off]
    refine Entry.image_eq_setSlot (n := m) held fun placement o other x there => ?_
    rw [beside_position owner] at other
    rw [← occupants] at there
    exact h.swap_eq_self mem fresh there other

/-- The root is not changed either if the old node is not the root. -/
theorem Orderly.root_of_other (other : s ≠ .root) :
    g.root.map (Equiv.swap old new) = g.root := by
  cases top : g.root with
  | none => rfl
  | some r => rw [Option.map_some, h.swap_eq_self mem fresh (mem_occupants_root.2 top) other.symm]

end

theorem root_relabel_entryLast (f : NodeId → NodeId) (g : Graph) (n : NodeId) :
    ((g.entryLast n).relabel f).root = g.root.map f :=
  congrArg (Option.map f) (root_entryLast g n)

theorem ids_relabel_entryLast (there : old ∈ g.ids) (fresh : new ∉ g.ids) :
    ((g.entryLast old).relabel (Equiv.swap old new)).ids = g.ids.filter (· ≠ old) ++ [new] := by
  have others : (g.ids.filter (· ≠ old)).map (Equiv.swap old new) = g.ids.filter (· ≠ old) := by
    refine (List.map_congr_left fun x mem => ?_).trans (List.map_id _)
    obtain ⟨known, kept⟩ := List.mem_filter.1 mem
    exact Equiv.swap_apply_of_ne_of_ne (by simpa using kept) fun same => fresh (same ▸ known)
  rw [ids_image, ids_entryLast there, List.map_append, others, List.map_singleton,
    Equiv.swap_apply_left]

/-- In the relabelled graph the new node has the entry of the old one, and the others have theirs,
renamed. -/
theorem find?_relabel_entryLast (he : g.find? old = some e) (fresh : new ∉ g.ids)
    (fixed : e.image (Equiv.swap old new) id = e) (n : NodeId) :
    ((g.entryLast old).relabel (Equiv.swap old new)).find? n =
      if new = n then some e else if old = n then none
      else (g.find? n).map (Entry.image (Equiv.swap old new) id) := by
  rw [find?_image, find?_entryLast, Equiv.symm_swap]
  by_cases is_new : new = n
  · rw [if_pos is_new, ← is_new, Equiv.swap_apply_right, he, Option.map_some, fixed]
  · by_cases is_old : old = n
    · rw [if_neg is_new, if_pos is_old, ← is_old, Equiv.swap_apply_left, find?_eq_none_iff.2 fresh]
      rfl
    · rw [if_neg is_new, if_neg is_old,
        Equiv.swap_apply_of_ne_of_ne (Ne.symm is_old) (Ne.symm is_new)]

/-- In a valid graph a replacement by a new node is a renaming. -/
theorem IsTree.replace_eq_relabel (tree : g.IsTree) (there : old ∈ g.ids) (fresh : new ∉ g.ids) :
    replace old new g = .ok () ((g.entryLast old).relabel (Equiv.swap old new)) := by
  have orderly : g.Orderly := tree.toOrderly
  obtain ⟨g', run, _⟩ := tree.exists_replace there fresh
  rw [run]
  refine congrArg (EStateM.Result.ok ()) ?_
  obtain ⟨p, e, at_p, he, rfl⟩ := replace_eq_ok run
  obtain ⟨s, rfl, mem, own⟩ := mem_occupants_of_position at_p
  have ids := ids_relabel_entryLast there fresh
  rw [← ids_handOver (Or.inr fresh) e] at ids
  have entries := find?_relabel_entryLast he fresh (orderly.image_of_other mem fresh he own)
  rw [Slot.reference_position]
  cases owner : s.owner? with
  | none =>
    obtain rfl := Slot.eq_root_of_owner owner
    refine ext_find? ?_ ids.symm fun m => ?_
    · rw [root_relabel_entryLast, mem_occupants_root.1 mem, Option.map_some,
        Equiv.swap_apply_left]
    · rw [entries, orderly.find?_image_of_other mem fresh nofun]
      exact find?_handOver g e m
  | some r =>
    have known := owner_mem_ids mem owner
    refine ext_find? ?_ ((ids_modifyEntry _ r _).trans ids.symm) fun m => ?_
    · have other : s ≠ .root := fun top => by simp [top] at owner
      rw [root_relabel_entryLast, orderly.root_of_other mem fresh other]
      rfl
    · simp only [find?_modifyEntry, find?_handOver, entries]
      -- the entry of the owner is the only one that is changed where it is
      by_cases hm : r = m
      · subst hm
        obtain ⟨e', he'⟩ := mem_ids_iff.1 known
        have is_new : new ≠ r := fun same => fresh (same ▸ known)
        have is_old : old ≠ r := fun same => own (same ▸ owner)
        rw [if_pos rfl, if_neg is_new, if_neg is_old, if_neg is_new, if_neg is_old, he',
          Option.map_some, Option.map_some]
        exact congrArg some (orderly.image_of_owner mem fresh he' owner).symm
      · have off : s.owner? ≠ some m := fun held => hm (Option.some.inj (owner.symm.trans held))
        rw [if_neg hm, orderly.find?_image_of_other mem fresh off]

/-! ## What it leaves behind -/

/-- What the replacement of a node by another one makes of a graph. -/
structure Replaced (g : Graph) (old new : NodeId) (g' : Graph) : Prop where
  /-- The node has the new name wherever it occurs, and its entry is the last one. -/
  renamed : g' = (g.relabel (Function.update id old new)).entryLast new
  valid : g'.validate = .ok ()
  /-- The way back gives the graph as it was, but with the entry of the node behind all others. -/
  restored : replace new old g' = .ok () (g.entryLast old)

/-- In a graph without the new node, to swap the two is to rename the old one. -/
theorem relabel_swap_eq (known : ∀ n ∈ g.mentions, n ∈ g.ids) (fresh : new ∉ g.ids) :
    g.relabel (Equiv.swap old new) = g.relabel (Function.update id old new) := by
  refine image_congr fun n mentioned => ?_
  have other : n ≠ new := fun same => fresh (same ▸ known n mentioned)
  by_cases here : n = old
  · rw [here, Equiv.swap_apply_left, Function.update_self]
  · rw [Equiv.swap_apply_of_ne_of_ne here other, Function.update_of_ne here, id]

/-- A replacement of a node of a valid graph by a new one renames the node and moves its entry to
the end. The result is valid, and the way back restores the graph but for the place of the entry. -/
theorem replace_renames (valid : g.validate = .ok ()) (there : old ∈ g.ids) (fresh : new ∉ g.ids) :
    ∃ g', replace old new g = .ok () g' ∧ g.Replaced old new g' := by
  have tree := validate_eq_ok_iff.1 valid
  have run := tree.replace_eq_relabel there fresh
  have tree' := (tree.replace_iff run).2 (Or.inl fresh)
  have last : new ∈ ((g.entryLast old).relabel (Equiv.swap old new)).ids := by
    simp [ids_relabel_entryLast there fresh]
  have gone : old ∉ ((g.entryLast old).relabel (Equiv.swap old new)).ids := by
    have ne : old ≠ new := fun same => fresh (same ▸ there)
    simp [ids_relabel_entryLast there fresh, ne]
  refine ⟨_, run, ?_, validate_eq_ok_iff.2 tree', ?_⟩
  · rw [relabel_entryLast, Equiv.swap_apply_left, relabel_swap_eq (fun n => ?_) fresh]
    exact Orderly.mem_mentions tree.toOrderly
  · have moved : ((g.entryLast old).relabel (Equiv.swap old new)).entryLast new =
        (g.entryLast old).relabel (Equiv.swap old new) := by
      have again := relabel_entryLast (Equiv.swap old new) (g.entryLast old) old
      rw [entryLast_entryLast, Equiv.swap_apply_left] at again
      exact again.symm
    rw [tree'.replace_eq_relabel last gone, moved, Equiv.swap_comm]
    exact congrArg (EStateM.Result.ok ()) (image_image_symm (Equiv.swap old new) _)

/-- A node in the container is replaced. -/
theorem replace_renames_grove : grove.validate = .ok () ∧ 5 ∈ grove.ids ∧ 8 ∉ grove.ids ∧
    ∃ g', replace 5 8 grove = .ok () g' ∧ grove.Replaced 5 8 g' := by
  have valid : grove.validate = .ok () := by decide +kernel
  have there : 5 ∈ grove.ids := by decide
  have fresh : 8 ∉ grove.ids := by decide
  exact ⟨valid, there, fresh, replace_renames valid there fresh⟩

end Graph

end Autoflow
