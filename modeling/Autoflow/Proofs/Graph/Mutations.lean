import Autoflow.Proofs.Graph.Losses
import Autoflow.Proofs.Graph.Upkeep
import Autoflow.Proofs.Graph.Validation

/-!
# What the edits leave of a tree

An edit that fails leaves the graph as it was (`Mutation.run_error`). One that succeeds on a valid
graph leaves a valid graph exactly if the change fits (`Mutation.validate_run_iff`): a node that is
inserted must not be there yet, the root can be removed or moved only if at most one node takes its
place, no node can take the place of another one while it has its own, and none can be moved into
itself. The edits check none of that. Before each of them stands what it makes of the layout.
-/

namespace Autoflow

open Layout

namespace Graph

variable {g g' : Graph} {n r old new x : NodeId} {e : Entry} {s : Slot} {p : Position} {o : String}
  {placement : Placement} {f : GraphFault}

/-- The successors of a node on all outputs, none if it has no entry. -/
def nextIds (g : Graph) (n : NodeId) : List NodeId := (g.find? n).elim [] Entry.nextIds

theorem nextIds_of_find? (h : g.find? n = some e) : g.nextIds n = e.nextIds := by
  simp [nextIds, h]

/-- A graph with the same layout and the same nodes is a tree as well. -/
theorem isTree_congr (layout : g'.occupants = g.occupants) (ids : ∀ m, m ∈ g'.ids ↔ m ∈ g.ids) :
    g'.IsTree ↔ g.IsTree := by
  unfold IsTree
  rw [layout, show {m | m ∈ g'.ids} = {m | m ∈ g.ids} from Set.ext ids]

theorem IsTree.exists_root (tree : g.IsTree) (there : n ∈ g.ids) : ∃ r, g.root = some r := by
  cases root : g.root with
  | none => exact absurd (tree.rooted there) (not_rooted_of_rootless root)
  | some r => exact ⟨r, rfl⟩

theorem IsTree.stands (tree : g.IsTree) (there : n ∈ g.ids) : ∃ s e, g.Stands n s e := by
  obtain ⟨s, mem⟩ := tree.exists_slot there
  obtain ⟨e, he⟩ := mem_ids_iff.1 there
  exact ⟨s, e, he, tree.position_eq mem, mem, tree.owner_ne mem⟩

theorem Stands.root_iff (tree : g.IsTree) (stands : g.Stands n s e) :
    g.root = some n ↔ s = .root := by
  rw [← mem_occupants_root]
  exact ⟨fun mem => tree.slot_unique stands.mem mem, fun top => top ▸ stands.mem⟩

/-- Of several nodes that would close the gap at the root all but the first are left out. -/
theorem exists_not_mem_closing {l : List NodeId} (nodup : l.Nodup) (many : ¬ l.length ≤ 1) :
    ∃ x ∈ l, x ∉ closing .root l := by
  match l, many with
  | [], many => exact absurd (Nat.zero_le 1) many
  | [_], many => exact absurd (Nat.le_refl 1) many
  | a :: b :: l, _ =>
    refine ⟨b, by simp, fun mem => (List.nodup_cons.1 nodup).1 ?_⟩
    have same : b = a := by simpa [closing] using mem
    exact same ▸ List.mem_cons_self

theorem closing_of_length {l : List NodeId} (few : s = .root → l.length ≤ 1) :
    closing s l = l := by
  unfold closing
  split
  · next top => exact List.take_of_length_le (few top)
  · rfl

/-! ## Inserting -/

theorem occupants_placeAtRoot_self (root : g.root = some n) :
    (g.placeAtRoot n).occupants = g.occupants := by
  have same : { g with root := some n } = g := by rw [← root]
  unfold placeAtRoot
  simp only [root, if_true, same]
  exact occupants_ensureEntry g n none

theorem occupants_placeAt_self (there : n ∈ g.ids) (placement : Placement) (o : String) :
    (g.placeAt n n placement o).occupants =
      g.occupants.plantOwn (.beside n placement o) n := by
  unfold placeAt
  rw [occupants_behind _ _ _ (mem_ids_ensureEntry.2 (Or.inl rfl)), occupants_ensureEntry,
    occupants_setSlot there, ← occupants_beside]
  rfl

/-- A node can be put into a slot of its own only if that is the one output that leads anywhere. -/
theorem IsTree.placeAt_self_iff (tree : g.IsTree) (there : n ∈ g.ids) :
    (g.placeAt n n placement o).IsTree ↔
      placement = .south ∧ ∀ o', o' ≠ o → g.occupants (.south n o') = [] := by
  have ids : {m | m ∈ (g.placeAt n n placement o).ids} = {m | m ∈ g.ids} :=
    Set.ext fun m => mem_ids_placeAt.trans (or_iff_right_of_imp fun e => e ▸ there)
  unfold IsTree
  rw [occupants_placeAt_self there, ids]
  cases placement with
  | south =>
    refine ⟨fun tree' => ⟨rfl, fun o' other => ?_⟩, fun only => ?_⟩
    · refine List.eq_nil_iff_forall_not_mem.2 fun x mem => ?_
      refine tree.toOrderly.not_plantOwn_south mem (fun mem' => other ?_) tree'
      cases tree.slot_unique mem mem'
      rfl
    · refine Layout.IsTree.plantOwn_south tree fun o' x mem => ?_
      by_cases same : o' = o
      · exact same ▸ mem
      · rw [only.2 o' same] at mem
        cases mem
  | child => exact ⟨fun tree' => absurd tree' (plantOwn_child _ n), fun only => nomatch only.1⟩

/-- A node can be inserted unless it is in the tree already. The root stays where it is, and a
node may go to its only output that leads anywhere. -/
theorem IsTree.insert_iff (tree : g.IsTree) (run : insert n p g = .ok () g') :
    g'.IsTree ↔ n ∉ g.ids ∨ (p.reference = none ∧ g.root = some n) ∨
      (p.reference = some n ∧ p.placement = .south ∧
        ∀ o, o ≠ p.output → g.occupants (.south n o) = []) := by
  by_cases there : n ∈ g.ids
  · have ids : ∀ m, m ∈ g'.ids ↔ m ∈ g.ids := fun m =>
      (mem_ids_insert run).trans (or_iff_right_of_imp fun e => e ▸ there)
    obtain ⟨s, e, stands⟩ := tree.stands there
    cases ref : p.reference with
    | none =>
      obtain rfl := insert_eq_placeAtRoot run ref
      by_cases root : g.root = some n
      · simp [isTree_congr (occupants_placeAtRoot_self root) ids, tree, root]
      · obtain ⟨previous, held⟩ := tree.exists_root there
        have layout := occupants_placeAtRoot_of root fun none => by rw [none] at held; cases held
        have broken : ¬ (g.placeAtRoot n).IsTree := by
          unfold IsTree
          rw [layout]
          exact Layout.IsTree.not_plant tree stands.mem (by simp)
        simp [broken, there, root]
    | some r =>
      obtain ⟨hr, rfl⟩ := insert_eq_placeAt run ref
      by_cases self : r = n
      · subst self
        simp [tree.placeAt_self_iff hr, there]
      · have broken : ¬ (g.placeAt n r p.placement p.output).IsTree := by
          unfold IsTree
          rw [occupants_placeAt hr self]
          refine Layout.IsTree.not_plant tree stands.mem fun own => self ?_
          exact Option.some.inj ((Slot.owner_beside r _ _).symm.trans own)
        simp [broken, there, self]
  · obtain ⟨g₁, run₁, _, _, done⟩ := tree.exists_insert there fun r => reference_of_insert run
    rw [run] at run₁
    cases run₁
    simp [done, there]

/-! ## Removing -/

/-- A node can be removed unless it is a root that several nodes follow or are inside. -/
theorem IsTree.remove_iff (tree : g.IsTree) (run : remove n false g = .ok () g') :
    g'.IsTree ↔ (g.root = some n → (g.successors n).length ≤ 1) := by
  by_cases there : n ∈ g.ids
  · obtain ⟨s, e, stands, layout, _⟩ := Orderly.remove tree.toOrderly there run
    rw [stands.root_iff tree, successors_of_find? stands.entry]
    constructor
    · intro tree' top
      by_contra many
      subst top
      obtain ⟨x, mem, out⟩ :=
        exists_not_mem_closing (nodup_successors tree.toOrderly stands.entry) many
      obtain ⟨u, up, hu⟩ := (mem_successors_iff_givenUp stands.entry).1 mem
      have kept : x ∈ {m | m ∈ g'.ids} := (mem_ids_remove run).2
        ⟨tree.ne_of_givenUp stands.mem stands.own up hu, tree.mem hu⟩
      refine Layout.Orderly.not_extract tree.toOrderly stands.mem up hu out kept ?_
      exact layout ▸ tree'
    · intro few
      obtain ⟨g₁, run₁, _, _, done⟩ := tree.exists_remove stands.mem stands.entry few
      rw [run] at run₁
      cases run₁
      exact done
  · rw [remove_eq] at run
    rw [find?_eq_none_iff.2 there] at run
    cases run
    exact ⟨fun _ root => absurd (tree.root_mem root) there, fun _ => tree⟩

/-! ## Replacing -/

theorem occupants_handOver_standIn (he : g.find? old = some e) :
    (g.handOver old new e).occupants = g.occupants.standIn old new := by
  refine occupants_ext ?_ fun m placement o => ?_
  · rfl
  · have renamed : (Slot.beside m placement o).rename (fun _ => old) = .beside old placement o := by
      cases placement <;> rfl
    unfold standIn
    rw [occupants_beside, find?_handOver, renamed, occupants_beside, occupants_beside,
      Slot.owner_beside, he]
    by_cases hm : new = m
    · simp [hm]
    · by_cases hm' : old = m
      · simp [hm, hm', Ne.symm hm]
      · simp [hm, hm', Ne.symm hm, Ne.symm hm']

/-- Replacing a node gives its place and all that is in its slots to the other one, whether that
one is there already or not. -/
theorem occupants_replace (run : replace old new g = .ok () g') :
    ∃ s, old ∈ g.occupants s ∧ g'.occupants = g.occupants.exchange s old new := by
  obtain ⟨p, e, at_p, he, rfl⟩ := replace_eq_ok run
  obtain ⟨s, rfl, mem, own⟩ := mem_occupants_of_position at_p
  refine ⟨s, mem, ?_⟩
  have handed : (g.handOver old new e).occupants = _ := occupants_handOver_standIn he
  rw [Slot.reference_position]
  cases owner : s.owner? with
  | none =>
    obtain rfl := Slot.eq_root_of_owner owner
    have root := mem_occupants_root.1 mem
    simp only
    funext t
    cases t with
    | root => simp [exchange, standIn, root, splice, occupants]
    | south m o =>
      rw [exchange, if_neg (by simp)]
      exact congrFun handed (.south m o)
    | child m =>
      rw [exchange, if_neg (by simp)]
      exact congrFun handed (.child m)
  | some r =>
    have hr : r ∈ (g.handOver old new e).ids := mem_ids_handOver.2
      (Or.inr ⟨fun e => own (e ▸ owner), owner_mem_ids mem owner⟩)
    simp only
    rw [occupants_modifySlot (splice old [new]) hr (fun e => ?_) (fun e placement o ne => ?_),
      beside_position owner, handed]
    · rfl
    · cases h : e.slot? s.position.placement s.position.output with
      | none => simp [h, splice]
      | some ids => simp [Entry.slot?_setSlot_self]
    · cases h : e.slot? s.position.placement s.position.output with
      | none => rfl
      | some ids => exact e.slot?_setSlot_other _ ne

theorem IsTree.successors_eq_singleton_iff (tree : g.IsTree) :
    g.successors new = [old] ↔ ∀ x, g.occupants.Edge new x ↔ x = old := by
  constructor
  · intro only x
    rw [← mem_successors, only, List.mem_singleton]
  · intro only
    have nodup : (g.successors new).Nodup := by
      cases he : g.find? new with
      | none => simp [Graph.successors, he]
      | some e =>
        rw [successors_of_find? he]
        exact nodup_successors tree.toOrderly he
    refine List.perm_singleton.1
      ((List.perm_ext_iff_of_nodup nodup (List.nodup_singleton old)).2 fun x => ?_)
    rw [mem_successors, only, List.mem_singleton]

/-- A node can take the place of another one if it is not in the tree, if it is that node, or if
that node is all that follows it. -/
theorem IsTree.replace_iff (tree : g.IsTree) (run : replace old new g = .ok () g') :
    g'.IsTree ↔ new ∉ g.ids ∨ new = old ∨ g.successors new = [old] := by
  obtain ⟨_, e, _, he, _⟩ := replace_eq_ok run
  have ho := mem_ids_of_find? he
  by_cases there : new ∈ g.ids
  · obtain ⟨s, mem, layout⟩ := occupants_replace run
    by_cases same : new = old
    · subst same
      rw [exchange_self] at layout
      have ids : ∀ m, m ∈ g'.ids ↔ m ∈ g.ids := by
        intro m
        rw [mem_ids_replace run]
        by_cases e : m = new <;> simp [e, there]
      simp [isTree_congr layout ids, tree]
    · rw [tree.successors_eq_singleton_iff]
      have ids : {m | m ∈ g'.ids} = {m | m ≠ old ∧ m ∈ g.ids} := by
        refine Set.ext fun m => (mem_ids_replace run).trans (or_iff_right_of_imp ?_)
        rintro rfl
        exact ⟨same, there⟩
      obtain ⟨t, held⟩ := tree.exists_slot there
      unfold IsTree
      rw [ids, layout]
      by_cases above : s.owner? = some new
      · rw [tree.exchange_of_owned above]
        constructor
        · intro tree'
          refine Or.inr (Or.inr fun x => ⟨fun edge => ?_, ?_⟩)
          · by_contra other
            have kept : x ∈ {m | m ≠ old ∧ m ∈ g.ids} := ⟨other, (tree.mem_of_edge edge).2⟩
            exact tree.toOrderly.not_standIn same edge kept tree'
          · rintro rfl
            exact ⟨s, above, mem⟩
        · rintro (fresh | e | only)
          · exact absurd there fresh
          · exact absurd e same
          · exact Layout.IsTree.standIn tree only
      · refine ⟨fun tree' => absurd tree' (Layout.IsTree.not_exchange tree mem held same above), ?_⟩
        rintro (fresh | e | only)
        · exact absurd there fresh
        · exact absurd e same
        · obtain ⟨u, ou, hu⟩ := (only old).2 rfl
          exact absurd (tree.slot_unique hu mem ▸ ou) above
  · obtain ⟨g₁, run₁, _, _, done⟩ := tree.exists_replace ho there
    rw [run] at run₁
    cases run₁
    simp [done, there]

/-! ## Moving -/

/-- A node was moved only from a slot. -/
theorem position_of_move (run : move n p g = .ok () g') : ∃ q, g.position n = .ok q := by
  cases at_q : g.position n with
  | ok q => exact ⟨q, rfl⟩
  | error fault =>
    rw [move, get_bind] at run
    cases ref : p.reference with
    | none =>
      simp only [ref, at_q] at run
      cases run
    | some r =>
      cases there : g.contains r <;> simp only [ref, at_q, there] at run <;> cases run

theorem reference_of_move (run : move n p g = .ok () g') (there : n ∈ g.ids)
    (ref : p.reference = some r) : r ∈ g.ids :=
  (move_eq_placeAt run there ref).1

section Bypassed

variable (stands : g.Stands n s e)

include stands in
/-- A node that was bypassed stands nowhere. -/
theorem Orderly.out_of_bypass (h : g.Orderly) (t : Slot) :
    n ∉ (g.bypass n s.position (closing s e.nextIds)).occupants t := by
  rw [occupants_bypass stands.mem fun top => length_closing top e.nextIds]
  beta_reduce
  by_cases ts : t = s
  · rw [if_pos ts, mem_splice_iff stands.mem (h.nodup s)]
    rintro (closes | ⟨ne, _⟩)
    · obtain ⟨u, up, mem⟩ := (mem_nextIds_iff_givenUp stands.entry).1
        ((closing_sublist s e.nextIds).subset closes)
      exact h.ne_of_givenUp stands.mem stands.own up mem rfl
    · exact ne rfl
  · rw [if_neg ts]
    exact fun mem => ts (h.slot_unique mem stands.mem)

include stands in
/-- If the root is free once a node of a tree was bypassed, nothing followed the node. -/
theorem IsTree.free_of_bypass (tree : g.IsTree)
    (root : (g.bypass n s.position (closing s e.nextIds)).root = none) (t : Slot)
    (south : t.isSouthOf n = true) :
    (g.bypass n s.position (closing s e.nextIds)).occupants t = [] := by
  have top : s = .root := by
    obtain ⟨r, held⟩ := tree.exists_root (mem_ids_of_find? stands.entry)
    cases s with
    | root => rfl
    | south m o | child m => exact absurd (root.symm.trans held) nofun
  subst top
  have none : e.nextIds = [] := by
    have gone : (closing .root e.nextIds).head? = none := root
    cases behind : e.nextIds with
    | nil => rfl
    | cons a l =>
      rw [behind] at gone
      cases gone
  obtain ⟨o, rfl⟩ := south_of_isSouthOf south
  rw [occupants_bypass stands.mem fun top => length_closing top e.nextIds]
  refine (if_neg (by simp)).trans (List.eq_nil_iff_forall_not_mem.2 fun x mem => ?_)
  have behind := (mem_nextIds_iff stands.entry).2 ⟨o, mem⟩
  rw [none] at behind
  cases behind

end Bypassed

/-- The layout after a move of a tree, unless the node went into a slot of its own. -/
theorem IsTree.occupants_move (tree : g.IsTree) (there : n ∈ g.ids) (off : p.reference ≠ some n)
    (run : move n p g = .ok () g') : ∃ s e, g.Stands n s e ∧
      g'.occupants = (g.occupants.extract n s (closing s e.nextIds) true).plant p.slot n := by
  cases ref : p.reference with
  | some r =>
    have ne : r ≠ n := fun e => off (e ▸ ref)
    obtain ⟨s, e, stands, layout, _⟩ := Orderly.move tree.toOrderly there ref ne run
    exact ⟨s, e, stands, layout⟩
  | none =>
    obtain ⟨g₁, left, put⟩ := move_eq_ok run
    obtain ⟨s, e, stands, rfl⟩ := remove_eq_bypass left there
    obtain rfl : g' = (g.bypass n s.position (closing s e.nextIds)).placeAtRoot n :=
      insert_eq_placeAtRoot put ref
    refine ⟨s, e, stands, ?_⟩
    have out := Orderly.out_of_bypass stands tree.toOrderly .root
    rw [Position.slot, ref, occupants_placeAtRoot_of (fun root => out (mem_occupants_root.2 root))
      (tree.free_of_bypass stands),
      occupants_bypass stands.mem fun top => length_closing top e.nextIds]
    exact extract_plant_eq (by simp)

/-- A node cannot be moved into a slot of its own. -/
theorem IsTree.not_move_self (tree : g.IsTree) (there : n ∈ g.ids) (ref : p.reference = some n)
    (run : move n p g = .ok () g') : ¬ g'.IsTree := by
  obtain ⟨_, s, e, stands, rfl⟩ := move_eq_placeAt run there ref
  have kept : n ∈ (g.bypass n s.position (closing s e.nextIds)).ids := by rwa [ids_bypass]
  unfold IsTree
  rw [occupants_placeAt_self kept]
  exact not_plantOwn_of_out (mem_ids_placeAt.2 (Or.inl rfl))
    (Orderly.out_of_bypass stands tree.toOrderly) (Slot.owner_beside n _ _)

/-- A node can be moved unless it is a root that several nodes follow, or into itself. -/
theorem IsTree.move_iff (tree : g.IsTree) (there : n ∈ g.ids) (run : move n p g = .ok () g') :
    g'.IsTree ↔ (g.root = some n → (g.nextIds n).length ≤ 1) ∧
      ∀ r, p.reference = some r → r ≠ n ∧ ¬ g.occupants.Inside n r := by
  by_cases self : p.reference = some n
  · have broken := tree.not_move_self there self run
    exact ⟨fun tree' => absurd tree' broken, fun fits => absurd rfl (fits.2 n self).1⟩
  · obtain ⟨s, e, stands, layout⟩ := tree.occupants_move there self run
    have own : p.slot.owner? ≠ some n := by rwa [p.owner_slot]
    have ids : {m | m ∈ g'.ids} = {m | m ∈ g.ids} := Set.ext fun m => mem_ids_move run there
    have closes : ∀ x ∈ closing s e.nextIds, ∃ t, givenUp n true t ∧ x ∈ g.occupants t :=
      fun x mem => (mem_nextIds_iff_givenUp stands.entry).1
        ((closing_sublist s e.nextIds).subset mem)
    rw [stands.root_iff tree, nextIds_of_find? stands.entry]
    unfold IsTree
    rw [layout, ids]
    constructor
    · intro tree'
      refine ⟨fun top => ?_, fun r ref => ⟨fun e => self (e ▸ ref), fun inside => ?_⟩⟩
      · by_contra many
        subst top
        obtain ⟨x, mem, out⟩ :=
          exists_not_mem_closing (nodup_nextIds tree.toOrderly stands.entry) many
        obtain ⟨u, up, hu⟩ := (mem_nextIds_iff_givenUp stands.entry).1 mem
        exact tree.toOrderly.not_replant_of_lost stands.mem stands.own closes own up hu out tree'
      · exact Layout.IsTree.not_replant_of_inside tree stands.mem closes
          (p.owner_slot.trans ref) inside tree'
    · rintro ⟨few, outside⟩
      rw [closing_of_length few]
      refine Layout.IsTree.replant_of tree stands.mem
        (fun x => mem_nextIds_iff_givenUp stands.entry) rfl
        (nodup_nextIds tree.toOrderly stands.entry)
        (fun top => all_eq_of_length_le_one (few top)) own fun r owner => ?_
      have ref := p.owner_slot.symm.trans owner
      exact ⟨reference_of_move run there ref, (outside r ref).2⟩

end Graph

/-! ## All edits -/

/-- An edit that changes which nodes a graph has or where they stand, with all that it asks
for. -/
inductive Mutation where
  | insert (node : NodeId) (p : Position)
  | remove (node : NodeId)
  | replace (old new : NodeId)
  | move (node : NodeId) (p : Position)

namespace Mutation

/-- Runs the edit. A node that is removed gives its entry up. -/
def run : Mutation → Graph.Edit Unit
  | insert n p => Graph.insert n p
  | remove n => Graph.remove n false
  | replace old new => Graph.replace old new
  | move n p => Graph.move n p

/-- The edit names nodes of the graph only: the reference, and the node that is there already. -/
def Accepted (g : Graph) : Mutation → Prop
  | insert _ p => ∀ r, p.reference = some r → r ∈ g.ids
  | remove _ => True
  | replace old _ => old ∈ g.ids
  | move n p => n ∈ g.ids ∧ ∀ r, p.reference = some r → r ∈ g.ids

/-- The edit leaves every node in one slot that hangs from the root. -/
def Fits (g : Graph) : Mutation → Prop
  | insert n p => n ∉ g.ids ∨ (p.reference = none ∧ g.root = some n) ∨
      (p.reference = some n ∧ p.placement = .south ∧
        ∀ o, o ≠ p.output → g.occupants (.south n o) = [])
  | remove n => g.root = some n → (g.successors n).length ≤ 1
  | replace old new => new ∉ g.ids ∨ new = old ∨ g.successors new = [old]
  | move n p => (g.root = some n → (g.nextIds n).length ≤ 1) ∧
      ∀ r, p.reference = some r → r ≠ n ∧ ¬ g.occupants.Inside n r

variable {g g' : Graph} {m : Mutation} {f : GraphFault}

/-- An edit of any graph that fails leaves it as it was. -/
theorem run_error (failed : m.run g = .error f g') : g' = g := by
  cases m with
  | insert n p => exact Graph.insert_error failed
  | remove n =>
    simp only [run, Graph.remove_eq] at failed
    split at failed
    · cases failed
    · split at failed <;> cases failed
      rfl
  | replace old new =>
    simp only [run, Graph.replace_eq] at failed
    split at failed
    · cases failed
      rfl
    · split at failed
      · cases failed
        rfl
      · split at failed <;> cases failed
  | move n p => exact Graph.move_error failed

theorem accepted_of_run (tree : g.IsTree) (done : m.run g = .ok () g') : m.Accepted g := by
  cases m with
  | insert n p => exact fun r => Graph.reference_of_insert done
  | remove n => exact trivial
  | replace old new =>
    obtain ⟨_, _, _, he, _⟩ := Graph.replace_eq_ok done
    exact Graph.mem_ids_of_find? he
  | move n p =>
    obtain ⟨q, at_q⟩ := Graph.position_of_move done
    obtain ⟨s, _, mem, _⟩ := Graph.mem_occupants_of_position at_q
    exact ⟨tree.mem mem, fun r => Graph.reference_of_move done (tree.mem mem)⟩

theorem exists_run (tree : g.IsTree) (accepted : m.Accepted g) : ∃ g', m.run g = .ok () g' := by
  cases m with
  | insert n p => exact Graph.insert_run accepted
  | remove n =>
    by_cases there : n ∈ g.ids
    · obtain ⟨s, e, stands⟩ := tree.stands there
      simp only [run, Graph.remove_eq, stands.entry, stands.position]
      exact ⟨_, rfl⟩
    · exact ⟨g, by simp only [run, Graph.remove_eq, Graph.find?_eq_none_iff.2 there]⟩
  | replace old new =>
    obtain ⟨s, e, stands⟩ := tree.stands accepted
    exact Graph.replace_run stands.position accepted
  | move n p =>
    obtain ⟨s, e, stands⟩ := tree.stands accepted.1
    exact Graph.move_run accepted.2 stands.position

theorem isTree_run_iff (tree : g.IsTree) (done : m.run g = .ok () g') :
    g'.IsTree ↔ m.Fits g := by
  cases m with
  | insert n p => exact tree.insert_iff done
  | remove n => exact tree.remove_iff done
  | replace old new => exact tree.replace_iff done
  | move n p => exact tree.move_iff (accepted_of_run tree done).1 done

/-- An edit of a valid graph fails and leaves it alone exactly if it names a node that is not
there. If it succeeds, the graph is valid afterwards exactly if the change fits. -/
theorem validate_run_iff (g : Graph) (valid : g.validate = .ok ()) (m : Mutation) :
    (¬ m.Accepted g ∧ ∃ f, m.run g = .error f g) ∨
      (m.Accepted g ∧ ∃ g', m.run g = .ok () g' ∧ (g'.validate = .ok () ↔ m.Fits g)) := by
  have tree := Graph.validate_eq_ok_iff.1 valid
  by_cases accepted : m.Accepted g
  · obtain ⟨g', done⟩ := exists_run tree accepted
    rw [← isTree_run_iff tree done, ← Graph.validate_eq_ok_iff]
    exact Or.inr ⟨accepted, g', done, Iff.rfl⟩
  · cases result : m.run g with
    | ok _ g' => exact absurd (accepted_of_run tree result) accepted
    | error f g' => exact Or.inl ⟨accepted, f, by rw [run_error result]⟩

/-- A root with a node on each of two outputs. -/
def parted : Graph where
  root := some 1
  entries := .ofList [(1, { next := some (.ofList [("", [2]), ("x", [3])]) }), (2, {}), (3, {})]

/-- In this graph the root can be replaced by a new node, but not be moved to where it is. -/
theorem validate_run_iff_parted : parted.validate = .ok () ∧
    (∃ g', (replace 1 4).run parted = .ok () g' ∧ g'.validate = .ok ()) ∧
      ∃ g', (move 1 .root).run parted = .ok () g' ∧ ¬ g'.validate = .ok () := by
  have valid : parted.validate = .ok () := by decide +kernel
  refine ⟨valid, ?_, ?_⟩
  · obtain ⟨refused, _⟩ | ⟨_, g', done, kept⟩ := validate_run_iff parted valid (replace 1 4)
    · exact absurd (show 1 ∈ parted.ids by decide) refused
    · exact ⟨g', done, kept.2 (Or.inl (by decide))⟩
  · obtain ⟨refused, _⟩ | ⟨_, g', done, kept⟩ := validate_run_iff parted valid (move 1 .root)
    · exact absurd ⟨by decide, nofun⟩ refused
    · exact ⟨g', done, fun valid => absurd ((kept.1 valid).1 rfl) (by decide)⟩

/-- Each edit may succeed on a valid graph and leave one that is not: a node that is there is put
at the root, the root is removed or put at the root again, and a node takes the place of another
one. -/
theorem parted_torn : parted.validate = .ok () ∧
    ∀ m ∈ [insert 3 .root, remove 1, move 1 .root, replace 2 3],
      ∃ g', m.run parted = .ok () g' ∧ g'.validate ≠ .ok () := by
  refine ⟨by decide +kernel, ?_⟩
  simp only [List.forall_mem_cons, List.not_mem_nil, false_imp_iff, implies_true, and_true]
  refine ⟨⟨_, rfl, ?_⟩, ⟨_, rfl, ?_⟩, ⟨_, rfl, ?_⟩, ⟨_, rfl, ?_⟩⟩ <;> decide +kernel

end Mutation

end Autoflow
