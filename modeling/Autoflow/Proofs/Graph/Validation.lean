import Autoflow.Graph.Walks
import Autoflow.Proofs.Graph.Occupants
import Mathlib.Data.List.Pairwise

/-!
# Validation finds exactly the trees

`Graph.references` lists the root and then what every entry refers to. No node is listed twice
exactly if every node stands in one slot, once. A walk that meets each node once has, as it ends,
met the root and all that what it met refers to (`Spent.walk`); from this `validate_eq_ok_iff`
follows: a graph is valid exactly if it is a tree.
-/

namespace Autoflow.Graph

open Layout

variable {g : Graph} {n r x : NodeId} {e : Entry} {s t : Slot}

/-! ## References -/

/-- The successors of a node, none if it has no entry. -/
def successors (g : Graph) (n : NodeId) : List NodeId := (g.find? n).elim [] Entry.successors

/-- The root, and all that the entries refer to, in order. -/
def references (g : Graph) : List NodeId :=
  g.root.toList ++ g.entries.toList.flatMap fun p => p.2.successors

/-- The slots of a graph, in order. -/
def slots (g : Graph) : List Slot :=
  .root :: g.entries.toList.flatMap fun p =>
    (p.2.next.elim [] OrderedMap.keys).map (.south p.1) ++ [.child p.1]

theorem mem_successors : x ∈ g.successors n ↔ g.occupants.Edge n x := by
  unfold successors
  rw [edge_iff]
  cases h : g.find? n <;> simp

theorem successors_of_find? (h : g.find? n = some e) : g.successors n = e.successors := by
  simp [successors, h]

theorem mem_slots_of_mem (h : x ∈ g.occupants s) : s ∈ g.slots := by
  cases o : s.owner? with
  | none => simp [slots, Slot.eq_root_of_owner o]
  | some n =>
    obtain ⟨e, he⟩ := mem_ids_iff.1 (owner_mem_ids h o)
    refine List.mem_cons_of_mem _ (List.mem_flatMap.2 ⟨(n, e), OrderedMap.mem_of_get? he, ?_⟩)
    cases s with
    | root => cases o
    | south m out =>
      cases o
      rw [occupants_south he] at h
      cases hn : e.next with
      | none => simp [Entry.nextOn, hn] at h
      | some outputs =>
        cases ho : outputs.get? out with
        | none => simp [Entry.nextOn, hn, ho] at h
        | some ids => simp [OrderedMap.mem_keys_iff, ho]
    | child m =>
      cases o
      simp

theorem nodup_slots (g : Graph) : g.slots.Nodup := by
  refine List.nodup_cons.2 ⟨by simp, List.nodup_flatMap.2 ⟨fun p _ => ?_, ?_⟩⟩
  · refine List.nodup_append.2 ⟨?_, by simp, by simp⟩
    refine List.Nodup.map (fun a b e => by cases e; rfl) ?_
    cases p.2.next with
    | none => simp
    | some outputs => exact outputs.nodup
  · have keys : g.entries.toList.Pairwise fun p q => p.1 ≠ q.1 :=
      List.pairwise_map.1 g.entries.nodup
    refine keys.imp fun {p q} ne => ?_
    have owner : ∀ {p : NodeId × Entry} {s : Slot},
        s ∈ (p.2.next.elim [] OrderedMap.keys).map (Slot.south p.1) ++ [Slot.child p.1] →
        s.owner? = some p.1 := by
      intro p s hs
      rcases List.mem_append.1 hs with hs | hs
      · obtain ⟨o, _, rfl⟩ := List.mem_map.1 hs
        rfl
      · rw [List.mem_singleton.1 hs]
        rfl
    intro s hp hq
    exact ne (Option.some.inj ((owner hp).symm.trans (owner hq)))

theorem references_eq_flatMap (g : Graph) : g.references = g.slots.flatMap g.occupants := by
  have entry : ∀ p ∈ g.entries.toList, p.2.successors =
      ((p.2.next.elim [] OrderedMap.keys).map (Slot.south p.1) ++ [Slot.child p.1]).flatMap
        g.occupants := by
    rintro ⟨n, e⟩ mem
    have he : g.find? n = some e := OrderedMap.mem_toList_iff.1 mem
    have next : e.nextIds =
        ((e.next.elim [] OrderedMap.keys).map (Slot.south n)).flatMap g.occupants := by
      cases hn : e.next with
      | none => simp [Entry.nextIds, hn]
      | some outputs =>
        simp only [Entry.nextIds, hn, Option.elim_some, Outputs.allIds, OrderedMap.keys,
          Assoc.keys, List.flatMap_map]
        refine List.flatMap_congr fun p hp => ?_
        have : outputs.get? p.1 = some p.2 := OrderedMap.mem_toList_iff.1 hp
        simp [occupants_south he, Entry.nextOn, hn, this]
    simp [Entry.successors, next, occupants_child he]
  simp only [references, slots, List.flatMap_cons, List.flatMap_assoc]
  exact congrArg _ (List.flatMap_congr entry)

theorem mem_references : x ∈ g.references ↔ ∃ s, x ∈ g.occupants s := by
  rw [references_eq_flatMap, List.mem_flatMap]
  exact ⟨fun ⟨s, _, h⟩ => ⟨s, h⟩, fun ⟨s, h⟩ => ⟨s, mem_slots_of_mem h, h⟩⟩

/-- No reference is listed twice if and only if every node stands in one slot, once. -/
theorem nodup_references_iff : g.references.Nodup ↔
    (∀ s, (g.occupants s).Nodup) ∧ ∀ s t x, x ∈ g.occupants s → x ∈ g.occupants t → s = t := by
  rw [references_eq_flatMap, List.nodup_flatMap]
  constructor
  · rintro ⟨each, apart⟩
    refine ⟨fun s => ?_, fun s t x hs ht => ?_⟩
    · by_cases hs : s ∈ g.slots
      · exact each s hs
      · rw [List.eq_nil_iff_forall_not_mem.2 fun x hx => hs (mem_slots_of_mem hx)]
        exact List.nodup_nil
    · by_contra ne
      have : Std.Symm (Function.onFun List.Disjoint g.occupants) :=
        ⟨fun _ _ d _ hx hy => d hy hx⟩
      exact apart.forall (mem_slots_of_mem hs) (mem_slots_of_mem ht) ne hs ht
  · rintro ⟨each, unique⟩
    refine ⟨fun s _ => each s, (nodup_slots g).imp fun {s t} ne x hs ht => ?_⟩
    exact ne (unique s t x hs ht)

/-! ## The walk -/

/-- What a walk from a node has met is all different, has entries and is reached from there.
Together with what is left on its stack it is the node and all that it refers to. -/
structure Spent (g : Graph) (r : NodeId) (seen stack : List NodeId) : Prop where
  distinct : seen.Nodup
  entries : ∀ x ∈ seen, x ∈ g.ids
  reached : ∀ x ∈ stack ++ seen, g.occupants.Reach r x
  references : (stack ++ seen).Perm (r :: seen.flatMap g.successors)

namespace Spent

variable {seen stack out : List NodeId}

theorem start (g : Graph) (r : NodeId) : g.Spent r [] [r] :=
  ⟨List.nodup_nil, nofun, by simpa using Relation.ReflTransGen.refl, .refl _⟩

/-- A node that is met has its references laid on the stack. -/
theorem step (h : g.Spent r seen (n :: stack)) (fresh : n ∉ seen) (he : g.find? n = some e) :
    g.Spent r (n :: seen) (e.successors.reverse ++ stack) where
  distinct := List.nodup_cons.2 ⟨fresh, h.distinct⟩
  entries := List.forall_mem_cons.2 ⟨mem_ids_of_find? he, h.entries⟩
  reached := by
    have here := h.reached n List.mem_cons_self
    intro x hx
    rw [List.append_assoc, List.mem_append, List.mem_reverse] at hx
    rcases hx with hx | hx
    · exact here.tail ((mem_successors_iff he).1 hx)
    · exact h.reached x (List.perm_middle.mem_iff.1 hx)
  references := by
    rw [List.flatMap_cons, successors_of_find? he, List.append_assoc]
    calc e.successors.reverse ++ (stack ++ n :: seen)
      _ |>.Perm (e.successors ++ (n :: stack ++ seen)) :=
        (List.reverse_perm _).append List.perm_middle
      _ |>.Perm (e.successors ++ (r :: seen.flatMap g.successors)) := h.references.append_left _
      _ |>.Perm (r :: (e.successors ++ seen.flatMap g.successors)) := List.perm_middle

/-- A walk that succeeds leaves nothing on its stack. -/
theorem walk (h : g.Spent r seen stack) (run : g.visitOnce seen stack = .ok out) :
    g.Spent r out [] := by
  fun_induction visitOnce g seen stack with
  | case1 seen =>
    cases run
    exact h
  | case2 => cases run
  | case3 => cases run
  | case4 seen n stack notSeen e he ih => exact ih (h.step notSeen he) run

end Spent

/-- A walk has met nothing that is on its stack, and all of this is the root or a successor of what
it has met. -/
structure Frontier (g : Graph) (seen stack : List NodeId) : Prop where
  apart : (stack ++ seen).Nodup
  owned : ∀ x ∈ stack ++ seen, x ∈ g.occupants .root ∨ ∃ a ∈ seen, g.occupants.Edge a x

namespace Frontier

variable {seen stack stack' : List NodeId}

theorem start (root : g.root = some n) : g.Frontier [] [n] := ⟨by simp, by simp [root]⟩

theorem perm (h : g.Frontier seen stack) (same : stack'.Perm stack) : g.Frontier seen stack' where
  apart := (same.append_right seen).nodup_iff.2 h.apart
  owned x mem := h.owned x ((same.append_right seen).mem_iff.1 mem)

theorem fresh (h : g.Frontier seen (n :: stack)) : n ∉ seen := fun mem =>
  (List.nodup_cons.1 h.apart).1 (List.mem_append_right stack mem)

/-- The next node of a walk of a tree has an entry. -/
theorem mem_ids (h : g.Frontier seen (n :: stack)) (tree : g.IsTree) : n ∈ g.ids := by
  rcases h.owned n List.mem_cons_self with root | ⟨a, _, edge⟩
  · exact tree.mem root
  · exact (tree.mem_of_edge edge).2

/-- A walk of a tree can go on with the successors of the next node. -/
theorem step (h : g.Frontier seen (n :: stack)) (tree : g.IsTree) (he : g.find? n = some e) :
    g.Frontier (n :: seen) (e.successors ++ stack) := by
  obtain ⟨out, apart⟩ := List.nodup_cons.1 h.apart
  have edge : ∀ {x}, x ∈ e.successors → g.occupants.Edge n x := (mem_successors_iff he).1
  -- a successor of `n` that is on the stack or was seen already would have a second owner
  have new : ∀ x ∈ e.successors, x ∉ n :: (stack ++ seen) := by
    intro x hx old
    rcases h.owned x old with root | ⟨a, ha, edge'⟩
    · exact tree.not_edge_of_mem_root root (edge hx)
    · exact h.fresh (tree.owner_unique edge' (edge hx) ▸ ha)
  have perm : (e.successors ++ stack ++ n :: seen).Perm
      (e.successors ++ n :: (stack ++ seen)) := by
    rw [List.append_assoc]
    exact List.perm_middle.append_left _
  refine ⟨perm.nodup_iff.2 (List.nodup_append.2
    ⟨nodup_successors tree.toOrderly he, List.nodup_cons.2 ⟨out, apart⟩, ?_⟩), fun x hx => ?_⟩
  · rintro x hx _ hy rfl
    exact new x hx hy
  · rcases List.mem_append.1 (perm.mem_iff.1 hx) with hx | hx
    · exact Or.inr ⟨n, List.mem_cons_self, edge hx⟩
    · rcases h.owned x hx with root | ⟨a, ha, edge⟩
      · exact Or.inl root
      · exact Or.inr ⟨a, List.mem_cons_of_mem _ ha, edge⟩

end Frontier

/-- A walk of a tree meets nothing twice. -/
theorem visitOnce_ok (tree : g.IsTree) {seen stack : List NodeId} (h : g.Frontier seen stack) :
    ∃ out, g.visitOnce seen stack = .ok out := by
  fun_induction visitOnce g seen stack with
  | case1 seen => exact ⟨seen, rfl⟩
  | case2 seen n stack isSeen => exact absurd isSeen h.fresh
  | case3 seen n stack notSeen he => exact absurd (h.mem_ids tree) (find?_eq_none_iff.1 he)
  | case4 seen n stack notSeen e he ih =>
    exact ih ((h.step tree he).perm ((List.reverse_perm _).append_right stack))

theorem find?_isNone_iff {seen : List NodeId} :
    (g.ids.find? fun n => !seen.contains n) = none ↔ ∀ x ∈ g.ids, x ∈ seen := by
  simp [List.find?_eq_none]

/-- The entries of a list of nodes refer to the same nodes as the list of all entries. -/
theorem references_perm {met : List NodeId} (perm : met.Perm g.ids) :
    g.references.Perm (g.root.toList ++ met.flatMap g.successors) := by
  have all : g.entries.toList.flatMap (fun p => p.2.successors) = g.ids.flatMap g.successors := by
    simp only [ids, OrderedMap.keys, Assoc.keys, List.flatMap_map]
    exact List.flatMap_congr fun p hp =>
      (successors_of_find? (OrderedMap.mem_toList_iff.1 hp)).symm
  unfold references
  rw [all]
  exact (perm.symm.flatMap_right _).append_left _

/-! ## Graphs without a root -/

theorem validate_of_rootless (root : g.root = none) : g.validate = .ok () ↔ g.ids = [] := by
  cases h : g.ids <;> simp [validate, root, h, pure, Except.pure, bind, Except.bind, throw,
    throwThe, MonadExceptOf.throw]

theorem not_rooted_of_rootless (root : g.root = none) : ¬ g.occupants.Rooted n := by
  intro h
  obtain ⟨r, held, _⟩ := rooted_iff.1 h
  rw [occupants_root_eq_nil.2 root] at held
  cases held

theorem isTree_of_rootless (root : g.root = none) : g.IsTree ↔ g.ids = [] := by
  constructor
  · intro tree
    exact List.eq_nil_iff_forall_not_mem.2 fun x hx => not_rooted_of_rootless root (tree.rooted hx)
  · intro none
    have out : ∀ s, g.occupants s = [] := fun s => by
      cases o : s.owner? with
      | none => rw [Slot.eq_root_of_owner o, occupants_root_eq_nil.2 root]
      | some a => exact occupants_eq_nil (by simp [none]) o
    exact ⟨⟨by simp [out], by simp [out], by simp [out], by simp [out]⟩, by simp [out],
      by simp [none]⟩

/-! ## Graphs with a root -/

/-- A graph with a root is valid if the search from the root succeeds and meets every entry. -/
theorem validate_of_root {r : NodeId} (root : g.root = some r) : g.validate = .ok () ↔
    ∃ out, g.visitOnce [] [r] = .ok out ∧ ∀ x ∈ g.ids, x ∈ out := by
  cases h : g.visitOnce [] [r] with
  | error f => simp [validate, root, h, bind, Except.bind]
  | ok out =>
    have found : (g.ids.find? fun n => !out.contains n) = none ↔ ∀ x ∈ g.ids, x ∈ out :=
      find?_isNone_iff
    cases orphan : g.ids.find? fun n => !out.contains n with
    | none =>
      have run : g.validate = .ok () := by
        simp only [validate, root, h, bind, Except.bind, orphan]
        rfl
      exact iff_of_true run ⟨out, rfl, found.1 orphan⟩
    | some n =>
      have run : g.validate = .error (.unreachable n) := by
        simp only [validate, root, h, bind, Except.bind, orphan]
        rfl
      refine iff_of_false (by simp [run]) ?_
      rintro ⟨o, e, all⟩
      cases e
      exact absurd (orphan.symm.trans (found.2 all)) (by simp)

/-- A search that meets every entry, each of them once, has gone through a tree. -/
theorem isTree_of_visitOnce {out : List NodeId} (root : g.root = some r)
    (run : g.visitOnce [] [r] = .ok out) (all : ∀ x ∈ g.ids, x ∈ out) : g.IsTree := by
  have spent := (Spent.start g r).walk run
  have same : out.Perm g.ids := (List.perm_ext_iff_of_nodup spent.distinct g.entries.nodup).2
    fun x => ⟨spent.entries x, all x⟩
  have refs : g.references.Perm out := (references_perm same).trans (by
    rw [root]
    exact spent.references.symm)
  obtain ⟨each, unique⟩ := nodup_references_iff.1 (refs.nodup_iff.2 spent.distinct)
  refine ⟨⟨owner_mem_ids, fun {s x} hx => ?_, each, fun {s t x} => unique s t x⟩, ?_, ?_⟩
  · exact spent.entries x (refs.mem_iff.1 (mem_references.2 ⟨s, hx⟩))
  · intro a b ha hb
    rw [mem_occupants_root] at ha hb
    exact Option.some.inj (ha.symm.trans hb)
  · exact fun {x} hx =>
      rooted_iff.2 ⟨r, mem_occupants_root.2 root, spent.reached x (all x hx)⟩

/-- A search that succeeds meets all that can be reached from where it begins. -/
theorem mem_visitOnce {out : List NodeId} (run : g.visitOnce [] [r] = .ok out)
    (reach : g.occupants.Reach r x) : x ∈ out := by
  have met : ∀ y, y ∈ out ↔ y ∈ r :: out.flatMap g.successors := fun y =>
    ((Spent.start g r).walk run).references.mem_iff
  induction reach with
  | refl => exact (met r).2 List.mem_cons_self
  | @tail a b _ edge ih =>
    exact (met b).2 (List.mem_cons_of_mem r
      (List.mem_flatMap.2 ⟨a, ih, mem_successors.2 edge⟩))

/-- A graph is valid if and only if it is a tree. -/
theorem validate_eq_ok_iff : g.validate = .ok () ↔ g.IsTree := by
  cases root : g.root with
  | none => rw [validate_of_rootless root, isTree_of_rootless root]
  | some r =>
    rw [validate_of_root root]
    constructor
    · rintro ⟨out, run, all⟩
      exact isTree_of_visitOnce root run all
    · intro tree
      obtain ⟨out, run⟩ := visitOnce_ok tree (.start root)
      refine ⟨out, run, fun x hx => ?_⟩
      obtain ⟨r', held, reach⟩ := rooted_iff.1 (tree.rooted hx)
      rw [mem_occupants_root, root] at held
      cases held
      exact mem_visitOnce run reach

/-- A valid graph without a root has no entries. -/
theorem isEmpty_iff_of_valid (valid : g.validate = .ok ()) : g.isEmpty ↔ g.root = none := by
  constructor
  · intro h
    exact Option.isNone_iff_eq_none.1 (Bool.and_eq_true_iff.1 h).1
  · intro root
    have none := (validate_of_rootless root).1 valid
    simp [isEmpty, root, OrderedMap.isEmpty, List.map_eq_nil_iff.1 none]

end Autoflow.Graph
