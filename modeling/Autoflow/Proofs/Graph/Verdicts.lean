import Autoflow.Proofs.Graph.Validation
import Mathlib.Data.List.Flatten
import Mathlib.Data.List.Perm.Subperm

/-!
# What validation says

A graph is a tree exactly if all of its entries are reached from the root, all that it refers to
has an entry, and nothing is referred to twice (`isTree_iff_hangsFrom`). The walk of `validate`
meets no entry twice, so it needs no more than one round for each entry and one to fail in
(`visitWithin_eq`), whatever the graph looks like. All along, what lies on its stack and what it
has met are the root and the references of what it has met (`Spent`), which makes every fault that
it ends with true (`validate_verdict`).
-/

namespace Autoflow.Graph

open Layout

variable {g : Graph} {n r x y : NodeId} {f : GraphFault} {seen stack : List NodeId}

/-! ## What a valid graph is -/

/-- A node is another one or comes after it along the ids in its entry and in theirs. -/
def Reaches (g : Graph) : NodeId → NodeId → Prop :=
  Relation.ReflTransGen fun a b => b ∈ g.successors a

/-- All entries are reached from a node, and the references of the graph are all different and
have entries. -/
structure HangsFrom (g : Graph) (r : NodeId) : Prop where
  reached : ∀ x ∈ g.ids, g.Reaches r x
  closed : ∀ x ∈ g.references, x ∈ g.ids
  distinct : g.references.Nodup

theorem reaches_iff : g.Reaches x y ↔ g.occupants.Reach x y := by
  have same : (fun a b => b ∈ g.successors a) = g.occupants.Edge := by
    funext a b
    exact propext mem_successors
  rw [Reaches, same]

/-- What can be reached from the root is what the root reaches. -/
theorem rooted_iff_reaches (root : g.root = some r) : g.occupants.Rooted x ↔ g.Reaches r x := by
  simp [rooted_iff, root, reaches_iff]

/-- A graph with a root is a tree if and only if it hangs from the root. -/
theorem isTree_iff_hangsFrom (root : g.root = some r) : g.IsTree ↔ g.HangsFrom r := by
  constructor
  · intro tree
    refine ⟨fun x hx => (rooted_iff_reaches root).1 (tree.rooted hx), fun x hx => ?_, ?_⟩
    · obtain ⟨s, mem⟩ := mem_references.1 hx
      exact tree.mem mem
    · exact nodup_references_iff.2 ⟨tree.nodup, fun s t x => tree.slot_unique⟩
  · intro hangs
    obtain ⟨each, unique⟩ := nodup_references_iff.1 hangs.distinct
    refine ⟨⟨owner_mem_ids, fun {s x} hx => ?_, each, fun {s t x} => unique s t x⟩, ?_, ?_⟩
    · exact hangs.closed x (mem_references.2 ⟨s, hx⟩)
    · intro a b ha hb
      exact Option.some.inj ((mem_occupants_root.1 ha).symm.trans (mem_occupants_root.1 hb))
    · exact fun {x} hx => (rooted_iff_reaches root).2 (hangs.reached x hx)

/-! ## The walk ends -/

/-- The walk of `visitOnce`, given up if there are nodes on the stack after so many rounds. -/
def visitWithin (g : Graph) :
    Nat → List NodeId → List NodeId → Option (Except GraphFault (List NodeId))
  | _, seen, [] => some (.ok seen)
  | 0, _, _ :: _ => none
  | rounds + 1, seen, n :: stack =>
    if n ∈ seen then some (.error (.multipleIncomingEdges n))
    else
      match g.find? n with
      | none => some (.error (.danglingReference n))
      | some e => g.visitWithin rounds (n :: seen) (e.successors.reverse ++ stack)

theorem visitWithin_eq_of_unseen {rounds : Nat} (enough : g.unseen seen < rounds) :
    g.visitWithin rounds seen stack = some (g.visitOnce seen stack) := by
  fun_induction visitOnce g seen stack generalizing rounds with
  | case1 seen => rw [visitWithin]
  | case2 seen n stack isSeen =>
    obtain ⟨rounds, rfl⟩ := Nat.exists_eq_add_one_of_ne_zero (Nat.ne_zero_of_lt enough)
    rw [visitWithin, if_pos isSeen]
  | case3 seen n stack notSeen he =>
    obtain ⟨rounds, rfl⟩ := Nat.exists_eq_add_one_of_ne_zero (Nat.ne_zero_of_lt enough)
    rw [visitWithin, if_neg notSeen, he]
  | case4 seen n stack notSeen e he ih =>
    obtain ⟨rounds, rfl⟩ := Nat.exists_eq_add_one_of_ne_zero (Nat.ne_zero_of_lt enough)
    rw [visitWithin, if_neg notSeen, he]
    exact ih (Nat.lt_of_lt_of_le (unseen_cons_lt he notSeen) (Nat.le_of_lt_succ enough))

/-- One more round than there are entries is enough. -/
theorem visitWithin_eq {rounds : Nat} (enough : g.ids.length < rounds) :
    g.visitWithin rounds [] stack = some (g.visitOnce [] stack) :=
  visitWithin_eq_of_unseen (Nat.lt_of_le_of_lt List.countP_le_length enough)

/-! ## The faults that it finds -/

/-- What the nodes that were met refer to is a part of what all entries refer to. -/
theorem Spent.count_le (h : g.Spent r seen stack) (root : g.root = some r) (x : NodeId) :
    (stack ++ seen).count x ≤ g.references.count x := by
  obtain ⟨all, perm, part⟩ := List.subperm_iff.1 (List.subperm_of_subset h.distinct h.entries)
  have total := references_perm perm
  rw [root, Option.toList_some, List.singleton_append] at total
  calc (stack ++ seen).count x
    _ = (r :: seen.flatMap g.successors).count x := h.references.count_eq x
    _ ≤ (r :: all.flatMap g.successors).count x := ((part.flatMap _).cons_cons r).count_le x
    _ = g.references.count x := (total.count_eq x).symm

/-- What a fault found by validation says about the graph. -/
def Justifies (g : Graph) : GraphFault → Prop
  | .danglingReference n => n ∈ g.references ∧ n ∉ g.ids
  | .multipleIncomingEdges n => 2 ≤ g.references.count n
  | .unreachable n => n ∈ g.ids ∧ ∀ r, g.root = some r → ¬ g.Reaches r n
  | _ => False

theorem Spent.justifies (h : g.Spent r seen stack) (root : g.root = some r)
    (run : g.visitOnce seen stack = .error f) : g.Justifies f := by
  fun_induction visitOnce g seen stack with
  | case1 => cases run
  | case2 seen n stack isSeen =>
    cases run
    -- the node is on the stack, and it was met before
    have again : 0 < (stack ++ seen).count n :=
      List.count_pos_iff.2 (List.mem_append_right stack isSeen)
    have twice := h.count_le root n
    rw [List.cons_append, List.count_cons_self] at twice
    exact Nat.le_trans (Nat.succ_le_succ again) twice
  | case3 seen n stack notSeen missing =>
    cases run
    have listed := h.count_le root n
    rw [List.cons_append, List.count_cons_self] at listed
    exact ⟨List.count_pos_iff.1 (Nat.lt_of_lt_of_le (Nat.succ_pos _) listed),
      find?_eq_none_iff.1 missing⟩
  | case4 seen n stack notSeen e he ih => exact ih (h.step notSeen he) run

/-- After a walk that succeeded the fault is an entry that it did not meet. -/
theorem missed_of_check (seen : List NodeId)
    (fault : (match g.ids.find? fun n => !seen.contains n with
      | some orphan => Except.error (.unreachable orphan)
      | none => Except.ok ()) = Except.error f) : ∃ n ∈ g.ids, n ∉ seen ∧ f = .unreachable n := by
  cases orphan : g.ids.find? fun n => !seen.contains n with
  | none =>
    rw [orphan] at fault
    cases fault
  | some n =>
    rw [orphan] at fault
    cases fault
    exact ⟨n, List.mem_of_find?_eq_some orphan, by simpa using List.find?_some orphan, rfl⟩

theorem justifies_of_validate (fault : g.validate = .error f) : g.Justifies f := by
  cases root : g.root with
  | none =>
    simp only [validate, root] at fault
    obtain ⟨n, there, _, rfl⟩ := missed_of_check [] fault
    exact ⟨there, fun r held => by rw [root] at held; cases held⟩
  | some r =>
    cases walk : g.visitOnce [] [r] with
    | error f' =>
      have same : f' = f := by simpa [validate, root, walk, bind, Except.bind] using fault
      exact same ▸ (Spent.start g r).justifies root walk
    | ok out =>
      simp only [validate, root, walk] at fault
      obtain ⟨n, there, missed, rfl⟩ := missed_of_check out fault
      refine ⟨there, fun r' held reach => missed ?_⟩
      rw [root] at held
      cases held
      exact mem_visitOnce walk (reaches_iff.1 reach)

/-- Validation accepts exactly the graphs without nodes and those that hang from their root. Its
walk ends on every graph, and each fault that it finds is one of the graph. -/
theorem validate_verdict (g : Graph) :
    (g.validate = .ok () ↔
      (g.root = none ∧ g.ids = []) ∨ ∃ r, g.root = some r ∧ g.HangsFrom r) ∧
    (∀ r rounds, g.root = some r → g.ids.length < rounds →
      g.visitWithin rounds [] [r] = some (g.visitOnce [] [r])) ∧
    ∀ f, g.validate = .error f → g.Justifies f := by
  refine ⟨?_, fun r rounds _ enough => visitWithin_eq enough, fun f => justifies_of_validate⟩
  cases root : g.root with
  | none => simp [validate_of_rootless root]
  | some r => simp [validate_eq_ok_iff, isTree_iff_hangsFrom root]

end Autoflow.Graph
