import Autoflow.Proofs.Graph.Rewiring
import Autoflow.Proofs.Graph.Validation

/-!
# The depth-first listing

`Graph.listing` goes through a graph depth first: a node, then what follows it, output by output,
then what is inside it. It remembers the nodes that it has met, so it ends on every graph. In a tree
it does not need that: there it is the listing that the rules of `Listed` give
(`IsTree.listed_listing`), and every node with an entry is in it once (`IsTree.listing_perm`).

If nodes are struck out and each of them gives way to what its successors give way to, the others
are listed as before (`Listed.strike`). So a node of a tree can be taken out, and all below some of
its successors with it, while the rest of its successors close the gap (`IsTree.strike`).
-/

namespace Autoflow

/-- The listing of some nodes and of all that comes after them: each node stands before what comes
after it, and this before the next node. -/
inductive Listed (after : NodeId → List NodeId) : List NodeId → List NodeId → Prop
  | nil : Listed after [] []
  | cons {n : NodeId} {rest below beside : List NodeId} (down : Listed after (after n) below)
      (on : Listed after rest beside) : Listed after (n :: rest) (n :: (below ++ beside))

namespace Listed

variable {after after' : NodeId → List NodeId} {nodes more l l' : List NodeId} {x : NodeId}

/-- Two lists of nodes are listed one after the other, -/
theorem append (h : Listed after nodes l) (h' : Listed after more l') :
    Listed after (nodes ++ more) (l ++ l') := by
  induction h with
  | nil => exact h'
  | cons down _ _ ih =>
    rw [List.cons_append, List.cons_append, List.append_assoc]
    exact .cons down ih

/-- and the listing of both can be taken apart. -/
theorem of_append (h : Listed after (nodes ++ more) l) :
    ∃ a b, l = a ++ b ∧ Listed after nodes a ∧ Listed after more b := by
  induction nodes generalizing l with
  | nil => exact ⟨[], l, rfl, .nil, h⟩
  | cons n nodes ih =>
    cases h with
    | cons down on =>
      obtain ⟨a, b, rfl, first, last⟩ := ih on
      exact ⟨_, b, by simp, .cons down first, last⟩

/-- There is one listing of the same nodes at most. -/
theorem unique (h : Listed after nodes l) (h' : Listed after nodes l') : l = l' := by
  induction h generalizing l' with
  | nil =>
    cases h'
    rfl
  | cons _ _ ihDown ihOn =>
    cases h' with
    | cons down on => rw [ihDown down, ihOn on]

/-- Struck nodes drop out of a listing, if each gives way to what its successors give way to, and
the successors of the others give way in the same manner. -/
theorem strike {way : NodeId → List NodeId} {struck : List NodeId}
    (gone : ∀ x ∈ struck, (after x).flatMap way = way x) (stays : ∀ x, x ∉ struck → way x = [x])
    (close : ∀ x, x ∉ struck → after' x = (after x).flatMap way) (h : Listed after nodes l) :
    Listed after' (nodes.flatMap way) (l.filter (· ∉ struck)) := by
  induction h with
  | nil => exact .nil
  | @cons n rest below beside _ _ down on =>
    rw [List.flatMap_cons]
    by_cases out : n ∈ struck
    · have dropped : (n :: (below ++ beside)).filter (· ∉ struck) =
          below.filter (· ∉ struck) ++ beside.filter (· ∉ struck) := by simp [out]
      rw [dropped, ← gone n out]
      exact down.append on
    · have kept : (n :: (below ++ beside)).filter (· ∉ struck) =
          n :: (below.filter (· ∉ struck) ++ beside.filter (· ∉ struck)) := by simp [out]
      rw [kept, stays n out, List.singleton_append]
      exact .cons (close n out ▸ down) on

end Listed

namespace Graph

open Layout

variable {g : Graph} {n r x : NodeId} {e : Entry} {met stack : List NodeId}

/-! ## The listing of a graph -/

/-- Lists the nodes on a stack and all that comes after them, each node where it is met first. -/
def listFrom (g : Graph) (met : List NodeId) : List NodeId → List NodeId
  | [] => []
  | n :: stack =>
    if _hs : n ∈ met then listFrom g met stack
    else
      match _he : g.find? n with
      | none => n :: listFrom g (n :: met) stack
      | some e => n :: listFrom g (n :: met) (e.successors ++ stack)
termination_by stack => (g.unseen met, stack.length)
decreasing_by
  · exact Prod.Lex.right _ (Nat.lt_succ_self _)
  · rcases Nat.lt_or_eq_of_le (unseen_cons_le g n met) with h | h
    · exact Prod.Lex.left _ _ h
    · rw [h]
      exact Prod.Lex.right _ (Nat.lt_succ_self _)
  · exact Prod.Lex.left _ _ (unseen_cons_lt _he _hs)

/-- The nodes of a graph that are reached from the root, depth first: a node, then what is on its
outputs in their order, then what is inside it. -/
def listing (g : Graph) : List NodeId := g.listFrom [] g.root.toList

/-- A walk of a tree meets nothing twice, so what it lists is the listing. -/
theorem listed_listFrom (tree : g.IsTree) (h : g.Frontier met stack) :
    Listed g.successors stack (g.listFrom met stack) := by
  fun_induction listFrom g met stack with
  | case1 => exact .nil
  | case2 met n stack old ih => exact absurd old h.fresh
  | case3 met n stack new he ih => exact absurd (h.mem_ids tree) (find?_eq_none_iff.1 he)
  | case4 met n stack new e he ih =>
    obtain ⟨below, beside, split, down, on⟩ := (ih (h.step tree he)).of_append
    rw [split]
    exact .cons (successors_of_find? he ▸ down) on

/-- At the start of the walk the root is all there is to go to. -/
theorem frontier_root (g : Graph) : g.Frontier [] g.root.toList := by
  cases root : g.root with
  | none => exact ⟨List.nodup_nil, nofun⟩
  | some r => exact .start root

theorem IsTree.listed_listing (tree : g.IsTree) : Listed g.successors g.root.toList g.listing :=
  listed_listFrom tree g.frontier_root

/-- A listing names no node twice. -/
theorem nodup_listFrom (g : Graph) (met stack : List NodeId) :
    (g.listFrom met stack).Nodup ∧ ∀ x ∈ g.listFrom met stack, x ∉ met := by
  fun_induction listFrom g met stack with
  | case1 => exact ⟨List.nodup_nil, nofun⟩
  | case2 met n stack old ih => exact ih
  | case3 met n stack new he ih =>
    refine ⟨List.nodup_cons.2 ⟨fun mem => ih.2 n mem List.mem_cons_self, ih.1⟩, ?_⟩
    exact List.forall_mem_cons.2 ⟨new, fun x mem old => ih.2 x mem (List.mem_cons_of_mem n old)⟩
  | case4 met n stack new e he ih =>
    refine ⟨List.nodup_cons.2 ⟨fun mem => ih.2 n mem List.mem_cons_self, ih.1⟩, ?_⟩
    exact List.forall_mem_cons.2 ⟨new, fun x mem old => ih.2 x mem (List.mem_cons_of_mem n old)⟩

/-- What is listed is what the nodes lead to. -/
theorem mem_of_listed {nodes l : List NodeId} (h : Listed g.successors nodes l) :
    x ∈ l ↔ ∃ n ∈ nodes, g.occupants.Reach n x := by
  induction h with
  | nil => simp
  | @cons n rest below beside _ _ down on =>
    have first : g.occupants.Reach n x ↔ x = n ∨ ∃ m ∈ g.successors n, g.occupants.Reach m x := by
      simp only [mem_successors, @eq_comm _ x n]
      exact Relation.ReflTransGen.cases_head_iff
    rw [List.mem_cons, List.mem_append, down, on, List.exists_mem_cons_iff, first, or_assoc]

/-- In a tree the listing names every node that has an entry, once. -/
theorem IsTree.listing_perm (tree : g.IsTree) : g.listing.Perm g.ids := by
  refine (List.perm_ext_iff_of_nodup (nodup_listFrom g [] _).1 g.entries.nodup).2 fun x => ?_
  have reached : x ∈ g.listing ↔ g.occupants.Rooted x := by
    rw [mem_of_listed tree.listed_listing, rooted_iff]
    rfl
  refine reached.trans ⟨fun rooted => ?_, tree.rooted⟩
  obtain ⟨_, mem⟩ := rooted
  exact tree.mem mem

/-! ## Striking out -/

/-- What takes the place of a node if one node gives way to some others and what is inside it is
given up. -/
def giveWay (n : NodeId) (kept inside : List NodeId) (x : NodeId) : List NodeId :=
  if x = n then kept else if x ∈ inside then [] else [x]

section GiveWay

variable {kept inside nodes : List NodeId}

/-- A node that stays is listed where it was. -/
theorem giveWay_of_not_mem (out : x ∉ n :: inside) : giveWay n kept inside x = [x] := by
  rw [List.mem_cons, not_or] at out
  rw [giveWay, if_neg out.1, if_neg out.2]

/-- The nodes inside are not listed any more. -/
theorem flatMap_giveWay_inside (given : ∀ x ∈ nodes, x ≠ n ∧ x ∈ inside) :
    nodes.flatMap (giveWay n kept inside) = [] :=
  List.flatMap_eq_nil_iff.2 fun x mem => by
    rw [giveWay, if_neg (given x mem).1, if_pos (given x mem).2]

theorem flatMap_giveWay_outside (out : ∀ x ∈ nodes, x ∉ n :: inside) :
    nodes.flatMap (giveWay n kept inside) = nodes := by
  calc nodes.flatMap (giveWay n kept inside)
    _ = nodes.flatMap fun x => [x] :=
      List.flatMap_congr fun x mem => giveWay_of_not_mem (out x mem)
    _ = nodes := List.flatMap_singleton' nodes

/-- In a list that has the node, the kept ones stand in its place. -/
theorem flatMap_giveWay (distinct : nodes.Nodup) (out : ∀ x ∈ nodes, x ∉ inside) :
    nodes.flatMap (giveWay n kept inside) = splice n kept nodes := by
  induction nodes with
  | nil => rfl
  | cons x nodes ih =>
    obtain ⟨fresh, distinct⟩ := List.nodup_cons.1 distinct
    obtain ⟨here, out⟩ := List.forall_mem_cons.1 out
    rw [List.flatMap_cons]
    by_cases e : x = n
    · subst e
      have rest : ∀ y ∈ nodes, y ∉ x :: inside := fun y mem given =>
        (List.mem_cons.1 given).elim (fun e => fresh (e ▸ mem)) (out y mem)
      rw [giveWay, if_pos rfl, flatMap_giveWay_outside rest, splice, if_pos rfl]
    · rw [giveWay_of_not_mem (by simp [e, here]), ih distinct out, splice, if_neg e]
      rfl

end GiveWay

section Strike

variable {kept dropped inside : List NodeId}

/-- The successors of a node of a tree are all different. -/
theorem IsTree.successors_distinct (tree : g.IsTree) (n : NodeId) : (g.successors n).Nodup := by
  cases he : g.find? n with
  | none => simp [successors, he]
  | some e => exact successors_of_find? he ▸ nodup_successors tree.toOrderly he

/-- A node of a tree is taken out, together with all below some of its successors, and the rest of
them close the gap. Then the listing is the one before without the nodes that are gone. -/
theorem IsTree.strike (tree : g.IsTree) (split : g.successors n = kept ++ dropped)
    (inner : ∀ x, x ∈ inside ↔ ∃ d ∈ dropped, g.occupants.Reach d x)
    {after : NodeId → List NodeId}
    (close : ∀ x, x ∉ n :: inside → after x = splice n kept (g.successors x)) :
    Listed after (splice n kept g.root.toList) (g.listing.filter (· ∉ n :: inside)) := by
  have edge : ∀ {x y}, y ∈ g.successors x → g.occupants.Edge x y := mem_successors.1
  have edge_dropped : ∀ {d}, d ∈ dropped → g.occupants.Edge n d := fun mem =>
    edge (split ▸ List.mem_append_right kept mem)
  have below : ∀ {x y}, x ∈ inside → g.occupants.Edge x y → y ∈ inside := fun mem e => by
    obtain ⟨d, hd, reach⟩ := (inner _).1 mem
    exact (inner _).2 ⟨d, hd, reach.tail e⟩
  have above : ∀ {x y}, y ∈ inside → g.occupants.Edge x y → x = n ∨ x ∈ inside := fun mem e => by
    obtain ⟨d, hd, reach⟩ := (inner _).1 mem
    rcases Relation.ReflTransGen.cases_tail reach with rfl | ⟨z, reach, e'⟩
    · exact Or.inl (tree.owner_unique e (edge_dropped hd))
    · exact Or.inr (tree.owner_unique e e' ▸ (inner z).2 ⟨d, hd, reach⟩)
  have self : n ∉ inside := fun mem => by
    obtain ⟨d, hd, reach⟩ := (inner n).1 mem
    exact tree.not_reach_of_edge (edge_dropped hd) reach
  have distinct := List.nodup_append.1 (split ▸ tree.successors_distinct n)
  have kept_out : ∀ x ∈ kept, x ∉ n :: inside := by
    intro x mem given
    have e : g.occupants.Edge n x := edge (split ▸ List.mem_append_left dropped mem)
    rcases List.mem_cons.1 given with rfl | given
    · exact tree.not_edge_self e
    · obtain ⟨d, hd, reach⟩ := (inner x).1 given
      exact distinct.2.2 x mem d hd (tree.eq_of_reach e (edge_dropped hd) .refl reach)
  have roots : g.root.toList.flatMap (giveWay n kept inside) = splice n kept g.root.toList := by
    refine flatMap_giveWay (tree.nodup .root) fun x root given => ?_
    obtain ⟨d, hd, reach⟩ := (inner x).1 given
    rcases Relation.ReflTransGen.cases_tail reach with rfl | ⟨z, _, e⟩
    · exact tree.not_edge_of_mem_root root (edge_dropped hd)
    · exact tree.not_edge_of_mem_root root e
  refine roots ▸ Listed.strike (fun x given => ?_) (fun x => giveWay_of_not_mem) (fun x out => ?_)
    tree.listed_listing
  · by_cases e : x = n
    · subst e
      rw [split, List.flatMap_append, flatMap_giveWay_outside kept_out,
        flatMap_giveWay_inside fun d hd =>
          ⟨fun e => tree.not_edge_self (e ▸ edge_dropped hd), (inner d).2 ⟨d, hd, .refl⟩⟩,
        List.append_nil, giveWay, if_pos rfl]
    · have within : x ∈ inside := (List.mem_cons.1 given).resolve_left e
      rw [giveWay, if_neg e, if_pos within]
      refine flatMap_giveWay_inside fun y mem => ?_
      have inside_y := below within (edge mem)
      exact ⟨fun e => self (e ▸ inside_y), inside_y⟩
  · rw [close x out]
    refine (flatMap_giveWay (tree.successors_distinct x) fun y mem given => out ?_).symm
    exact List.mem_cons.2 (above given (edge mem))

end Strike

end Graph

end Autoflow
