import Autoflow.Graph.Walks
import Autoflow.Proofs.Graph.Occupants

/-!
# What lies inside a node

The walk behind `Graph.descendants` collects only what can be reached from its stack
(`reach_sound`), and all of it that can be reached without passing through its origin
(`reach_closed`). In a tree nothing inside a node leads back to it, so the descendants of a node
are exactly the nodes inside it.
-/

namespace Autoflow.Graph

open Layout

variable {g : Graph} {n x y z origin : NodeId} {found stack : List NodeId}

theorem reach_cons {e : Entry} (new : ¬ (n = origin ∨ n ∈ found)) (he : g.find? n = some e) :
    g.reach origin found (n :: stack) =
      g.reach origin (n :: found) (e.successors.reverse ++ stack) := by
  rw [reach, dif_neg new]
  split <;> simp_all

theorem reach_sound (h : x ∈ g.reach origin found stack) :
    x ∈ found ∨ ∃ s ∈ stack, g.occupants.Reach s x := by
  fun_induction reach g origin found stack with
  | case1 => exact Or.inl h
  | case2 found n stack skip ih =>
    rcases ih h with hx | ⟨s, hs, r⟩
    · exact Or.inl hx
    · exact Or.inr ⟨s, List.mem_cons_of_mem _ hs, r⟩
  | case3 found n stack new he ih =>
    rcases ih h with hx | ⟨s, hs, r⟩
    · rcases List.mem_cons.1 hx with rfl | hx
      · exact Or.inr ⟨x, List.mem_cons_self, .refl⟩
      · exact Or.inl hx
    · exact Or.inr ⟨s, List.mem_cons_of_mem _ hs, r⟩
  | case4 found n stack new e he ih =>
    rcases ih h with hx | ⟨s, hs, r⟩
    · rcases List.mem_cons.1 hx with rfl | hx
      · exact Or.inr ⟨x, List.mem_cons_self, .refl⟩
      · exact Or.inl hx
    · rcases List.mem_append.1 hs with hs | hs
      · have edge := (mem_successors_iff he).1 (List.mem_reverse.1 hs)
        exact Or.inr ⟨n, List.mem_cons_self, .head edge r⟩
      · exact Or.inr ⟨s, List.mem_cons_of_mem _ hs, r⟩

/-- What was found stays, what is on the stack is found, and so is what is behind anything
found newly, but for the origin. -/
theorem reach_closed (g : Graph) (origin : NodeId) (found stack : List NodeId) :
    (∀ y ∈ found, y ∈ g.reach origin found stack) ∧
    (∀ y ∈ stack, y = origin ∨ y ∈ g.reach origin found stack) ∧
    ∀ y ∈ g.reach origin found stack, y ∈ found ∨
      ∀ z, g.occupants.Edge y z → z = origin ∨ z ∈ g.reach origin found stack := by
  fun_induction reach g origin found stack with
  | case1 found => exact ⟨fun _ h => h, by simp, fun _ h => Or.inl h⟩
  | case2 found n stack skip ih =>
    obtain ⟨keep, cover, closed⟩ := ih
    refine ⟨keep, fun y hy => ?_, closed⟩
    rcases List.mem_cons.1 hy with rfl | hy
    · exact skip.imp id (keep y)
    · exact cover y hy
  | case3 found n stack new he ih =>
    obtain ⟨keep, cover, closed⟩ := ih
    refine ⟨fun y hy => keep y (List.mem_cons_of_mem _ hy), fun y hy => ?_, fun y hy => ?_⟩
    · rcases List.mem_cons.1 hy with rfl | hy
      · exact Or.inr (keep y List.mem_cons_self)
      · exact cover y hy
    · rcases closed y hy with old | next
      · rcases List.mem_cons.1 old with rfl | old
        · refine Or.inr fun z edge => ?_
          obtain ⟨e, he', _⟩ := edge_iff.1 edge
          rw [he] at he'
          cases he'
        · exact Or.inl old
      · exact Or.inr next
  | case4 found n stack new e he ih =>
    obtain ⟨keep, cover, closed⟩ := ih
    refine ⟨fun y hy => keep y (List.mem_cons_of_mem _ hy), fun y hy => ?_, fun y hy => ?_⟩
    · rcases List.mem_cons.1 hy with rfl | hy
      · exact Or.inr (keep y List.mem_cons_self)
      · exact cover y (List.mem_append_right _ hy)
    · rcases closed y hy with old | next
      · rcases List.mem_cons.1 old with rfl | old
        · refine Or.inr fun z edge => cover z (List.mem_append_left _ ?_)
          exact List.mem_reverse.2 ((mem_successors_iff he).2 edge)
        · exact Or.inl old
      · exact Or.inr next

theorem descendants_eq (h : n ∈ g.ids) :
    g.descendants n = .ok (g.reach n [] (g.occupants (.child n)).reverse) := by
  obtain ⟨e, he⟩ := mem_ids_iff.1 h
  simp [descendants, children, require, he, occupants_child he, Except.map, bind, Except.bind,
    pure, Except.pure]

/-- In a tree the descendants of a node are the nodes inside it. -/
theorem IsTree.mem_reach_iff (tree : g.IsTree) :
    x ∈ g.reach n [] (g.occupants (.child n)).reverse ↔ g.occupants.Inside n x := by
  constructor
  · intro h
    rcases reach_sound h with hx | ⟨s, hs, r⟩
    · cases hx
    · exact ⟨s, List.mem_reverse.1 hs, r⟩
  · rintro ⟨d, hd, r⟩
    obtain ⟨_, cover, closed⟩ :=
      reach_closed g n [] (g.occupants (.child n)).reverse
    have away : ∀ {y}, g.occupants.Reach d y → y ≠ n := by
      intro y ry e
      rw [e] at ry
      exact tree.not_inside_self ⟨d, hd, ry⟩
    induction r with
    | refl => exact (cover d (List.mem_reverse.2 hd)).resolve_left (away .refl)
    | @tail y z ry edge ih =>
      rcases closed y ih with old | next
      · cases old
      · exact (next z edge).resolve_left (away (ry.tail edge))

theorem IsTree.mem_descendants_iff (tree : g.IsTree) {l : List NodeId}
    (h : g.descendants n = .ok l) : x ∈ l ↔ g.occupants.Inside n x := by
  by_cases hn : n ∈ g.ids
  · rw [descendants_eq hn] at h
    cases h
    exact tree.mem_reach_iff
  · have : g.find? n = none := find?_eq_none_iff.2 hn
    simp [descendants, children, require, this, Except.map, bind, Except.bind] at h

end Autoflow.Graph
