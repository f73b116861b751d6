import Autoflow.Proofs.Editing.Numbering

/-!
# Reserved ids

Fresh ids are kept apart from those of a workflow by counting on from the one after the greatest.
After the last id of 64 bits comes 0, so a workflow that has this one reserves nothing, and its
other ids may be drawn again as well: `lt_reserved_iff` says exactly which ids are past. A counter
that is past the ids of the workflow stays where it is (`reserved_eq`).
-/

namespace Autoflow

/-- The maximum of two words is one of them and the least word that neither exceeds. -/
instance lawfulOrderMaxUInt64 : Std.LawfulOrderMax UInt64 where
  max_le_iff a b c := by
    rw [UInt64.le_iff_toNat_le, UInt64.le_iff_toNat_le, UInt64.le_iff_toNat_le, UInt64.toNat_max,
      Nat.max_le]
  max_eq_or a b := by
    rcases Nat.le_total b.toNat a.toNat with le | le
    · exact Or.inl (UInt64.toNat_inj.1 (by rw [UInt64.toNat_max, Nat.max_eq_left le]))
    · exact Or.inr (UInt64.toNat_inj.1 (by rw [UInt64.toNat_max, Nat.max_eq_right le]))

namespace NodeId

variable {n : NodeId} {used : List NodeId}

theorem le_beyond (counter : NodeId) (used : List NodeId) :
    counter.toNat ≤ (counter.beyond used).toNat := by
  unfold beyond
  split
  · next greatest _ =>
    have most : (max counter.val (greatest + 1)).toNat = _ := UInt64.toNat_max _ _
    exact Nat.le_trans (Nat.le_max_left _ _) (Nat.le_of_eq most.symm)
  · exact Nat.le_refl _

/-- Only the greatest id of a list counts. -/
theorem toNat_beyond (counter : NodeId) (mem : n ∈ used) : ∃ m ∈ used,
    (∀ k ∈ used, k.toNat ≤ m.toNat) ∧
      (counter.beyond used).toNat = max counter.toNat m.next.toNat := by
  unfold beyond
  split
  · next v greatest =>
    obtain ⟨held, above⟩ := List.max?_eq_some_iff.1 greatest
    obtain ⟨m, hm, rfl⟩ := List.mem_map.1 held
    refine ⟨m, hm, fun k hk => UInt64.le_iff_toNat_le.1 (above _ (List.mem_map_of_mem hk)), ?_⟩
    exact UInt64.toNat_max _ _
  · next none =>
    rw [List.map_eq_nil_iff.1 (List.max?_eq_none_iff.1 none)] at mem
    cases mem

/-- An id of the list is past if it was so before, and all are if the last id is none of them. -/
theorem lt_beyond_iff {counter : NodeId} (mem : n ∈ used) : n < counter.beyond used ↔
    n < counter ∨ ∀ m ∈ used, m.toNat + 1 < UInt64.size := by
  obtain ⟨m, hm, above, reached⟩ := toNat_beyond counter mem
  have low := above n mem
  rw [lt_def, lt_def, reached, lt_max_iff, toNat_next]
  refine or_congr Iff.rfl ⟨fun past k hk => ?_, fun room => ?_⟩
  · have under := above k hk
    have range := m.toNat_lt
    by_contra full
    -- The greatest id is the last one, and what comes after that is below every id.
    have last : m.toNat + 1 = UInt64.size := by omega
    rw [last, Nat.mod_self] at past
    exact Nat.not_lt_zero _ past
  · rw [Nat.mod_eq_of_lt (room m hm)]
    exact Nat.lt_succ_of_le low

/-- A counter past all ids of a list stays where it is. -/
theorem beyond_eq {counter : NodeId} (past : ∀ n ∈ used, n < counter) :
    counter.beyond used = counter := by
  cases used with
  | nil => rfl
  | cons n used =>
    obtain ⟨m, hm, _, reached⟩ := toNat_beyond counter (List.mem_cons_self (a := n) (l := used))
    have low := lt_def.1 (past m hm)
    have wraps := Nat.mod_le (m.toNat + 1) UInt64.size
    rw [← toNat_inj, reached, toNat_next]
    omega

end NodeId

namespace Desk

variable {d : Desk} {n : NodeId}

theorem le_reserved (d : Desk) : d.editor.nextId.toNat ≤ d.reserved.editor.nextId.toNat :=
  NodeId.le_beyond _ _

theorem mem_used_iff (filed : d.workflow.Filed) :
    n ∈ d.workflow.graph.ids ++ d.workflow.nodes.ids ↔ n ∈ d.workflow.nodes.ids := by
  rw [List.mem_append, filed.ids n, or_self]

/-- Fresh ids are past an id of the workflow if they were so before, and past all of them if the
workflow does not have the last id of 64 bits. -/
theorem lt_reserved_iff (filed : d.workflow.Filed) (live : n ∈ d.workflow.nodes.ids) :
    n < d.reserved.editor.nextId ↔
      n < d.editor.nextId ∨ ∀ m ∈ d.workflow.nodes.ids, m.toNat + 1 < UInt64.size := by
  simp only [reserved, NodeId.lt_beyond_iff ((mem_used_iff filed).2 live), mem_used_iff filed]

/-- Nothing has to be reserved if all ids of the workflow are below the next one. -/
theorem reserved_eq (filed : d.workflow.Filed)
    (below : ∀ n ∈ d.workflow.nodes.ids, n < d.editor.nextId) : d.reserved = d := by
  rw [reserved, NodeId.beyond_eq fun n mem => below n ((mem_used_iff filed).1 mem)]

end Desk

end Autoflow
