import Autoflow.Proofs.Editing.Shares

/-!
# The ids that one workflow draws

If steps on several workflows are mixed, the ids that go to one of them are not counted one after
the other. Had the steps on that workflow been taken alone, they would be. Both lists increase, so a
permutation that leaves the ids before alone and takes the one list to the other keeps the order
(`exists_renumbering`).
-/

namespace Autoflow

namespace NodeId

variable {c n m : NodeId} {i : Nat} {l : List NodeId}

theorem toNat_iterate_next_of_lt (h : c.toNat + i < UInt64.size) :
    (next^[i] c).toNat = c.toNat + i := by
  rw [toNat_iterate_next, Nat.mod_eq_of_lt h]

/-- A counter that does not fall has not come round. -/
theorem no_wrap (few : i < UInt64.size) (rises : ¬ next^[i] c < c) :
    c.toNat + i < UInt64.size := by
  by_contra wraps
  refine rises ?_
  have c_lt := c.toNat_lt
  rw [lt_def, toNat_iterate_next, Nat.mod_eq_sub_mod (Nat.le_of_not_lt wraps)]
  exact Nat.lt_of_le_of_lt (Nat.mod_le _ _) (by omega)

/-- Ids that increase are as far from the least as their number in the list. -/
theorem add_le_of_sorted {least : Nat} (sorted : l.Pairwise (· < ·))
    (above : ∀ n ∈ l, least ≤ n.toNat) (held : l[i]? = some n) : least + i ≤ n.toNat := by
  induction l generalizing least i with
  | nil => cases held
  | cons m l ih =>
    obtain ⟨first, rest⟩ := List.pairwise_cons.1 sorted
    have low := above m List.mem_cons_self
    cases i with
    | zero =>
      cases held
      exact low
    | succ i =>
      have later := ih rest (fun k mem => Nat.succ_le_of_lt (lt_def.1 (first k mem))) held
      omega

/-- The ids from one on that come before another one. -/
def between (a b : NodeId) : List NodeId :=
  (List.range (b.toNat - a.toNat)).map fun i => next^[i] a

theorem mem_between {a b : NodeId} (mem : n ∈ between a b) : ¬ n < a ∧ n < b := by
  obtain ⟨i, held, rfl⟩ := List.mem_map.1 mem
  rw [List.mem_range] at held
  have b_lt := b.toNat_lt
  rw [lt_def, lt_def, toNat_iterate_next_of_lt (by omega)]
  omega

theorem sorted_between (a b : NodeId) : (between a b).Pairwise (· < ·) := by
  have b_lt := b.toNat_lt
  refine List.pairwise_map.2 (List.pairwise_lt_range.imp_of_mem fun {i j} hi hj lt => ?_)
  rw [List.mem_range] at hi hj
  rw [lt_def, toNat_iterate_next_of_lt (by omega), toNat_iterate_next_of_lt (by omega)]
  omega

/-- The ids drawn from one on, of which the counter has come to another one. -/
theorem between_iterate (room : c.toNat + i < UInt64.size) :
    between c (next^[i] c) = (List.range i).map fun j => next^[j] c := by
  rw [between, toNat_iterate_next_of_lt room, Nat.add_sub_cancel_left]

/-- The ids of a list are counted from one on. Those before it stay as they are. -/
def renumber (c : NodeId) (l : List NodeId) (n : NodeId) : NodeId :=
  if n < c then n else next^[l.idxOf n] c

theorem renumber_of_lt (low : n < c) : renumber c l n = n := if_pos low

section

variable (sorted : l.Pairwise (· < ·)) (above : ∀ n ∈ l, ¬ n < c)

include sorted above

theorem renumber_of_getElem? (held : l[i]? = some n) : renumber c l n = next^[i] c ∧
    (renumber c l n).toNat = c.toNat + i := by
  obtain ⟨lt, rfl⟩ := List.getElem?_eq_some_iff.1 held
  have nodup : l.Nodup := sorted.imp fun {a b} lt same => by
    rw [same] at lt
    exact lt_irrefl b lt
  have place : renumber c l l[i] = next^[i] c := by
    rw [renumber, if_neg (above _ (List.getElem_mem lt)), nodup.idxOf_getElem i lt]
  have from_c : ∀ k ∈ l, c.toNat ≤ k.toNat := fun k mem => Nat.le_of_not_lt (above k mem)
  have low := add_le_of_sorted sorted from_c held
  have high := l[i].toNat_lt
  exact ⟨place, by rw [place, toNat_iterate_next_of_lt (by omega)]⟩

theorem renumber_lt_renumber (hn : n < c ∨ n ∈ l) (hm : m < c ∨ m ∈ l) (lt : n < m) :
    renumber c l n < renumber c l m := by
  rcases hm with low' | mem'
  · rwa [renumber_of_lt low', renumber_of_lt (lt_trans lt low')]
  · obtain ⟨j, held'⟩ := List.mem_iff_getElem?.1 mem'
    have image' := (renumber_of_getElem? sorted above held').2
    rcases hn with low | mem
    · rw [renumber_of_lt low, lt_def, image']
      exact Nat.lt_of_lt_of_le (lt_def.1 low) (Nat.le_add_right _ _)
    · obtain ⟨i, held⟩ := List.mem_iff_getElem?.1 mem
      rw [lt_def, image', (renumber_of_getElem? sorted above held).2]
      -- The one that is less comes first.
      obtain ⟨hi, rfl⟩ := List.getElem?_eq_some_iff.1 held
      obtain ⟨hj, rfl⟩ := List.getElem?_eq_some_iff.1 held'
      rcases Nat.lt_trichotomy i j with before | rfl | after
      · omega
      · exact absurd lt (lt_irrefl _)
      · exact absurd (lt_trans lt (List.pairwise_iff_getElem.1 sorted j i hj hi after))
          (lt_irrefl _)

theorem renumber_injOn : {n | n < c ∨ n ∈ l}.InjOn (renumber c l) := by
  intro n hn m hm same
  rcases lt_or_eq_or_gt n m with lt | equal | gt
  · exact absurd (renumber_lt_renumber sorted above hn hm lt) (same ▸ lt_irrefl _)
  · exact equal
  · exact absurd (renumber_lt_renumber sorted above hm hn gt) (same ▸ lt_irrefl _)

/-- Ids that increase from one on can be exchanged for those that are counted from it. -/
theorem exists_renumbering :
    ∃ σ : Equiv.Perm NodeId, (∀ n, n < c → σ n = n) ∧
      (∀ i n, l[i]? = some n → σ n = next^[i] c) ∧
      ∀ n m, n < c ∨ n ∈ l → m < c ∨ m ∈ l → n < m → σ n < σ m := by
  obtain ⟨σ, extends_it⟩ := exists_perm (renumber_injOn sorted above)
  refine ⟨σ, fun n low => (extends_it n (Or.inl low)).trans (renumber_of_lt low),
    fun i n held => ?_, fun n m hn hm lt => ?_⟩
  · exact (extends_it n (Or.inr (List.mem_of_getElem? held))).trans
      (renumber_of_getElem? sorted above held).1
  · rw [extends_it n hn, extends_it m hm]
    exact renumber_lt_renumber sorted above hn hm lt

end

end NodeId

namespace Session

/-- The ids drawn in the steps on one workflow. -/
def allotted (s : Session) (name : String) : List Step → List NodeId
  | [] => []
  | step :: steps =>
    if step.subject = name then
      NodeId.between s.editor.nextId (s.after step).editor.nextId ++
        (s.after step).allotted name steps
    else (s.after step).allotted name steps

variable {s : Session} {steps : List Step}

/-- The ids that a workflow draws increase, and none was drawn before. -/
theorem Apart.sorted (apart : s.Apart steps) (name : String) :
    (s.allotted name steps).Pairwise (· < ·) ∧
      ∀ n ∈ s.allotted name steps, ¬ n < s.editor.nextId := by
  induction steps generalizing s with
  | nil => exact ⟨List.Pairwise.nil, nofun⟩
  | cons step steps ih =>
    obtain ⟨⟨_, rises⟩, later⟩ := apart
    obtain ⟨sorted, above⟩ := ih later
    rw [NodeId.lt_def] at rises
    have above_now : ∀ n ∈ (s.after step).allotted name steps, ¬ n < s.editor.nextId := by
      intro n mem
      have high := above n mem
      rw [NodeId.lt_def] at high ⊢
      omega
    rw [allotted]
    split
    · refine ⟨List.pairwise_append.2 ⟨NodeId.sorted_between _ _, sorted, fun n mem m mem' => ?_⟩,
        fun n mem => ?_⟩
      · have low := (NodeId.mem_between mem).2
        have high := above m mem'
        rw [NodeId.lt_def] at low high ⊢
        omega
      · rcases List.mem_append.1 mem with now | mem
        · exact (NodeId.mem_between now).1
        · exact above_now n mem
    · exact ⟨sorted, above_now⟩

end Session

end Autoflow
