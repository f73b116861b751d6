import Autoflow.Proofs.Graph.Alike

/-!
# Entries after an edit

Which nodes have an entry after an edit of any graph, a tree or not: inserting adds one, removing
takes one out, replacing does both and moving does neither. An insertion or a move that fails
does so before it changes anything (`insert_error`, `move_error`).
-/

namespace Autoflow.Graph

variable {g g' : Graph} {n m k : NodeId} {p : Position} {f : GraphFault}

theorem insert_error (run : insert n p g = .error f g') : g' = g := by
  unfold insert at run
  split at run
  · cases run
  · split at run
    · cases run
    · cases run
      rfl

/-- A node can be put into a slot at the root or of a node that has an entry. -/
theorem insert_run (held : ∀ r, p.reference = some r → r ∈ g.ids) :
    ∃ g', insert n p g = .ok () g' := by
  unfold insert
  cases ref : p.reference with
  | none => exact ⟨_, rfl⟩
  | some r => exact ⟨_, if_pos (contains_iff.2 (held r ref))⟩

theorem insert_eq_placeAtRoot (run : insert n p g = .ok () g') (ref : p.reference = none) :
    g' = g.placeAtRoot n := by
  unfold insert at run
  simp only [ref] at run
  cases run
  rfl

/-- A node is put into a slot of another node only if that one has an entry. -/
theorem insert_eq_placeAt {r : NodeId} (run : insert n p g = .ok () g')
    (ref : p.reference = some r) : r ∈ g.ids ∧ g' = g.placeAt n r p.placement p.output := by
  unfold insert at run
  simp only [ref] at run
  split at run
  · next there =>
    cases run
    exact ⟨contains_iff.1 there, rfl⟩
  · cases run

theorem mem_ids_insert (run : insert n p g = .ok () g') : m ∈ g'.ids ↔ m = n ∨ m ∈ g.ids := by
  cases ref : p.reference with
  | none =>
    obtain rfl := insert_eq_placeAtRoot run ref
    exact mem_ids_placeAtRoot
  | some r =>
    obtain ⟨_, rfl⟩ := insert_eq_placeAt run ref
    exact mem_ids_placeAt

/-- Removing a node that has an entry either cuts the entry down or takes it out. -/
theorem remove_eq_ok {keepInfo : Bool} (run : remove n keepInfo g = .ok () g') (there : n ∈ g.ids) :
    ∃ p l, g' = if keepInfo then g.bypass n p l
      else { g.bypass n p l with entries := (g.bypass n p l).entries.erase n } := by
  obtain ⟨e, he⟩ := mem_ids_iff.1 there
  rw [remove_eq] at run
  rw [he] at run
  cases at_p : g.position n with
  | error fault =>
    simp only [at_p] at run
    cases run
  | ok p =>
    simp only [at_p] at run
    cases run
    exact ⟨p, _, rfl⟩

theorem mem_ids_remove (run : remove n false g = .ok () g') : m ∈ g'.ids ↔ m ≠ n ∧ m ∈ g.ids := by
  by_cases there : n ∈ g.ids
  · obtain ⟨p, l, rfl⟩ := remove_eq_ok run there
    exact mem_ids_erase.trans (and_congr_right fun _ => by rw [ids_bypass])
  · rw [remove_eq] at run
    rw [find?_eq_none_iff.2 there] at run
    cases run
    refine (and_iff_right_of_imp ?_).symm
    rintro mem rfl
    exact there mem

/-- A replacement hands the entry over and puts the new node into the slot of the old one. -/
theorem replace_eq_ok (run : replace n m g = .ok () g') : ∃ p e, g.position n = .ok p ∧
    g.find? n = some e ∧ g' = match p.reference with
      | none => { g.handOver n m e with root := some m }
      | some r => (g.handOver n m e).modifyEntry r fun e =>
          match e.slot? p.placement p.output with
          | some ids => e.setSlot p.placement p.output (splice n [m] ids)
          | none => e := by
  rw [replace_eq] at run
  cases at_p : g.position n with
  | error fault =>
    simp only [at_p] at run
    cases run
  | ok p =>
    cases he : g.find? n with
    | none =>
      simp only [at_p, he] at run
      cases run
    | some e =>
      simp only [at_p, he] at run
      refine ⟨p, e, rfl, rfl, ?_⟩
      cases ref : p.reference <;> simp only [ref] at run ⊢ <;> cases run <;> rfl

theorem mem_ids_replace (run : replace n m g = .ok () g') :
    k ∈ g'.ids ↔ k = m ∨ k ≠ n ∧ k ∈ g.ids := by
  obtain ⟨p, e, _, _, rfl⟩ := replace_eq_ok run
  rw [← mem_ids_handOver (e := e)]
  cases p.reference with
  | none => exact Iff.rfl
  | some r => rw [ids_modifyEntry]

/-- Whatever is in a slot can be replaced. -/
theorem replace_run (at_p : g.position n = .ok p) (there : n ∈ g.ids) :
    ∃ g', replace n m g = .ok () g' := by
  obtain ⟨e, he⟩ := mem_ids_iff.1 there
  rw [replace_eq]
  simp only [at_p, he]
  cases p.reference with
  | none => exact ⟨_, rfl⟩
  | some r => exact ⟨_, rfl⟩

/-- The node that takes a place has the successors and the children of the one that had it. -/
theorem find?_replace (run : replace n m g = .ok () g') (fresh : m ∉ g.ids) :
    g'.find? m = g.find? n := by
  obtain ⟨p, e, at_p, he, rfl⟩ := replace_eq_ok run
  have new : (g.handOver n m e).find? m = g.find? n := by
    rw [find?_handOver, if_pos rfl, he]
  cases ref : p.reference with
  | none => exact new
  | some r =>
    obtain ⟨s, rfl, mem, _⟩ := mem_occupants_of_position at_p
    rw [Slot.reference_position] at ref
    have ne : r ≠ m := fun e => fresh (e ▸ owner_mem_ids mem ref)
    simp only
    rw [find?_modifyEntry, if_neg ne, new]

theorem root_replace (run : replace n m g = .ok () g') (root : g.root = some n) :
    g'.root = some m := by
  obtain ⟨p, e, at_p, _, rfl⟩ := replace_eq_ok run
  have top : p = .root := by
    unfold position at at_p
    rw [if_pos root] at at_p
    cases at_p
    rfl
  subst top
  rfl

/-- A node that stands in a graph can be moved if the reference does, too. -/
theorem move_run {q : Position} (held : ∀ r, p.reference = some r → r ∈ g.ids)
    (at_q : g.position n = .ok q) : ∃ g', move n p g = .ok () g' := by
  have left : ∃ g₁, remove n true g = .ok () g₁ ∧ g₁.ids = g.ids := by
    rw [remove_eq]
    cases he : g.find? n with
    | none => exact ⟨g, rfl, rfl⟩
    | some e =>
      rw [at_q]
      exact ⟨_, rfl, ids_bypass g n q e.nextIds⟩
  obtain ⟨g₁, left, ids⟩ := left
  obtain ⟨g', put⟩ : ∃ g', insert n p g₁ = .ok () g' := insert_run fun r ref => ids ▸ held r ref
  refine ⟨g', ?_⟩
  rw [move, get_bind]
  cases ref : p.reference with
  | none => simp [at_q, left, put, bind, EStateM.bind]
  | some r => simp [at_q, contains_iff.2 (held r ref), left, put, bind, EStateM.bind]

theorem move_error (run : move n p g = .error f g') : g' = g := by
  by_cases held : ∀ r, p.reference = some r → r ∈ g.ids
  · cases at_q : g.position n with
    | ok q =>
      obtain ⟨_, done⟩ := move_run held at_q
      rw [done] at run
      cases run
    | error fault =>
      rw [move, get_bind] at run
      cases ref : p.reference with
      | none =>
        simp only [ref, at_q] at run
        cases run
        rfl
      | some r =>
        simp only [ref, at_q, contains_iff.2 (held r ref)] at run
        cases run
        rfl
  · obtain ⟨r, off⟩ := not_forall.1 held
    obtain ⟨ref, off⟩ := Classical.not_imp.1 off
    rw [move, get_bind] at run
    simp only [ref, contains_eq_false_iff.2 off] at run
    cases run
    rfl

theorem mem_ids_move (run : move n p g = .ok () g') (there : n ∈ g.ids) :
    m ∈ g'.ids ↔ m ∈ g.ids := by
  obtain ⟨g₁, left, put⟩ := move_eq_ok run
  obtain ⟨q, l, rfl⟩ := remove_eq_ok left there
  rw [mem_ids_insert put]
  simp only [if_true, ids_bypass]
  exact or_iff_right_of_imp fun e => e ▸ there

end Autoflow.Graph
