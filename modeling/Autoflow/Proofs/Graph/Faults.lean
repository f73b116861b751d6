import Autoflow.Proofs.Graph.Positions

/-!
# Faults of edits

What can go wrong with an edit of a graph, a tree or not: a node that it names has no entry, or the
node that it is about has no place (`Adrift`), and either is found out before anything is changed.
The lookups that come after the first change do not fail. The owner of a slot keeps its entry while
that of the node in the slot is handed over (`replace_eq`), and a reference keeps its entry while a
node is taken out with the intent to put it back (`move_run`). So each edit fails for certain faults
only, and with each of them it leaves the graph as it was, entries in their order
(`fails_untouched`).
-/

namespace Autoflow.Graph

variable {g : Graph} {n : NodeId} {f : GraphFault}

/-- A node is neither the root nor in a slot of another node. -/
def Adrift (g : Graph) (n : NodeId) : Prop := ∀ s, n ∈ g.occupants s → s.owner? = some n

/-- An edit of a graph fails for the faults of a set only, and then leaves the graph as it was. -/
def FailsOn (edit : Edit Unit) (g : Graph) (faults : Set GraphFault) : Prop :=
  ∀ f g', edit g = .error f g' ↔ g' = g ∧ f ∈ faults

/-- The fault of a position with a reference that has no entry. -/
def missing (g : Graph) (p : Position) : Set GraphFault :=
  {f | ∃ r, p.reference = some r ∧ r ∉ g.ids ∧ f = .nodeNotFound r}

theorem position_eq_error_iff : g.position n = .error f ↔ g.Adrift n ∧ f = .nodeNotFound n := by
  constructor
  · intro lost
    refine ⟨fun s mem => ?_, fault_of_position lost⟩
    by_contra own
    obtain ⟨p, at_p⟩ := exists_position mem own
    rw [lost] at at_p
    cases at_p
  · rintro ⟨adrift, rfl⟩
    cases at_p : g.position n with
    | ok p =>
      obtain ⟨s, _, mem, own⟩ := mem_occupants_of_position at_p
      exact absurd (adrift s mem) own
    | error f => rw [fault_of_position at_p]

theorem not_adrift {p : Position} (at_p : g.position n = .ok p) : ¬ g.Adrift n := fun adrift => by
  rw [position_eq_error_iff.2 ⟨adrift, rfl⟩] at at_p
  cases at_p

/-- An edit that succeeds fails for no fault. -/
theorem failsOn_of_ok {edit : Edit Unit} {faults : Set GraphFault} {g' : Graph}
    (done : edit g = .ok () g') (none : ∀ f, f ∉ faults) : FailsOn edit g faults := fun f g'' => by
  rw [done]
  exact ⟨nofun, fun failed => absurd failed.2 (none f)⟩

/-- An edit that fails at once does so for one fault. -/
theorem failsOn_of_error {edit : Edit Unit} {faults : Set GraphFault}
    (failed : edit g = .error f g) (only : ∀ f', f' ∈ faults ↔ f' = f) :
    FailsOn edit g faults := fun f' g' => by
  rw [failed, only, EStateM.Result.error.injEq]
  exact ⟨fun same => ⟨same.2.symm, same.1.symm⟩, fun same => ⟨same.2.symm, same.1.symm⟩⟩

section References

variable {r : NodeId} {p : Position}

theorem not_mem_missing (held : ∀ r, p.reference = some r → r ∈ g.ids) (f : GraphFault) :
    f ∉ g.missing p := fun ⟨r, ref, off, _⟩ => off (held r ref)

theorem mem_missing_iff (ref : p.reference = some r) (off : r ∉ g.ids) :
    f ∈ g.missing p ↔ f = .nodeNotFound r := by
  constructor
  · rintro ⟨r', ref', _, fault⟩
    rw [ref] at ref'
    cases ref'
    exact fault
  · exact fun fault => ⟨r, ref, off, fault⟩

theorem exists_missing (lost : ¬ ∀ r, p.reference = some r → r ∈ g.ids) :
    ∃ r, p.reference = some r ∧ r ∉ g.ids := by
  obtain ⟨r, lost⟩ := not_forall.1 lost
  exact ⟨r, Classical.not_imp.1 lost⟩

end References

/-- A node cannot be put into a slot of a node without an entry. -/
theorem insert_fails (g : Graph) (n : NodeId) (p : Position) :
    FailsOn (insert n p) g (g.missing p) := by
  by_cases held : ∀ r, p.reference = some r → r ∈ g.ids
  · obtain ⟨g', done⟩ := insert_run (n := n) held
    exact failsOn_of_ok done (not_mem_missing held)
  · obtain ⟨r, ref, off⟩ := exists_missing held
    have failed : insert n p g = .error (.nodeNotFound r) g := by
      simp [insert, ref, contains_eq_false_iff.2 off]
    exact failsOn_of_error failed fun f => mem_missing_iff ref off

/-- A node cannot be taken out if it has an entry and no place. -/
theorem remove_fails (g : Graph) (n : NodeId) (keepInfo : Bool) :
    FailsOn (remove n keepInfo) g {f | n ∈ g.ids ∧ g.Adrift n ∧ f = .nodeNotFound n} := by
  cases he : g.find? n with
  | none =>
    have done : remove n keepInfo g = .ok () g := by rw [remove_eq, he]
    exact failsOn_of_ok done fun f failed => find?_eq_none_iff.1 he failed.1
  | some e =>
    cases at_p : g.position n with
    | ok p =>
      have done : ∃ g', remove n keepInfo g = .ok () g' := by
        rw [remove_eq, he, at_p]
        exact ⟨_, rfl⟩
      exact failsOn_of_ok done.choose_spec fun f failed => not_adrift at_p failed.2.1
    | error lost =>
      obtain ⟨adrift, rfl⟩ := position_eq_error_iff.1 at_p
      have failed : remove n keepInfo g = .error (.nodeNotFound n) g := by
        rw [remove_eq, he, at_p]
      exact failsOn_of_error failed fun f =>
        ⟨fun fault => fault.2.2, fun fault => ⟨mem_ids_of_find? he, adrift, fault⟩⟩

/-- No node can take the place of one that has no place or no entry. -/
theorem replace_fails (g : Graph) (old new : NodeId) :
    FailsOn (replace old new) g {f | (old ∉ g.ids ∨ g.Adrift old) ∧ f = .nodeNotFound old} := by
  have fails : (old ∉ g.ids ∨ g.Adrift old) →
      replace old new g = .error (.nodeNotFound old) g →
        FailsOn (replace old new) g {f | (old ∉ g.ids ∨ g.Adrift old) ∧ f = .nodeNotFound old} :=
    fun cause failed => failsOn_of_error failed fun f => ⟨And.right, fun fault => ⟨cause, fault⟩⟩
  cases at_p : g.position old with
  | error lost =>
    obtain ⟨adrift, rfl⟩ := position_eq_error_iff.1 at_p
    exact fails (Or.inr adrift) (by rw [replace_eq, at_p])
  | ok p =>
    cases he : g.find? old with
    | none => exact fails (Or.inl (find?_eq_none_iff.1 he)) (by rw [replace_eq, at_p, he])
    | some e =>
      have there := mem_ids_of_find? he
      obtain ⟨g', done⟩ := replace_run (m := new) at_p there
      refine failsOn_of_ok done fun f failed => ?_
      exact failed.1.elim (absurd there) (not_adrift at_p)

/-- A node cannot be moved to a slot of a node without an entry, and not at all if it has no place.
If both are so the first is the fault. -/
theorem move_fails (g : Graph) (n : NodeId) (p : Position) :
    FailsOn (move n p) g {f | f ∈ g.missing p ∨
      ((∀ r, p.reference = some r → r ∈ g.ids) ∧ g.Adrift n ∧ f = .nodeNotFound n)} := by
  by_cases held : ∀ r, p.reference = some r → r ∈ g.ids
  · cases at_q : g.position n with
    | ok q =>
      obtain ⟨g', done⟩ := move_run held at_q
      refine failsOn_of_ok done fun f failed => ?_
      exact failed.elim (not_mem_missing held f) fun lost => not_adrift at_q lost.2.1
    | error lost =>
      obtain ⟨adrift, rfl⟩ := position_eq_error_iff.1 at_q
      have failed : move n p g = .error (.nodeNotFound n) g := by
        rw [move, get_bind]
        cases ref : p.reference with
        | none =>
          simp only [at_q]
          rfl
        | some r =>
          simp only [at_q, contains_iff.2 (held r ref)]
          rfl
      refine failsOn_of_error failed fun f => ⟨?_, fun fault => Or.inr ⟨held, adrift, fault⟩⟩
      exact fun fault => fault.elim (fun off => absurd off (not_mem_missing held f))
        fun lost => lost.2.2
  · obtain ⟨r, ref, off⟩ := exists_missing held
    have failed : move n p g = .error (.nodeNotFound r) g := by
      rw [move, get_bind]
      simp only [ref, contains_eq_false_iff.2 off]
      rfl
    refine failsOn_of_error failed fun f => ?_
    exact (or_iff_left fun lost => held lost.1).trans (mem_missing_iff ref off)

/-- An edit of any graph fails exactly if a node that it names is not there or has no place. With
each fault it leaves the graph as it was. -/
theorem fails_untouched (g : Graph) :
    (∀ n p, FailsOn (insert n p) g (g.missing p)) ∧
    (∀ n keepInfo, FailsOn (remove n keepInfo) g {f | n ∈ g.ids ∧ g.Adrift n ∧
      f = .nodeNotFound n}) ∧
    (∀ old new, FailsOn (replace old new) g {f | (old ∉ g.ids ∨ g.Adrift old) ∧
      f = .nodeNotFound old}) ∧
    ∀ n p, FailsOn (move n p) g {f | f ∈ g.missing p ∨
      ((∀ r, p.reference = some r → r ∈ g.ids) ∧ g.Adrift n ∧ f = .nodeNotFound n)} :=
  ⟨insert_fails g, remove_fails g, replace_fails g, move_fails g⟩

end Autoflow.Graph
