import Autoflow.Run.Context

/-!
# Families of contexts

A family is what contexts copied from one another share: the payload, the history and the
tables of results. A member owns its iterations and its place to stop at, and reads its results
from one of the tables. A copy of a member reads the same table, so that copying is cheap; a
member whose results change writes over its table as long as no one else reads it, and to a new
one otherwise.
-/

namespace Autoflow

/-- A context of a family, its results by reference. -/
structure Member where
  /-- Which of the tables of the family it reads. -/
  table : Nat
  iterations : NodeMap Nat := .empty
  simulateUntil : Option NodeId := none

/-- Contexts that were copied from one another. -/
structure Family where
  payload : Payload
  history : List Record
  tables : List (NodeMap NodeResult)
  members : List Member
  /-- Every member reads a table that is there. -/
  linked : ∀ m ∈ members, m.table < tables.length

namespace Family

/-- The family of a single context. -/
def ofContext (c : Context) : Family where
  payload := c.payload
  history := c.history
  tables := [c.results]
  members := [{ table := 0, iterations := c.iterations, simulateUntil := c.simulateUntil }]
  linked := by simp

/-- The results that a member reads. -/
def results (f : Family) (m : Member) : NodeMap NodeResult := f.tables[m.table]?.getD .empty

/-- A member as a context. -/
def context? (f : Family) (i : Nat) : Option Context :=
  f.members[i]?.map fun m =>
    { results := f.results m
      iterations := m.iterations
      simulateUntil := m.simulateUntil
      payload := f.payload
      history := f.history }

/-- Whether a table is read by a member other than the one at an index. -/
def Shares (f : Family) (i table : Nat) : Prop := ∃ m ∈ f.members.eraseIdx i, m.table = table

instance (f : Family) (i table : Nat) : Decidable (f.Shares i table) :=
  inferInstanceAs (Decidable (∃ m ∈ f.members.eraseIdx i, m.table = table))

/-- Writes over a table. -/
def overwrite (f : Family) (table : Nat) (results : NodeMap NodeResult) : Family :=
  { f with
    tables := f.tables.set table results
    linked := fun m hm => by
      rw [List.length_set]
      exact f.linked m hm }

/-- Has a member read a new table. -/
def detach (f : Family) (i : Nat) (m : Member) (results : NodeMap NodeResult) : Family :=
  { f with
    tables := f.tables ++ [results]
    members := f.members.set i { m with table := f.tables.length }
    linked := fun m' hm => by
      rw [List.length_append]
      rcases List.mem_or_eq_of_mem_set hm with hm | rfl
      · exact Nat.lt_succ_of_lt (f.linked m' hm)
      · exact Nat.lt_succ_self _ }

/-- Writes the results of a member, if they have changed. -/
def write (f : Family) (i : Nat) (m : Member) (results : NodeMap NodeResult) : Family :=
  if results = f.results m then f
  else if f.Shares i m.table then f.detach i m results
  else f.overwrite m.table results

/-- Stores what a member owns and what all members share. -/
def settle (f : Family) (i : Nat) (c : Context) : Family :=
  { f with
    payload := c.payload
    history := c.history
    members := f.members.modify i fun m =>
      { m with iterations := c.iterations, simulateUntil := c.simulateUntil }
    linked := fun m hm => by
      obtain ⟨j, hj⟩ := List.getElem?_of_mem hm
      rw [List.getElem?_modify] at hj
      obtain ⟨o, ho, rfl⟩ := Option.map_eq_some_iff.1 hj
      have := f.linked o (List.mem_of_getElem? ho)
      split <;> exact this }

/-- Stores a member's context. -/
def store (f : Family) (i : Nat) (c : Context) : Family :=
  match f.members[i]? with
  | some m => (f.write i m c.results).settle i c
  | none => f

/-- Changes a member. -/
def modify (f : Family) (i : Nat) (change : Context → Context) : Family :=
  match f.context? i with
  | some c => f.store i (change c)
  | none => f

/-- Copies a member; the copy is the last one and reads the same table. -/
def clone (f : Family) (i : Nat) : Family :=
  match h : f.members[i]? with
  | some m =>
    { f with
      members := f.members ++ [m]
      linked := fun m' hm => by
        rcases List.mem_append.1 hm with hm | hm
        · exact f.linked m' hm
        · rw [List.mem_singleton.1 hm]
          exact f.linked m (List.mem_of_getElem? h) }
  | none => f

/-- Reads the payload. -/
def force (f : Family) : Json × Family :=
  let payload := f.payload.forced
  (payload.get, { f with payload })

end Family

end Autoflow
