import Autoflow.Table.Ordered

/-!
# Memos

A memo keeps the value computed for a key until the key is invalidated. A memo that is turned
off computes every value and keeps nothing.
-/

namespace Autoflow

/-- Values kept by key. -/
structure Memo (α : Type) where
  enabled : Bool := true
  entries : OrderedMap String α := .empty

namespace Memo

variable {α : Type}

/-- The value of a key, computed if it is not kept, whether it was computed, and the memo after
that. -/
def getOrCompute (m : Memo α) (key : String) (compute : α) : α × Bool × Memo α :=
  if m.enabled then
    match m.entries.get? key with
    | some v => (v, false, m)
    | none => (compute, true, { m with entries := m.entries.insert key compute })
  else (compute, true, m)

/-- Whether a value is kept for a key. -/
def contains (m : Memo α) (key : String) : Bool := m.entries.contains key

/-- Forgets the value of a key. -/
def invalidate (m : Memo α) (key : String) : Memo α := { m with entries := m.entries.erase key }

/-- Forgets all values. -/
def clear (m : Memo α) : Memo α := { m with entries := .empty }

end Memo

end Autoflow
