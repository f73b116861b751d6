import Autoflow.NodeType.Basic
import Autoflow.Table.Ordered

/-!
# The registry of node types

Types are known by name; registering a name again replaces its type.
-/

namespace Autoflow

/-- The node types that are known, by name. -/
structure Registry where
  types : OrderedMap String NodeType := .empty

namespace Registry

/-- The registry without types. -/
def empty : Registry := {}

/-- Adds a type under its name. -/
def register (r : Registry) (t : NodeType) : Registry := { types := r.types.insert t.name t }

/-- Adds several types in order. -/
def registerAll (r : Registry) (ts : List NodeType) : Registry := ts.foldl register r

/-- The registry of the builtin types. -/
def builtin : Registry := empty.registerAll NodeType.builtins

/-- The type of a name. -/
def get? (r : Registry) (name : String) : Option NodeType := r.types.get? name

/-- The type of a name that has to be known. -/
def require (r : Registry) (name : String) : Except NodeFault NodeType :=
  match r.get? name with
  | some t => .ok t
  | none => .error (.unknownType name)

/-- The names of the types, in alphabetical order. -/
def names (r : Registry) : List String := r.types.keys.mergeSort fun a b => decide (a ≤ b)

theorem get?_register (r : Registry) (t : NodeType) (name : String) :
    (r.register t).get? name = if t.name = name then some t else r.get? name :=
  OrderedMap.get?_insert r.types t.name name t

/-- A type that is known after several were added is one of them or was known before. -/
theorem mem_of_get?_registerAll {r : Registry} {types : List NodeType} {name : String}
    {type : NodeType} (h : (r.registerAll types).get? name = some type) :
    (type ∈ types ∧ type.name = name) ∨ r.get? name = some type := by
  unfold registerAll at h
  induction types generalizing r with
  | nil => exact Or.inr h
  | cons t types ih =>
    rcases ih h with ⟨mem, named⟩ | h
    · exact Or.inl ⟨List.mem_cons_of_mem _ mem, named⟩
    · rw [get?_register] at h
      split at h
      · next named =>
        cases h
        exact Or.inl ⟨List.mem_cons_self, named⟩
      · exact Or.inr h

end Registry

end Autoflow
