import Autoflow.Number.Double
import Autoflow.Table.Assoc

/-!
# JSON values

A number is an integer or a double. The fields of an object keep the order in which they were
written; reading a text or building an object stores a repeated key in its first place.
-/

namespace Autoflow

/-- A number of a JSON value. -/
inductive Number where
  | integer (value : Int)
  | real (value : Double)
deriving DecidableEq, Inhabited

/-- A JSON value. -/
inductive Json where
  | null
  | bool (value : Bool)
  | number (value : Number)
  | string (value : String)
  | array (items : List Json)
  | object (fields : List (String × Json))
deriving Inhabited

namespace Json

mutual

/-- Decides the equality of two values. -/
def decEq : (v w : Json) → Decidable (v = w)
  | .null, .null => .isTrue rfl
  | .bool a, .bool b => decidable_of_iff (a = b) (by simp)
  | .number a, .number b => decidable_of_iff (a = b) (by simp)
  | .string a, .string b => decidable_of_iff (a = b) (by simp)
  | .array a, .array b =>
    let _ := decEqItems a b
    decidable_of_iff (a = b) (by simp)
  | .object a, .object b =>
    let _ := decEqFields a b
    decidable_of_iff (a = b) (by simp)
  | .null, .bool _ | .null, .number _ | .null, .string _ | .null, .array _ | .null, .object _
  | .bool _, .null | .bool _, .number _ | .bool _, .string _ | .bool _, .array _
  | .bool _, .object _ | .number _, .null | .number _, .bool _ | .number _, .string _
  | .number _, .array _ | .number _, .object _ | .string _, .null | .string _, .bool _
  | .string _, .number _ | .string _, .array _ | .string _, .object _ | .array _, .null
  | .array _, .bool _ | .array _, .number _ | .array _, .string _ | .array _, .object _
  | .object _, .null | .object _, .bool _ | .object _, .number _ | .object _, .string _
  | .object _, .array _ => .isFalse (by simp)

/-- Decides the equality of two lists of items. -/
def decEqItems : (v w : List Json) → Decidable (v = w)
  | [], [] => .isTrue rfl
  | a :: v, b :: w =>
    let _ := decEq a b
    let _ := decEqItems v w
    decidable_of_iff (a = b ∧ v = w) (by simp)
  | [], _ :: _ | _ :: _, [] => .isFalse (by simp)

/-- Decides the equality of two lists of fields. -/
def decEqFields : (v w : List (String × Json)) → Decidable (v = w)
  | [], [] => .isTrue rfl
  | (k, a) :: v, (l, b) :: w =>
    let _ := decEq a b
    let _ := decEqFields v w
    decidable_of_iff (k = l ∧ a = b ∧ v = w) (by simp [and_assoc])
  | [], _ :: _ | _ :: _, [] => .isFalse (by simp)

end

instance : DecidableEq Json := decEq

/-- A natural number as a value. -/
def ofNat (n : Nat) : Json := .number (.integer n)

/-- The value of a field, for an object. -/
def field? (key : String) : Json → Option Json
  | .object fields => Assoc.find? key fields
  | _ => none

/-- The items, for an array. -/
def items? : Json → Option (List Json)
  | .array items => some items
  | _ => none

/-- The number, for an integer from 0 to `2 ^ 64 - 1`. -/
def unsigned? : Json → Option Nat
  | .number (.integer i) => if 0 ≤ i ∧ i < UInt64.size then some i.toNat else none
  | _ => none

/-- The object built from pairs in order: a repeated key keeps its first place and takes its
last value. -/
def ofPairs (pairs : List (String × Json)) : Json := .object (Assoc.ofPairs pairs)

theorem unsigned?_ofNat {n : Nat} (h : n < UInt64.size) : (ofNat n).unsigned? = some n := by
  have : (n : Int) < UInt64.size := by exact_mod_cast h
  unfold ofNat unsigned?
  simp only [if_pos (And.intro (Int.natCast_nonneg n) this), Int.toNat_natCast]

end Json

end Autoflow
