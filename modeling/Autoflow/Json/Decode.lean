import Autoflow.Json.Printer

/-!
# Typed reading of JSON values

A decoder turns a value into a typed one or names the first thing it does not accept. A record
is read from an object by name or from an array by place. The fields of an object are checked
in the order in which they stand there, and unknown ones are passed over; after that the first
field that is missing is reported. An array may stop at a field that has a default.
-/

namespace Autoflow

/-- Why a value is not accepted. -/
inductive DecodeError where
  /-- A value of the wrong kind. -/
  | wrongType (found : Json) (expected : String)
  /-- An integer outside the range of the expected type. -/
  | outOfRange (value : Int) (expected : String)
  /-- An array that stops before a field of a record that has no default. -/
  | tooShort (place : Nat) (record : String) (size : Nat)
  /-- An array with more items than the record has fields. -/
  | tooLong (length : Nat)
  | missingField (name : String)
  | unknownVariant (name : String) (variants : List String)
  /-- An object that stands for a variant and does not have exactly one key. -/
  | notOneKey
  /-- A fault found by a check of the decoded type itself. -/
  | custom (reason : String)
deriving DecidableEq

namespace Json

/-- A value as an error message names it. -/
def describe : Json → String
  | .null => "null"
  | .bool b => "boolean \x60" ++ (if b then "true" else "false") ++ "\x60"
  | .number (.integer i) => "integer \x60" ++ toString i ++ "\x60"
  | .number (.real d) => "floating point \x60" ++ (Number.real d).render ++ "\x60"
  | .string s => "string " ++ Text.quoted s
  | .array _ => "sequence"
  | .object _ => "map"

end Json

namespace DecodeError

/-- A name as an error message marks it. -/
def marked (name : String) : String := "\x60" ++ name ++ "\x60"

/-- The alternatives of a variant as an error message lists them. -/
def alternatives : List String → String
  | [] => "there are no variants"
  | [a] => "expected " ++ marked a
  | [a, b] => "expected " ++ marked a ++ " or " ++ marked b
  | l => "expected one of " ++ ", ".intercalate (l.map marked)

/-- The text of a decoding error. -/
def message : DecodeError → String
  | wrongType found expected => "invalid type: " ++ found.describe ++ ", expected " ++ expected
  | outOfRange value expected =>
    "invalid value: integer " ++ marked (toString value) ++ ", expected " ++ expected
  | tooShort place record size =>
    "invalid length " ++ toString place ++ ", expected struct " ++ record ++ " with "
      ++ toString size ++ " elements"
  | tooLong length =>
    "invalid length " ++ toString length ++ ", expected fewer elements in array"
  | missingField name => "missing field " ++ marked name
  | unknownVariant name variants =>
    "unknown variant " ++ marked name ++ ", " ++ alternatives variants
  | notOneKey => "invalid value: map, expected map with a single key"
  | custom reason => reason

end DecodeError

/-- A typed reader of values. -/
abbrev Decoder (α : Type) := Json → Except DecodeError α

namespace Decoder

/-- Accepts every value. -/
def any : Decoder Json := .ok

/-- Accepts a text. -/
def text : Decoder String
  | .string s => .ok s
  | v => .error (.wrongType v "a string")

/-- Accepts an unsigned integer below a bound. -/
def unsigned (name : String) (bound : Nat) : Decoder Nat
  | .number (.integer i) =>
    if 0 ≤ i ∧ i < bound then .ok i.toNat else .error (.outOfRange i name)
  | v => .error (.wrongType v name)

/-- Accepts an unsigned 64-bit integer. -/
def u64 : Decoder UInt64 := fun v => (unsigned "u64" UInt64.size v).map UInt64.ofNat

/-- Accepts an unsigned 16-bit integer. -/
def u16 : Decoder UInt16 := fun v => (unsigned "u16" UInt16.size v).map UInt16.ofNat

/-- Accepts null for nothing. -/
def nullable {α : Type} (d : Decoder α) : Decoder (Option α)
  | .null => .ok none
  | v => (d v).map some

/-- Accepts a list. -/
def list {α : Type} (d : Decoder α) : Decoder (List α)
  | .array items => items.mapM d
  | v => .error (.wrongType v "a sequence")

/-- Accepts one of several names, as a text or as the only key of an object with null. -/
def variant {α : Type} (names : List String) (ofName? : String → Option α) : Decoder α
  | .string s => named s
  | .object [(k, v)] => do
    let a ← named k
    match v with
    | .null => .ok a
    | _ => .error (.wrongType v "unit")
  | .object _ => .error .notOneKey
  | v => .error (.wrongType v "string or map")
where
  /-- Looks the name up. -/
  named (s : String) : Except DecodeError α :=
    match ofName? s with
    | some a => .ok a
    | none => .error (.unknownVariant s names)

end Decoder

/-- One field of a record. -/
structure Field where
  name : String
  /-- What the field has to hold. -/
  check : Decoder Unit
  /-- An object without the field is refused. -/
  inObject : Bool
  /-- An array that stops before the field is refused. -/
  inArray : Bool

namespace Field

/-- A field that has to be there. -/
def required {α : Type} (name : String) (d : Decoder α) : Field :=
  ⟨name, fun v => (d v).map fun _ => (), true, true⟩

/-- A field with a default. -/
def defaulted {α : Type} (name : String) (d : Decoder α) : Field :=
  ⟨name, fun v => (d v).map fun _ => (), false, false⟩

/-- A field that may be missing in an object but not in an array. -/
def placed {α : Type} (name : String) (d : Decoder α) : Field :=
  ⟨name, fun v => (d v).map fun _ => (), false, true⟩

end Field

/-- A record: its name and its fields in order. -/
structure Shape where
  name : String
  fields : List Field

namespace Shape

/-- The field of a name. -/
def field? (s : Shape) (name : String) : Option Field := s.fields.find? (·.name == name)

/-- Checks one named value; unknown names are passed over. -/
def checkField (s : Shape) (p : String × Json) : Except DecodeError Unit :=
  match s.field? p.1 with
  | some f => f.check p.2
  | none => .ok ()

/-- Checks a value against a record and gives its fields by name. -/
def read (s : Shape) : Decoder (List (String × Json))
  | .object fields => do
    fields.forM s.checkField
    match s.fields.find? fun f => f.inObject && (Assoc.find? f.name fields).isNone with
    | some f => .error (.missingField f.name)
    | none => .ok fields
  | .array items => do
    let fields := (s.fields.map Field.name).zip items
    fields.forM s.checkField
    match (s.fields.drop items.length).findIdx? Field.inArray with
    | some i => .error (.tooShort (items.length + i) s.name s.fields.length)
    | none =>
      if s.fields.length < items.length then .error (.tooLong items.length) else .ok fields
  | v => .error (.wrongType v ("struct " ++ s.name))

end Shape

namespace Decoder

/-- The value of a field, nothing if it is missing. -/
def optional {α : Type} (fields : List (String × Json)) (name : String) (d : Decoder α) :
    Except DecodeError (Option α) :=
  (Assoc.find? name fields).mapM d

/-- The value of a field that has to be there. -/
def required {α : Type} (fields : List (String × Json)) (name : String) (d : Decoder α) :
    Except DecodeError α :=
  match Assoc.find? name fields with
  | some v => d v
  | none => .error (.missingField name)

end Decoder

end Autoflow
