import Autoflow.Json.Basic
import Autoflow.Number.Shortest
import Autoflow.Text.Quoted

/-!
# Printing JSON

`Json.compact` writes a value without blanks, `Json.pretty` on several lines with an indent
of two spaces. Fields come in their order. Doubles have the fewest digits that read back.
-/

namespace Autoflow

/-- Where the text of a double changes its form. -/
structure DoubleLayout where
  /-- The most digits before the point in positional form. -/
  digitsBefore : Int
  /-- The most zeros between the point and the first digit in positional form. -/
  zerosAfter : Int

/-- Doubles in JSON are positional with up to 16 digits before the point or 4 zeros behind
it, and have a signed exponent otherwise. -/
def Json.doubleLayout : DoubleLayout := ⟨16, 4⟩

namespace DoubleLayout

/-- The text of a number of digits with the point after the first `point` of them. -/
def digits (layout : DoubleLayout) (ds : List Char) (point : Int) : List Char :=
  let n : Int := ds.length
  if n ≤ point ∧ point ≤ layout.digitsBefore then
    ds ++ List.replicate (point - n).toNat '0' ++ ['.', '0']
  else if 0 < point ∧ point ≤ layout.digitsBefore then
    ds.take point.toNat ++ '.' :: ds.drop point.toNat
  else if 0 - layout.zerosAfter ≤ point ∧ point ≤ 0 then
    '0' :: '.' :: List.replicate (0 - point).toNat '0' ++ ds
  else
    let sign := if point ≤ 0 then '-' else '+'
    let power := sign :: Nat.toDigits 10 (point - 1).natAbs
    match ds with
    | [d] => d :: 'e' :: power
    | d :: rest => d :: '.' :: rest ++ 'e' :: power
    | [] => power

/-- The text of a double. -/
def render (layout : DoubleLayout) (d : Double) : String :=
  let body :=
    if d.isZero then ['0', '.', '0']
    else
      let s := d.shortest
      let ds := Nat.toDigits 10 s.coefficient
      layout.digits ds (ds.length + s.power)
  String.ofList (if d.negative then '-' :: body else body)

end DoubleLayout

/-- The text of a number. -/
def Number.render : Number → String
  | .integer i => toString i
  | .real d => Json.doubleLayout.render d

namespace Json

/-- One character of a JSON string. -/
def escapedChar (c : Char) : List Char :=
  if c = '"' then ['\\', '"']
  else if c = '\\' then ['\\', '\\']
  else if c = '\x08' then ['\\', 'b']
  else if c = '\x0c' then ['\\', 'f']
  else if c = '\n' then ['\\', 'n']
  else if c = '\r' then ['\\', 'r']
  else if c = '\t' then ['\\', 't']
  else if c.toNat < 0x10 then ['\\', 'u', '0', '0', '0'] ++ Text.hex c.toNat
  else if c.toNat < 0x20 then ['\\', 'u', '0', '0'] ++ Text.hex c.toNat
  else [c]

/-- A JSON string with its quotes. -/
def escaped (s : String) : String :=
  "\"" ++ String.ofList (s.toList.flatMap escapedChar) ++ "\""

mutual

/-- The text of a value without blanks. -/
def compact : Json → String
  | .null => "null"
  | .bool b => if b then "true" else "false"
  | .number n => n.render
  | .string s => escaped s
  | .array [] => "[]"
  | .array (v :: rest) => "[" ++ compact v ++ compactItems rest ++ "]"
  | .object [] => "\x7b\x7d"
  | .object ((k, v) :: rest) =>
    "\x7b" ++ escaped k ++ ":" ++ compact v ++ compactFields rest ++ "\x7d"

/-- The items after the first, each behind a comma. -/
def compactItems : List Json → String
  | [] => ""
  | v :: rest => "," ++ compact v ++ compactItems rest

/-- The fields after the first, each behind a comma. -/
def compactFields : List (String × Json) → String
  | [] => ""
  | (k, v) :: rest => "," ++ escaped k ++ ":" ++ compact v ++ compactFields rest

end

/-- A new line at a depth of nesting. -/
def newLine (depth : Nat) : String := "\n" ++ String.ofList (List.replicate (2 * depth) ' ')

mutual

/-- The text of a value on several lines, at a depth of nesting. -/
def prettyAt (depth : Nat) : Json → String
  | .array (v :: rest) =>
    "[" ++ newLine (depth + 1) ++ prettyAt (depth + 1) v ++ prettyItems (depth + 1) rest
      ++ newLine depth ++ "]"
  | .object ((k, v) :: rest) =>
    "\x7b" ++ newLine (depth + 1) ++ escaped k ++ ": " ++ prettyAt (depth + 1) v
      ++ prettyFields (depth + 1) rest ++ newLine depth ++ "\x7d"
  | .array [] => "[]"
  | .object [] => "\x7b\x7d"
  | .null => "null"
  | .bool b => if b then "true" else "false"
  | .number n => n.render
  | .string s => escaped s

/-- The items after the first, each on a line of its own. -/
def prettyItems (depth : Nat) : List Json → String
  | [] => ""
  | v :: rest => "," ++ newLine depth ++ prettyAt depth v ++ prettyItems depth rest

/-- The fields after the first, each on a line of its own. -/
def prettyFields (depth : Nat) : List (String × Json) → String
  | [] => ""
  | (k, v) :: rest =>
    "," ++ newLine depth ++ escaped k ++ ": " ++ prettyAt depth v ++ prettyFields depth rest

end

/-- The text of a value on several lines, without a final line end. -/
def pretty (v : Json) : String := prettyAt 0 v

end Json

end Autoflow
