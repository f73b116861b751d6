import Autoflow.Json.Reader
import Autoflow.Yaml.Tree

/-!
# What a YAML value stands for

A plain scalar may stand for null, a truth value, an integer or a double, and otherwise for its
own text; a quoted one always stands for its text. Integers are decimal, hexadecimal, octal or
binary; decimal digits with a zero in front are no number. An integer beyond 64 bits is refused,
unless it is beyond 128 bits as well: then it is read as a double. A double that is not finite
stands for null if it has a name of its own.
-/

namespace Autoflow.Yaml

/-- The number written with digits of a base, at least one. -/
def ofDigits? (base : Nat) (cs : List Char) : Option Nat :=
  if cs.isEmpty then none
  else cs.foldl (fun n c => do
    let d ← Json.hexValue? c
    if d < base then return (← n) * base + d else none) (some 0)

/-- Whether a text consists of several digits with a zero in front. -/
def isPadded (cs : List Char) : Bool := cs.head? = some '0' && 1 < cs.length && cs.all Char.isDigit

/-- The number that a text without a sign denotes. -/
def magnitude? : List Char → Option Nat
  | '0' :: 'x' :: digits => ofDigits? 16 digits
  | '0' :: 'o' :: digits => ofDigits? 8 digits
  | '0' :: 'b' :: digits => ofDigits? 2 digits
  | digits => if isPadded digits then none else ofDigits? 10 digits

/-- The natural number that a text denotes, which may have a plus sign. -/
def natural? : List Char → Option Nat
  | '+' :: cs => magnitude? cs
  | cs => magnitude? cs

/-- The integer that a text denotes. -/
def integer? : List Char → Option Int
  | '-' :: cs => (magnitude? cs).map fun n => -(n : Int)
  | cs => (natural? cs).map Int.ofNat

/-- The unsigned 64-bit integer that a text denotes. -/
def unsigned? (text : String) : Option Nat := (natural? text.toList).filter (· < UInt64.size)

/-- The exponent behind the digits of a numeral, zero if there is none. -/
def exponent? : List Char → Option Int
  | [] => some 0
  | e :: cs =>
    if e = 'e' || e = 'E' then
      match cs with
      | '-' :: digits => (ofDigits? 10 digits).map fun n => -(n : Int)
      | '+' :: digits => (ofDigits? 10 digits).map Int.ofNat
      | digits => (ofDigits? 10 digits).map Int.ofNat
    else none

/-- The double nearest to `digits * 10 ^ power`, where a magnitude far out of range is settled
without the power: it is beyond the largest double, or rounds to zero. -/
def nearest? (negative : Bool) (digits : List Char) (power : Int) : Option Double := do
  let n ← ofDigits? 10 digits
  let places := power + digits.length
  if n = 0 || places < -400 then return .zero negative
  else if 400 < power then none
  else if 0 ≤ power then Double.ofRatio? negative (n * Nat.pow 10 power.toNat) 1
  else Double.ofRatio? negative n (Nat.pow 10 (-power).toNat)

/-- The finite double that a text without a plus sign denotes: digits with a point anywhere among
them and an exponent. -/
def double? (cs : List Char) : Option Double :=
  let negative := cs.head? = some '-'
  let cs := if negative then cs.tail else cs
  let whole := cs.takeWhile Char.isDigit
  match cs.dropWhile Char.isDigit with
  | '.' :: rest =>
    let fraction := rest.takeWhile Char.isDigit
    (exponent? (rest.dropWhile Char.isDigit)).bind fun e =>
      nearest? negative (whole ++ fraction) (e - fraction.length)
  | rest => (exponent? rest).bind fun e => nearest? negative whole e

/-- The spellings of null in a plain scalar that is not empty. -/
def nullNames : List String := ["null", "Null", "NULL", "~"]

/-- Whether a plain scalar stands for null. -/
def isNull (text : String) : Bool := text.isEmpty || nullNames.contains text

/-- The spellings of the doubles that are not finite. -/
def unboundedNames : List String :=
  [".inf", ".Inf", ".INF", "+.inf", "+.Inf", "+.INF", "-.inf", "-.Inf", "-.INF",
    ".nan", ".NaN", ".NAN"]

/-- The double that a plain scalar stands for, null for one that is not finite. -/
def plainDouble? (text : String) : Option Json :=
  let unsigned := match text.toList with
    | '-' :: cs => cs
    | '+' :: cs => cs
    | cs => cs
  if isPadded unsigned then none
  else if unboundedNames.contains text then some .null
  else
    match text.toList with
    | '+' :: '-' :: _ => none
    | '+' :: cs => (double? cs).map fun d => .number (.real d)
    | cs => (double? cs).map fun d => .number (.real d)

/-- What a plain scalar stands for, nothing for an integer that is refused. -/
def plainValue? (text : String) : Option Json :=
  if isNull text then some .null
  else if ["true", "True", "TRUE"].contains text then some (.bool true)
  else if ["false", "False", "FALSE"].contains text then some (.bool false)
  else
    match integer? text.toList with
    | some i =>
      if -(UInt64.size / 2 : Nat) ≤ i ∧ i < UInt64.size then some (.number (.integer i))
      else if -(1 <<< 127 : Nat) ≤ i ∧ i < (1 <<< 128 : Nat) then none
      else some ((plainDouble? text).getD (.string text))
    | none => some ((plainDouble? text).getD (.string text))

namespace Tree

/-- The text of a scalar, however it is written. -/
def text? : Tree → Option String
  | scalar text _ => some text
  | _ => none

/-- Whether nothing is written. -/
def isBlank : Tree → Bool
  | scalar text plain => plain && text.isEmpty
  | _ => false

/-- What a value stands for, if it opens at most the given number of levels. The keys of a mapping
are texts; a repeated key keeps its place and takes its last value. -/
def value? : Nat → Tree → Option Json
  | _, scalar text plain => if plain then plainValue? text else some (.string text)
  | 0, _ => none
  | depth + 1, sequence items => (items.mapM (value? depth)).map Json.array
  | depth + 1, mapping fields => do
    return Json.ofPairs (← fields.mapM fun p => do return (← p.1.text?, ← value? depth p.2))

end Tree

end Autoflow.Yaml
