import Autoflow.Json.Basic

/-!
# Reading JSON text

`Json.read` reads one value with nothing but blanks around it. A text is refused as malformed
or, if it only stops too early, as incomplete. Values nest to a depth of 127.

A numeral without fraction and exponent is an integer if it is in the range of a 64-bit
number, signed below zero and unsigned above. All others are doubles: the digits are collected
in an unsigned 64-bit significand until one does not fit, whole digits beyond it raise the
power of ten, and the result is the significand scaled by that power.
-/

namespace Autoflow

/-- Why a text is not JSON. -/
inductive TextFault where
  /-- The text breaks a rule of the grammar. -/
  | malformed
  /-- The text stops inside a value. -/
  | incomplete
deriving DecidableEq, Inhabited

namespace Json

/-- A reader of the front of a text: its value and the rest. -/
abbrev Reader (α : Type) := StateT (List Char) (Except TextFault) α

namespace Reader

/-- The next character, without taking it. -/
def peek? : Reader (Option Char) := fun s => .ok (s.head?, s)

/-- Takes the next character. -/
def skip : Reader Unit := fun s => .ok ((), s.tail)

/-- Takes the longest run of characters of a class. -/
def takeWhile (p : Char → Bool) : Reader (List Char) := fun s =>
  .ok (s.takeWhile p, s.dropWhile p)

/-- Whether JSON allows a character between tokens. -/
def isSpace (c : Char) : Bool := c = ' ' || c = '\n' || c = '\t' || c = '\r'

/-- Takes blanks. -/
def spaces : Reader Unit := fun s => .ok ((), s.dropWhile isSpace)

/-- Takes the next character, which has to be there. -/
def next : Reader Char := fun s =>
  match s with
  | [] => .error .incomplete
  | c :: rest => .ok (c, rest)

/-- Takes the characters of a word. -/
def word : List Char → Reader Unit
  | [] => pure ()
  | c :: rest => do
    if (← next) = c then word rest else throw .malformed

end Reader

open Reader

/-- The parts of a numeral. -/
structure Numeral where
  negative : Bool
  whole : List Nat
  fraction : Option (List Nat)
  /-- The sign and the digits of the exponent, the sign set for a negative one. -/
  exponent : Option (Bool × List Nat)

/-- The value of a decimal digit. -/
def digitValue (c : Char) : Nat := c.toNat - '0'.toNat

/-- Adds decimal digits to a number as long as it stays below a limit. The result is the
number and the digits that were left over. -/
def collect (limit : Nat) (n : Nat) : List Nat → Nat × List Nat
  | [] => (n, [])
  | d :: rest => if n * 10 + d < limit then collect limit (n * 10 + d) rest else (n, d :: rest)

/-- The double nearest to a power of ten. -/
def powerOfTen? (n : Nat) : Option Double := Double.ofRatio? false (Nat.pow 10 n) 1

/-- A significand scaled by a power of ten: one rounding of the significand, and one for each
product with, or quotient by, the double nearest to a power of at most 308. Nothing if the result
is beyond the largest double. -/
def scaled? (significand : Nat) (power : Int) : Option Double := do
  let d ← Double.ofRatio? false significand 1
  if 0 ≤ power then
    if power ≤ 308 then
      let p ← powerOfTen? power.toNat
      d.scale? p.ratio.1 p.ratio.2
    else if d.isZero then some d else none
  else shrink ((-power).toNat / 308 + 1) d (-power).toNat
where
  /-- Divides by a power of ten, 308 powers at a time. -/
  shrink : Nat → Double → Nat → Option Double
    | 0, d, _ => some d
    | steps + 1, d, places =>
      if places ≤ 308 then divide d places
      else if d.isZero then some d
      else (divide d 308).bind fun d => shrink steps d (places - 308)
  /-- Divides by the double nearest to a power of ten. -/
  divide (d : Double) (places : Nat) : Option Double :=
    (powerOfTen? places).bind fun p => d.scale? p.ratio.2 p.ratio.1

/-- The number that a numeral denotes, if it is in range. -/
def Numeral.value? (n : Numeral) : Option Number :=
  let (significand, extra) := collect UInt64.size 0 n.whole
  let sign (d : Double) : Number := .real (if n.negative then d.neg else d)
  match n.fraction, n.exponent with
  | none, none =>
    if extra.isEmpty then
      if n.negative then
        if 0 < significand ∧ significand ≤ UInt64.size / 2 then some (.integer (-significand))
        else (scaled? significand 0).map sign
      else some (.integer significand)
    else (scaled? significand extra.length).map sign
  | _, _ =>
    let fraction := n.fraction.getD []
    let (significand, unused) := collect UInt64.size significand fraction
    let power : Int := (extra.length : Int) - (fraction.length - unused.length : Nat)
    match n.exponent with
    | none => (scaled? significand power).map sign
    | some (down, ds) =>
      match collect (UInt32.size / 2) 0 ds with
      | (e, []) => (scaled? significand (if down then power - e else power + e)).map sign
      | _ => if significand = 0 ∨ down then some (sign (.zero false)) else none

/-- Takes decimal digits, at least one. -/
def readDigits : Reader (List Nat) := do
  let ds ← takeWhile Char.isDigit
  if ds.isEmpty then
    match ← peek? with
    | none => throw .incomplete
    | some _ => throw .malformed
  else return ds.map digitValue

/-- Takes a numeral. -/
def readNumeral : Reader Numeral := do
  let negative := (← peek?) == some '-'
  if negative then skip
  let whole ← readDigits
  if whole.head? = some 0 ∧ 1 < whole.length then throw .malformed
  let mut fraction := none
  if (← peek?) = some '.' then
    skip
    fraction := some (← readDigits)
  let mut exponent := none
  if (← peek?) = some 'e' ∨ (← peek?) = some 'E' then
    skip
    let down := (← peek?) == some '-'
    if down ∨ (← peek?) = some '+' then skip
    exponent := some (down, ← readDigits)
  return { negative, whole, fraction, exponent }

/-- Takes a number. -/
def readNumber : Reader Number := do
  match (← readNumeral).value? with
  | some n => return n
  | none => throw .malformed

/-- The value of a hexadecimal digit. -/
def hexValue? (c : Char) : Option Nat :=
  if c.isDigit then some (c.toNat - '0'.toNat)
  else if 'a' ≤ c ∧ c ≤ 'f' then some (c.toNat - 'a'.toNat + 10)
  else if 'A' ≤ c ∧ c ≤ 'F' then some (c.toNat - 'A'.toNat + 10)
  else none

/-- Takes four hexadecimal digits. A text with fewer than four bytes left is incomplete. -/
def readHex4 : Reader Nat := fun s =>
  if (String.ofList (s.take 4)).utf8ByteSize < 4 then .error .incomplete
  else
    match (s.take 4).mapM hexValue? with
    | some [a, b, c, d] => .ok (((a * 16 + b) * 16 + c) * 16 + d, s.drop 4)
    | _ => .error .malformed

/-- Takes what stands behind the escape of a code unit: a leading surrogate has to be
followed by the escape of a trailing one. -/
def readUnicode : Reader Char := do
  let u ← readHex4
  if 0xDC00 ≤ u ∧ u ≤ 0xDFFF then throw .malformed
  else if 0xD800 ≤ u ∧ u ≤ 0xDBFF then
    word ['\\', 'u']
    let l ← readHex4
    if 0xDC00 ≤ l ∧ l ≤ 0xDFFF then
      return Char.ofNat (0x10000 + (u - 0xD800) * 0x400 + (l - 0xDC00))
    else throw .malformed
  else return Char.ofNat u

/-- Takes what stands behind a backslash. -/
def readEscape : Reader Char := do
  match ← next with
  | '"' => return '"'
  | '\\' => return '\\'
  | '/' => return '/'
  | 'b' => return '\x08'
  | 'f' => return '\x0c'
  | 'n' => return '\n'
  | 'r' => return '\r'
  | 't' => return '\t'
  | 'u' => readUnicode
  | _ => throw .malformed

/-- Takes a string behind its opening quote. The first argument bounds the characters. -/
def readChars : Nat → List Char → Reader String
  | 0, _ => throw .incomplete
  | fuel + 1, acc => do
    match ← next with
    | '"' => return String.ofList acc.reverse
    | '\\' => readChars fuel ((← readEscape) :: acc)
    | c => if c.toNat < 0x20 then throw .malformed else readChars fuel (c :: acc)

/-- Takes a string behind its opening quote. -/
def readString : Reader String := fun s => readChars (s.length + 1) [] s

/-- Takes the items of an array behind the first one. -/
def readItems (value : Reader Json) : Nat → List Json → Reader Json
  | 0, _ => throw .incomplete
  | fuel + 1, acc => do
    spaces
    match ← next with
    | ']' => return .array acc.reverse
    | ',' =>
      spaces
      match ← peek? with
      | some ']' => throw .malformed
      | _ => readItems value fuel ((← value) :: acc)
    | _ => throw .malformed

/-- Takes one field of an object, its key and its value. -/
def readField (value : Reader Json) : Reader (String × Json) := do
  spaces
  match ← next with
  | '"' =>
    let key ← readString
    spaces
    match ← next with
    | ':' => return (key, ← value)
    | _ => throw .malformed
  | _ => throw .malformed

/-- Takes the fields of an object behind the first one. -/
def readFields (value : Reader Json) : Nat → List (String × Json) → Reader Json
  | 0, _ => throw .incomplete
  | fuel + 1, acc => do
    spaces
    match ← next with
    | '\x7d' => return .ofPairs acc.reverse
    | ',' => readFields value fuel ((← readField value) :: acc)
    | _ => throw .malformed

/-- Takes an array behind its bracket. -/
def readArray (value : Reader Json) : Reader Json := do
  spaces
  if (← peek?) = some ']' then
    skip
    return .array []
  let first ← value
  fun s => readItems value (s.length + 1) [first] s

/-- Takes an object behind its brace. -/
def readObject (value : Reader Json) : Reader Json := do
  spaces
  if (← peek?) = some '\x7d' then
    skip
    return .object []
  let first ← readField value
  fun s => readFields value (s.length + 1) [first] s

/-- Takes a value, given what takes an array or an object behind its opening character. -/
def readWith (array object : Reader Json) : Reader Json := do
  spaces
  match ← peek? with
  | none => throw .incomplete
  | some 'n' => word ['n', 'u', 'l', 'l']; return .null
  | some 't' => word ['t', 'r', 'u', 'e']; return .bool true
  | some 'f' => word ['f', 'a', 'l', 's', 'e']; return .bool false
  | some '"' => skip; return .string (← readString)
  | some '[' => skip; array
  | some '\x7b' => skip; object
  | some c => if c = '-' ∨ c.isDigit then return .number (← readNumber) else throw .malformed

/-- Takes a value that opens at most the given number of levels. -/
def readValue : Nat → Reader Json
  | 0 => readWith (throw .malformed) (throw .malformed)
  | depth + 1 => readWith (readArray (readValue depth)) (readObject (readValue depth))

/-- The levels of nesting that a text may open. -/
def maxDepth : Nat := 127

/-- Reads the value at the front of a text and gives the rest of it. -/
def readFront (text : String) : Except TextFault (Json × List Char) :=
  (readValue maxDepth).run text.toList

/-- Whether nothing but blanks is left of a text. -/
def isFinished (rest : List Char) : Bool := rest.all isSpace

/-- Reads a text that holds one value. -/
def read (text : String) : Except TextFault Json := do
  let (v, rest) ← readFront text
  if isFinished rest then return v else throw .malformed

end Json

end Autoflow
