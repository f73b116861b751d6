import Autoflow.Number.Double

/-!
# The shortest decimal of a double

The decimals that read back as a given double fill an interval around it, whose ends count
if its significand is even. For one, two, … seventeen digits the two neighbours of the value
on that decimal grid are tried; the first grid with a neighbour inside the interval gives the
digits, the nearer neighbour if both are inside, the even one if they are equally near.
-/

namespace Autoflow

/-- A decimal: an integer coefficient and a power of ten. -/
structure Decimal where
  coefficient : Nat
  power : Int
deriving DecidableEq, Inhabited

namespace Decimal

/-- Takes trailing zeros of the coefficient into the power. -/
def stripZeros : Nat → Decimal → Decimal
  | 0, d => d
  | fuel + 1, d =>
    if d.coefficient ≠ 0 ∧ d.coefficient % 10 = 0 then
      stripZeros fuel ⟨d.coefficient / 10, d.power + 1⟩
    else d

end Decimal

namespace Double

/-- The power of ten at or below a positive quotient. -/
def tenPower (num den : Nat) : Int :=
  if den ≤ num then ((Nat.toDigits 10 (num / den)).length : Int) - 1
  else
    -- The least number of places after which the first digit stands before the point.
    let places := (Nat.toDigits 10 ((den + num - 1) / num - 1)).length
    0 - (places : Int)

/-- Whether `num / den` reads back as the double: it lies between the midpoints to its two
neighbours, the midpoints included for an even significand. -/
def readsBack (d : Double) (num den : Nat) : Bool :=
  -- All in units of a quarter of the last place.
  let unit := ratio ⟨false, 1, d.exponent - 2⟩
  let x := num * unit.2
  let below := if d.significand = 1 <<< 52 ∧ -1074 < d.exponent then 1 else 2
  let low := (4 * d.significand - below) * unit.1 * den
  let high := (4 * d.significand + 2) * unit.1 * den
  if d.significand % 2 = 0 then decide (low ≤ x) && decide (x ≤ high)
  else decide (low < x) && decide (x < high)

/-- The decimal with `n` digits nearest to a positive double, if it reads back. -/
def withDigits? (d : Double) (n : Nat) : Option Decimal :=
  let (num, den) := d.ratio
  let power := tenPower num den - (n : Int) + 1
  let (a, b) :=
    if 0 ≤ power then (num, den * Nat.pow 10 power.toNat)
    else (num * Nat.pow 10 (-power).toNat, den)
  let lower := a / b
  let reads (c : Nat) : Bool :=
    if 0 ≤ power then d.readsBack (c * Nat.pow 10 power.toNat) 1
    else d.readsBack c (Nat.pow 10 (-power).toNat)
  match reads lower, reads (lower + 1) with
  | true, true => some ⟨roundHalfEven a b, power⟩
  | true, false => some ⟨lower, power⟩
  | false, true => some ⟨lower + 1, power⟩
  | false, false => none

/-- The shortest decimal that reads back as the magnitude of a double. -/
def shortest (d : Double) : Decimal :=
  if d.isZero then ⟨0, 0⟩
  else
    let found := (List.range 17).findSome? fun i => d.withDigits? (i + 1)
    Decimal.stripZeros 17 (found.getD ⟨0, 0⟩)

end Double

end Autoflow
