/-!
# Finite doubles

A finite double is a sign, a significand below `2 ^ 53` and a binary exponent. `ofRatio?`
rounds a quotient of naturals to the nearest double, ties to the even significand; products
and quotients of doubles are the exact ones, rounded that way once.
-/

namespace Autoflow

/-- A finite double: `significand * 2 ^ exponent`, negated if `negative` is set. The
significand is at least `2 ^ 52` unless the exponent is the least one, `-1074`. -/
structure Double where
  negative : Bool
  significand : Nat
  exponent : Int
deriving DecidableEq, Inhabited

/-- The quotient of two naturals rounded to the nearest one, a half to the even neighbour. -/
def roundHalfEven (a b : Nat) : Nat :=
  let q := a / b
  let r := a % b
  if 2 * r < b then q else if b < 2 * r then q + 1 else q + q % 2

namespace Double

/-- Zero with a sign. -/
def zero (negative : Bool) : Double := ⟨negative, 0, -1074⟩

/-- Whether the value is zero. -/
def isZero (d : Double) : Bool := d.significand == 0

/-- The same magnitude with the sign turned. -/
def neg (d : Double) : Double := { d with negative := !d.negative }

/-- The quotient `num / (den * 2 ^ e)` as a numerator and a denominator. -/
def scaleBy (num den : Nat) (e : Int) : Nat × Nat :=
  if 0 ≤ e then (num, den <<< e.toNat) else (num <<< (-e).toNat, den)

/-- The exponent at which a positive quotient has a significand of 53 bits, or the least one
if the quotient is too small for that. -/
def binade (num den : Nat) : Int :=
  let e : Int := (num.log2 : Int) - den.log2 - 52
  let s := scaleBy num den e
  max (if s.1 / s.2 < 1 <<< 52 then e - 1 else e) (-1074)

/-- The double nearest to a quotient, or nothing if that is beyond the largest double. -/
def ofRatio? (negative : Bool) (num den : Nat) : Option Double :=
  if num = 0 then some (zero negative)
  else
    let e := binade num den
    let s := scaleBy num den e
    let q := roundHalfEven s.1 s.2
    let r : Double := if q = 1 <<< 53 then ⟨negative, 1 <<< 52, e + 1⟩ else ⟨negative, q, e⟩
    if 971 < r.exponent then none else some r

/-- The magnitude as a numerator and a denominator. -/
def ratio (d : Double) : Nat × Nat :=
  if 0 ≤ d.exponent then (d.significand <<< d.exponent.toNat, 1)
  else (d.significand, 1 <<< (-d.exponent).toNat)

/-- The magnitude times a quotient, rounded once. -/
def scale? (d : Double) (num den : Nat) : Option Double :=
  ofRatio? d.negative (d.ratio.1 * num) (d.ratio.2 * den)

end Double

end Autoflow
