/-!
# Finite binary64 numbers

The finite numbers of the IEEE 754 format binary64, kept exactly as a sign, a whole significand
and a power of two. Rounding goes to the nearest number, ties to the even significand.
-/

namespace Approval.Number

/-- A significand and a power of two are in canonical form: 53 bits, or the least exponent. -/
def Canonical (significand : Nat) (exponent : Int) : Prop :=
  significand < Nat.pow 2 53 ∧ -1074 ≤ exponent ∧ exponent ≤ 971 ∧
    (Nat.pow 2 52 ≤ significand ∨ exponent = -1074)

instance (significand : Nat) (exponent : Int) : Decidable (Canonical significand exponent) := by
  unfold Canonical; infer_instance

/-- A finite binary64 number, `± significand * 2 ^ exponent`. -/
structure Binary64 where
  negative : Bool
  significand : Nat
  exponent : Int
  canonical : Canonical significand exponent
  deriving DecidableEq

namespace Binary64

/-- The number with the given parts, if they are in canonical form. -/
def ofParts? (negative : Bool) (significand : Nat) (exponent : Int) : Option Binary64 :=
  if h : Canonical significand exponent then some ⟨negative, significand, exponent, h⟩ else none

def zero (negative : Bool) : Binary64 := ⟨negative, 0, -1074, by decide⟩

instance : Inhabited Binary64 := ⟨zero false⟩

/-- The number in units of the least positive number; the order of the numbers is the order of these. -/
def units (x : Binary64) : Int :=
  let magnitude : Int := x.significand * Int.pow 2 (x.exponent + 1074).toNat
  if x.negative then -magnitude else magnitude

/-- Both zeros have the same value. -/
def sameValue (x y : Binary64) : Bool := x.units == y.units

def negate (x : Binary64) : Binary64 := { x with negative := !x.negative }

/-- `num / den` rounded to a whole number, ties to even. -/
def roundDiv (num den : Nat) : Nat :=
  let low := num / den
  let twice := 2 * (num % den)
  if twice < den then low
  else if den < twice then low + 1
  else if low % 2 = 0 then low else low + 1

/-- `num / den * 2 ^ shift` as a fraction of whole numbers. -/
def scaleFraction (num den : Nat) (shift : Int) : Nat × Nat :=
  if 0 ≤ shift then (num * Nat.pow 2 shift.toNat, den)
  else (num, den * Nat.pow 2 (-shift).toNat)

/-- The exponent at which the significand of `num / den` has 53 bits, but at least `-1074`. -/
def fittingExponent (num den : Nat) : Int :=
  let guess : Int := (num.log2 : Int) - (den.log2 : Int) - 52
  let (n, d) := scaleFraction num den (-guess)
  let fitting := if n / d < Nat.pow 2 52 then guess - 1 else guess
  max fitting (-1074)

/-- The binary64 number nearest to `± num / den`, if it is in range. -/
def ofFraction? (negative : Bool) (num den : Nat) : Option Binary64 :=
  if num = 0 then some (zero negative)
  else
    let exponent := fittingExponent num den
    let (n, d) := scaleFraction num den (-exponent)
    let significand := roundDiv n d
    if significand = Nat.pow 2 53 then ofParts? negative (Nat.pow 2 52) (exponent + 1)
    else ofParts? negative significand exponent

/-- The binary64 number nearest to a whole number, if it is in range. -/
def ofInt? (n : Int) : Option Binary64 := ofFraction? (n < 0) n.natAbs 1

/-- The magnitude of the number as a fraction of whole numbers. -/
def fraction (x : Binary64) : Nat × Nat := scaleFraction x.significand 1 x.exponent

/-- The rounded product, if it is in range. -/
def mul? (x y : Binary64) : Option Binary64 :=
  let (a, b) := x.fraction
  let (c, d) := y.fraction
  ofFraction? (x.negative != y.negative) (a * c) (b * d)

/-- The rounded quotient, if it is in range; the divisor must not be zero. -/
def div? (x y : Binary64) : Option Binary64 :=
  let (a, b) := x.fraction
  let (c, d) := y.fraction
  ofFraction? (x.negative != y.negative) (a * d) (b * c)

/-- The number is a zero of either sign. -/
def isZero (x : Binary64) : Bool := x.significand == 0

end Binary64

/-- A binary64 datum as it may arise from text: a number, an infinity or no number at all. -/
inductive Extended
  | finite (x : Binary64)
  | infinite (negative : Bool)
  | notANumber
  deriving DecidableEq

namespace Extended

/-- How two data compare; nothing compares with what is no number. -/
def compare? : Extended → Extended → Option Ordering
  | .notANumber, _ | _, .notANumber => none
  | .finite x, .finite y => some (Ord.compare x.units y.units)
  | .infinite a, .infinite b => some (if a = b then .eq else if a then .lt else .gt)
  | .infinite a, .finite _ => some (if a then .lt else .gt)
  | .finite _, .infinite b => some (if b then .gt else .lt)

end Extended

end Approval.Number
