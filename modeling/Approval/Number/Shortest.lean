import Approval.Number.Decimal

/-!
# The shortest decimal text of a binary64 number

Of the decimals that round to a number, the one with the fewest digits is written; of several
with the same count of digits, the nearest one, and of two equally near the one ending in an even
digit.
-/

namespace Approval.Number

namespace Shortest

/-- The count of decimal digits of a number. -/
def digitCount (n : Nat) : Nat := (Nat.toDigits 10 n).length

/-- The power of ten of the leading digit of `num / den`, which is not below `10 ^ (-400)`. -/
def leadingPower (num den : Nat) : Int :=
  (digitCount (num * Nat.pow 10 400 / den) : Int) - 401

/-- `a / b ≤ c / d` for fractions with positive denominators. -/
def fractionLe (a b c d : Nat) : Bool := a * d ≤ c * b

/-- The ends of the interval of reals that round to a positive number, and whether they belong to it. -/
structure Interval where
  low : Nat × Nat
  high : Nat × Nat
  closed : Bool

/-- The interval of reals that round to the magnitude of `x`. -/
def interval (x : Binary64) : Interval :=
  let quarter := fun (n : Nat) => Binary64.scaleFraction n 4 x.exponent
  let below := if x.significand = Nat.pow 2 52 ∧ -1074 < x.exponent then 1 else 2
  { low := quarter (4 * x.significand - below)
    high := quarter (4 * x.significand + 2)
    closed := x.significand % 2 = 0 }

/-- A fraction lies in the interval. -/
def Interval.holds (i : Interval) (q : Nat × Nat) : Bool :=
  if i.closed then
    fractionLe i.low.1 i.low.2 q.1 q.2 && fractionLe q.1 q.2 i.high.1 i.high.2
  else
    !fractionLe q.1 q.2 i.low.1 i.low.2 && !fractionLe i.high.1 i.high.2 q.1 q.2

/-- The nearest decimal with the given exponent that lies in the interval, among the two
neighbours of `num / den` on that grid. -/
def onGrid? (i : Interval) (num den : Nat) (exponent : Int) : Option Decimal :=
  let unit := Decimal.fraction ⟨1, exponent⟩
  let n := num * unit.2
  let d := den * unit.1
  let low := n / d
  let lowIn := 0 < low && i.holds (Decimal.fraction ⟨low, exponent⟩)
  let highIn := i.holds (Decimal.fraction ⟨low + 1, exponent⟩)
  if lowIn && highIn then some ⟨Binary64.roundDiv n d, exponent⟩
  else if lowIn then some ⟨low, exponent⟩
  else if highIn then some ⟨low + 1, exponent⟩
  else none

/-- Try ever finer grids, `fuel` of them. -/
def search (i : Interval) (num den : Nat) (exponent : Int) : Nat → Option Decimal
  | 0 => none
  | fuel + 1 =>
    match onGrid? i num den exponent with
    | some d => some d
    | none => search i num den (exponent - 1) fuel

end Shortest

/-- Move trailing zeros of the digits into the exponent, at most `fuel` of them. -/
def Decimal.strip (d : Decimal) : Nat → Decimal
  | 0 => d
  | fuel + 1 =>
    if d.digits ≠ 0 ∧ d.digits % 10 = 0 then Decimal.strip ⟨d.digits / 10, d.exponent + 1⟩ fuel else d

/-- The shortest decimal that rounds to the magnitude of `x`. -/
def Binary64.shortest (x : Binary64) : Decimal :=
  if x.significand = 0 then ⟨0, 0⟩
  else
    let (num, den) := x.fraction
    let top := Shortest.leadingPower num den
    let found := Shortest.search (Shortest.interval x) num den top 18
    (found.getD ⟨0, 0⟩).strip 20

/-! ### Layout -/

/-- How decimals are laid out: positionally while the point lies from `lowest` to `highest` digits
after the first digit's left, with an exponent otherwise. -/
structure DecimalLayout where
  lowest : Int
  highest : Int

/-- Decimals are written out from `0.00001` up to, but not including, `10 ^ 16`. -/
def jsonLayout : DecimalLayout := ⟨-4, 16⟩

/-- The text of a decimal, always with a point or an exponent. -/
def DecimalLayout.render (layout : DecimalLayout) (d : Decimal) : List Char :=
  let digits := Nat.toDigits 10 d.digits
  let count : Int := digits.length
  let point := count + d.exponent
  if d.digits = 0 then ['0', '.', '0']
  else if layout.lowest ≤ point ∧ point ≤ layout.highest then
    if 0 ≤ d.exponent then digits ++ List.replicate d.exponent.toNat '0' ++ ['.', '0']
    else if 0 < point then digits.take point.toNat ++ '.' :: digits.drop point.toNat
    else '0' :: '.' :: List.replicate (-point).toNat '0' ++ digits
  else
    let power := point - 1
    let mantissa :=
      match digits with
      | [] => []
      | [c] => [c]
      | c :: rest => c :: '.' :: rest
    let sign := if power < 0 then '-' else '+'
    mantissa ++ 'e' :: sign :: Nat.toDigits 10 power.natAbs

/-- The text of a binary64 number. -/
def Binary64.text (x : Binary64) : List Char :=
  let body := jsonLayout.render x.shortest
  if x.negative then '-' :: body else body

end Approval.Number
