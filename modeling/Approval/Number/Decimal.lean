import Approval.Number.Binary64

/-!
# Decimals

Decimal numbers `digits * 10 ^ exponent`, the binary64 datum nearest to one, and the usual way to
write one: digits with a point and an exponent, or a name of infinity.
-/

namespace Approval.Number

/-- A decimal `digits * 10 ^ exponent`. -/
structure Decimal where
  digits : Nat
  exponent : Int
  deriving DecidableEq

def digitOf (c : Char) : Nat := c.toNat - '0'.toNat

def ofDigits (cs : List Char) : Nat := cs.foldl (fun n c => 10 * n + digitOf c) 0

namespace Decimal

/-- The decimal as a fraction of whole numbers. -/
def fraction (d : Decimal) : Nat × Nat :=
  if 0 ≤ d.exponent then (d.digits * Nat.pow 10 d.exponent.toNat, 1)
  else (d.digits, Nat.pow 10 (-d.exponent).toNat)

/-- The binary64 datum nearest to a decimal. Decimals of `10 ^ 400` and above are infinite and those
below `10 ^ (-400)` are zero, which spares the powers that would say so. -/
def nearest (negative : Bool) (d : Decimal) : Extended :=
  let size : Int := (Nat.toDigits 10 d.digits).length + d.exponent
  if d.digits = 0 ∨ size < -400 then .finite (Binary64.zero negative)
  else if 400 < size then .infinite negative
  else
    let (num, den) := d.fraction
    match Binary64.ofFraction? negative num den with
    | some x => .finite x
    | none => .infinite negative

/-- The sign in front of a text and the rest. -/
def splitSign : List Char → Bool × List Char
  | '-' :: rest => (true, rest)
  | '+' :: rest => (false, rest)
  | cs => (false, cs)

/-- The exponent that follows the digits, if the text is one or is empty. -/
def exponentOf? : List Char → Option Int
  | [] => some 0
  | c :: rest =>
    if c = 'e' ∨ c = 'E' then
      let (negative, digits) := splitSign rest
      if digits.isEmpty ∨ !digits.all Char.isDigit then none
      else some (if negative then -(ofDigits digits : Int) else ofDigits digits)
    else none

/-- Read an unsigned decimal: digits, at most one point, at least one digit, at most one exponent. -/
def ofChars? (cs : List Char) : Option Decimal := do
  let whole := cs.takeWhile Char.isDigit
  let afterWhole := cs.dropWhile Char.isDigit
  let (places, rest) :=
    match afterWhole with
    | '.' :: rest => (rest.takeWhile Char.isDigit, rest.dropWhile Char.isDigit)
    | rest => ([], rest)
  if whole.isEmpty ∧ places.isEmpty then none
  else
    let exponent ← exponentOf? rest
    some ⟨ofDigits (whole ++ places), exponent - places.length⟩

end Decimal

/-- Read a datum: a decimal, `inf`, `infinity` or `nan` in any case, after an optional sign. -/
def Extended.ofText? (cs : List Char) : Option Extended :=
  let (negative, body) := Decimal.splitSign cs
  let name := String.ofList (body.map Char.toLower)
  if name = "inf" ∨ name = "infinity" then some (.infinite negative)
  else if name = "nan" then some .notANumber
  else (Decimal.ofChars? body).map (Decimal.nearest negative)

end Approval.Number
