/-!
# Decimal numerals

Whole numbers as they are given in a query or on a command line: decimal digits after an optional sign.
-/

namespace Approval.Text

/-- The number that decimal digits spell; there must be one. -/
def natOf? (cs : List Char) : Option Nat :=
  if cs.isEmpty || !cs.all Char.isDigit then none
  else some (cs.foldl (fun n c => 10 * n + (c.toNat - '0'.toNat)) 0)

/-- The whole number that a text spells, with a sign or without one. -/
def int? (s : String) : Option Int :=
  match s.toList with
  | '+' :: cs => (natOf? cs).map Int.ofNat
  | '-' :: cs => (natOf? cs).map fun n => -(n : Int)
  | cs => (natOf? cs).map Int.ofNat

/-- The whole number from `low` to `high` that a text spells. -/
def intIn? (low high : Int) (s : String) : Option Int := (int? s).filter fun n => low ≤ n ∧ n ≤ high

end Approval.Text
