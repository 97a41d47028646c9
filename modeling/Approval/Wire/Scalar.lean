import Approval.Json.Basic
import Approval.Number.Decimal

/-!
# Plain scalars

What a scalar without quotation marks stands for: nothing, a truth value, a whole number, a number
or else a text.
-/

namespace Approval

/-- What a scalar may be declared to stand for. -/
inductive ScalarKind
  | null
  | bool
  | int
  | real
  | text
  deriving DecidableEq

namespace Scalar

/-- The scalars that stand for nothing. -/
def isNull (s : String) : Bool := ["", "~", "null", "Null", "NULL"].contains s

/-- The truth value of a scalar. -/
def bool? (s : String) : Option Bool :=
  if ["true", "True", "TRUE"].contains s then some true
  else if ["false", "False", "FALSE"].contains s then some false
  else none

/-- The value of a digit in a base up to sixteen. -/
def digitIn? (base : Nat) (c : Char) : Option Nat :=
  let value :=
    if c.isDigit then some (c.toNat - '0'.toNat)
    else if 'a' ≤ c ∧ c ≤ 'f' then some (c.toNat - 'a'.toNat + 10)
    else if 'A' ≤ c ∧ c ≤ 'F' then some (c.toNat - 'A'.toNat + 10)
    else none
  value.filter (· < base)

/-- The number that digits of a base spell; there must be one. -/
def natIn? (base : Nat) (cs : List Char) : Option Nat :=
  if cs.isEmpty then none
  else cs.foldlM (fun n c => (digitIn? base c).map (base * n + ·)) 0

/-- Digits after a leading zero, whatever follows: such a scalar is a text. -/
def hasLeadingZero (cs : List Char) : Bool :=
  let body := match cs with
    | '-' :: rest | '+' :: rest => rest
    | rest => rest
  match body with
  | '0' :: rest => !rest.isEmpty && rest.all Char.isDigit
  | _ => false

/-- A whole number without sign: in base ten, or after `0x`, `0o` or `0b` in that base. -/
def unsigned? (cs : List Char) : Option Nat :=
  match cs with
  | '0' :: 'x' :: rest => natIn? 16 rest
  | '0' :: 'o' :: rest => natIn? 8 rest
  | '0' :: 'b' :: rest => natIn? 2 rest
  | rest => natIn? 10 rest

/-- The natural number of a scalar, after an optional plus sign. -/
def nat? (s : String) : Option Nat :=
  if hasLeadingZero s.toList then none
  else
    match s.toList with
    | '+' :: rest => unsigned? rest
    | rest => unsigned? rest

/-- The whole number of a scalar, after an optional sign. -/
def int? (s : String) : Option Int :=
  match s.toList with
  | '-' :: rest =>
    if hasLeadingZero s.toList then none else (unsigned? rest).map fun n => -(n : Int)
  | _ => (nat? s).map fun n => (n : Int)

/-- The binary64 datum of a scalar: a decimal, or infinity and no number after a point. -/
def real? (s : String) : Option Number.Extended :=
  let unsignedPart := match s.toList with
    | '+' :: rest => rest
    | rest => rest
  let doubleSign := match s.toList with
    | '+' :: '+' :: _ | '+' :: '-' :: _ => true
    | _ => false
  if doubleSign then none
  else if [".inf", ".Inf", ".INF"].contains (String.ofList unsignedPart) then some (.infinite false)
  else if ["-.inf", "-.Inf", "-.INF"].contains s then some (.infinite true)
  else if [".nan", ".NaN", ".NAN"].contains s then some .notANumber
  else
    match Number.Extended.ofText? unsignedPart with
    | some (.finite x) => some (.finite x)
    | _ => none

/-- The JSON value of a binary64 datum: one that is not finite is null. -/
def ofReal : Number.Extended → Json
  | .finite x => .number (.real x)
  | _ => .null

/-- The number or text of a scalar that is no whole number. -/
def realOrText (s : String) : Json :=
  if hasLeadingZero s.toList then .text s
  else
    match real? s with
    | some x => ofReal x
    | none => .text s

/-- The JSON value of a scalar. Whole numbers of more than 64 bits have none while 128 bits hold them
and are read as binary64 beyond that; a number that is not finite is null. -/
def value? (s : String) : Option Json :=
  if isNull s then some .null
  else
    match bool? s with
    | some b => some (.bool b)
    | none =>
      match int? s with
      | some n =>
        if h : IsWord n then some (.number (.whole ⟨n, h⟩))
        else if -Int.pow 2 127 ≤ n ∧ n < Int.pow 2 128 then none
        else some (realOrText s)
      | none => some (realOrText s)

/-- The JSON value of a scalar that is declared to be of a kind. -/
def valueAs? (kind : ScalarKind) (s : String) : Option Json :=
  match kind with
  | .null => if isNull s then some .null else none
  | .bool => (bool? s).map .bool
  | .int => (int? s).bind fun n => if h : IsWord n then some (.number (.whole ⟨n, h⟩)) else none
  | .real => (real? s).map ofReal
  | .text => some (.text s)

end Scalar

end Approval
