import Approval.Number.Decimal
import Approval.Text.Blank
import Approval.Workflow.Basic

/-!
# Conditions

How the condition of a rule is decided: the value at its path is looked up in the data of the request
and of the decision and compared with the value of the condition. What does not compare does not hold.
-/

namespace Approval

/-! ### Looking up -/

namespace Json

/-- The position that a text names: digits after an optional plus sign, within 64 bits. -/
def position? (s : String) : Option Nat :=
  let digits := match s.toList with
    | '+' :: rest => rest
    | rest => rest
  if digits.isEmpty ∨ !digits.all Char.isDigit then none
  else
    let n := Number.ofDigits digits
    if n < Nat.pow 2 64 then some n else none

/-- The part of a value with a given name: a member of an object or an item of an array. -/
def part? (segment : String) : Json → Option Json
  | .object members => members.lookup segment
  | .array items => (position? segment).bind fun i => items[i]?
  | _ => none

/-- Follow the segments of a path into a value. -/
def follow? (v : Json) : List String → Option Json
  | [] => some v
  | segment :: rest => (v.part? segment).bind fun w => w.follow? rest

def at? (v : Json) (path : String) : Option Json := v.follow? (Text.split '.' path)

/-! ### Comparing -/

/-- The binary64 number nearest to a JSON number. -/
def real : JsonNumber → Number.Binary64
  | .whole n => (Number.Binary64.ofInt? n.val).getD default
  | .real x => x

/-- Two JSON numbers are the same: whole ones by value and others by value, but never one of each. -/
def sameNumber : JsonNumber → JsonNumber → Bool
  | .whole m, .whole n => m = n
  | .real x, .real y => x.sameValue y
  | _, _ => false

mutual

/-- Two values have the same structure. -/
def same : Json → Json → Bool
  | .null, .null => true
  | .bool a, .bool b => a = b
  | .number a, .number b => sameNumber a b
  | .text a, .text b => a = b
  | .array a, .array b => sameItems a b
  | .object a, .object b => sameMembers a b
  | _, _ => false

/-- Two lists of items have the same structure. -/
def sameItems : List Json → List Json → Bool
  | [], [] => true
  | a :: as, b :: bs => same a b && sameItems as bs
  | _, _ => false

/-- Two lists of members have the same structure. -/
def sameMembers : List (String × Json) → List (String × Json) → Bool
  | [], [] => true
  | (m, a) :: as, (n, b) :: bs => m = n && same a b && sameMembers as bs
  | _, _ => false

end

/-- Two values are equal; numbers are compared as binary64 numbers. -/
def equals : Json → Json → Bool
  | .number a, .number b => (real a).sameValue (real b)
  | a, b => same a b

/-- The datum that a number is or a text spells. -/
def datum? : Json → Option Number.Extended
  | .number n => some (.finite (real n))
  | .text s => Number.Extended.ofText? (Text.trimChars s.toList)
  | _ => none

/-- How two texts compare, by their code points. -/
def compareTexts (s t : String) : Ordering :=
  if s < t then .lt else if s = t then .eq else .gt

/-- How two values compare: as numbers if both are or spell one, else as texts if both are texts. -/
def compare? (a b : Json) : Option Ordering :=
  match a.datum?, b.datum? with
  | some x, some y => x.compare? y
  | _, _ =>
    match a, b with
    | .text s, .text t => some (compareTexts s t)
    | _, _ => none

/-- A value holds another one: as an item, as a part of a text or as the name of a member. -/
def holds (whole part : Json) : Bool :=
  match whole, part with
  | .array items, v => items.any fun item => item.equals v
  | .text s, .text t => Text.occursIn t.toList s.toList
  | .object members, .text name => (members.lookup name).isSome
  | _, _ => false

end Json

/-! ### Conditions -/

/-- Some comparison comes out in a way that `p` accepts. -/
def comparesAs (p : Ordering → Bool) : Option Ordering → Bool
  | some o => p o
  | none => false

/-- The comparison that an operator stands for. -/
def Operator.relates (o : Operator) (actual expected : Json) : Bool :=
  match o with
  | .equal => actual.equals expected
  | .unequal => !actual.equals expected
  | .greater => comparesAs Ordering.isGT (actual.compare? expected)
  | .less => comparesAs Ordering.isLT (actual.compare? expected)
  | .greaterEqual => comparesAs Ordering.isGE (actual.compare? expected)
  | .lessEqual => comparesAs Ordering.isLE (actual.compare? expected)
  | .among => expected.holds actual
  | .contains => actual.holds expected

namespace Condition

/-- The condition holds for the given data. What is not there counts as null. -/
def holds (c : Condition) (data : Json) : Bool :=
  c.operator.relates ((data.at? c.field).getD .null) c.value

/-- The data that conditions look at: those of the request and those of the decision, which are empty if
it has none. -/
def data (payload : Json) (context : Option Json) : Json :=
  .object [("decision_data", context.getD (.object [])), ("request_data", payload)]

end Condition

end Approval
