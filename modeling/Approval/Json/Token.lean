import Approval.Json.Basic
import Approval.Number.Decimal
import Approval.Number.Shortest

/-!
# JSON tokens

The tokens of JSON text, how they are written and how text is cut into them. Cutting never fails:
text that starts no token becomes the token `unreadable`, which is then the last one.
-/

namespace Approval

/-- A token of JSON text. `hugeNumber` is a number beyond binary64 and `brokenText` a string that
names half of a surrogate pair: both have the right form and no value. -/
inductive JsonToken
  | null
  | bool (b : Bool)
  | number (n : JsonNumber)
  | hugeNumber
  | text (s : String)
  | brokenText
  | openArray
  | closeArray
  | openObject
  | closeObject
  | comma
  | colon
  | unreadable
  deriving DecidableEq

namespace JsonToken

/-! ### Writing -/

/-- How a character stands inside a string. -/
def escapeChar (c : Char) : List Char :=
  if c = '"' then ['\\', '"']
  else if c = '\\' then ['\\', '\\']
  else if c = '\n' then ['\\', 'n']
  else if c = '\r' then ['\\', 'r']
  else if c = '\t' then ['\\', 't']
  else if c = '\x08' then ['\\', 'b']
  else if c = '\x0c' then ['\\', 'f']
  else if c.toNat < 0x20 then
    ['\\', 'u', '0', '0', Nat.digitChar (c.toNat / 16), Nat.digitChar (c.toNat % 16)]
  else [c]

def renderText (s : String) : List Char := '"' :: s.toList.flatMap escapeChar ++ ['"']

/-- The text of a whole number. -/
def renderInt (n : Int) : List Char :=
  if n < 0 then '-' :: Nat.toDigits 10 n.natAbs else Nat.toDigits 10 n.natAbs

/-- The text of a number. -/
def renderNumber : JsonNumber → List Char
  | .whole n => renderInt n.val
  | .real x => x.text

/-- The text of a token. -/
def render : JsonToken → List Char
  | null => "null".toList
  | bool true => "true".toList
  | bool false => "false".toList
  | number n => renderNumber n
  | text s => renderText s
  | openArray => ['[']
  | closeArray => [']']
  | openObject => ['\x7b']
  | closeObject => ['\x7d']
  | comma => [',']
  | colon => [':']
  | hugeNumber | brokenText | unreadable => []

/-! ### Strings -/

/-- What stands for a piece of a string: a character, or a code unit given by its number. -/
inductive Piece
  | char (c : Char)
  | unit (n : Nat)

/-- The value of a hexadecimal digit. -/
def hexValue? (c : Char) : Option Nat :=
  if c.isDigit then some (c.toNat - '0'.toNat)
  else if 'a' ≤ c ∧ c ≤ 'f' then some (c.toNat - 'a'.toNat + 10)
  else if 'A' ≤ c ∧ c ≤ 'F' then some (c.toNat - 'A'.toNat + 10)
  else none

/-- The number that four hexadecimal digits spell. -/
def hexUnit? (a b c d : Char) : Option Nat := do
  return (((← hexValue? a) * 16 + (← hexValue? b)) * 16 + (← hexValue? c)) * 16 + (← hexValue? d)

/-- The character that a letter after a backslash stands for. -/
def unescape? : Char → Option Char
  | '"' => some '"'
  | '\\' => some '\\'
  | '/' => some '/'
  | 'b' => some '\x08'
  | 'f' => some '\x0c'
  | 'n' => some '\n'
  | 'r' => some '\r'
  | 't' => some '\t'
  | _ => none

/-- The pieces of a string up to its closing quotation mark, and what follows it. -/
def scanPieces : List Char → Option (List Piece × List Char)
  | '"' :: rest => some ([], rest)
  | '\\' :: 'u' :: a :: b :: c :: d :: rest => do
    let unit ← hexUnit? a b c d
    let (pieces, rest) ← scanPieces rest
    some (.unit unit :: pieces, rest)
  | '\\' :: c :: rest => do
    let c ← unescape? c
    let (pieces, rest) ← scanPieces rest
    some (.char c :: pieces, rest)
  | c :: rest =>
    if c = '\\' ∨ c.toNat < 0x20 then none
    else do
      let (pieces, rest) ← scanPieces rest
      some (.char c :: pieces, rest)
  | [] => none

def isHighUnit (n : Nat) : Bool := 0xD800 ≤ n && n ≤ 0xDBFF

def isLowUnit (n : Nat) : Bool := 0xDC00 ≤ n && n ≤ 0xDFFF

/-- The characters of the pieces, unless half of a surrogate pair stands alone. -/
def joinPieces? : List Piece → Option (List Char)
  | [] => some []
  | .char c :: rest => (joinPieces? rest).map (c :: ·)
  | .unit n :: .unit m :: rest =>
    if isHighUnit n then
      if isLowUnit m then
        (joinPieces? rest).map (Char.ofNat (0x10000 + (n - 0xD800) * 0x400 + (m - 0xDC00)) :: ·)
      else none
    else if isLowUnit n then none
    else (joinPieces? (.unit m :: rest)).map (Char.ofNat n :: ·)
  | .unit n :: rest =>
    if isHighUnit n ∨ isLowUnit n then none
    else (joinPieces? rest).map (Char.ofNat n :: ·)

/-! ### Numbers -/

/-- Go on with a significand while it stays a word: the significand and the digits left over. -/
def takeDigits (significand : Nat) : List Char → Nat × List Char
  | [] => (significand, [])
  | c :: rest =>
    let next := 10 * significand + Number.digitOf c
    if next < Nat.pow 2 64 then takeDigits next rest else (significand, c :: rest)

/-- `x * 10 ^ power` by one rounded product or quotient with a rounded power of ten; lower powers go
by steps of `10 ^ (-308)`, at most `steps` of them. -/
def scale (x : Number.Binary64) (power : Int) : Nat → Option Number.Binary64
  | 0 => some x
  | steps + 1 =>
    let ten := fun (k : Nat) => (Number.Binary64.ofFraction? false (Nat.pow 10 k) 1).getD default
    if power.natAbs ≤ 308 then
      if 0 ≤ power then x.mul? (ten power.natAbs) else x.div? (ten power.natAbs)
    else if x.isZero then some x
    else if 0 ≤ power then none
    else (x.div? (ten 308)).bind fun y => scale y (power + 308) steps

/-- The parts of a number's text. -/
structure NumberText where
  negative : Bool
  whole : List Char
  places : List Char := []
  power : Option (Bool × List Char) := none

namespace NumberText

/-- `± significand * 10 ^ power` in two roundings. -/
def real (negative : Bool) (significand : Nat) (power : Int) : JsonToken :=
  match (Number.Binary64.ofInt? significand).bind fun x => scale x power 4 with
  | some x => .number (.real (if negative then x.negate else x))
  | none => .hugeNumber

/-- The value of a number without fraction and exponent. -/
def wholeToken (negative : Bool) (digits : List Char) : JsonToken :=
  match takeDigits 0 digits with
  | (n, []) =>
    let signed : Int := if negative then -n else n
    if negative ∧ n = 0 then .number (.real (Number.Binary64.zero true))
    else if h : IsWord signed then .number (.whole ⟨signed, h⟩)
    else real negative n 0
  | (n, rest) => real negative n rest.length

/-- The value of a number. The significand takes digits while it stays a word; then further whole
digits count as powers of ten and further places are dropped. An exponent past 31 bits leaves zero
or nothing. -/
def token (t : NumberText) : JsonToken :=
  if t.places.isEmpty ∧ t.power.isNone then wholeToken t.negative t.whole
  else
    let (high, surplus) := takeDigits 0 t.whole
    let (significand, dropped) := takeDigits high t.places
    let shift : Int := surplus.length - (t.places.length - dropped.length : Nat)
    match t.power with
    | none => real t.negative significand shift
    | some (down, digits) =>
      let power := Number.ofDigits digits
      if power < Nat.pow 2 31 then
        real t.negative significand (if down then shift - power else shift + power)
      else if significand ≠ 0 ∧ !down then .hugeNumber
      else .number (.real (Number.Binary64.zero t.negative))

end NumberText

/-- The exponent of a number, if one follows, and the rest; none if it has no digits. -/
def scanPower : List Char → Option (Option (Bool × List Char) × List Char)
  | c :: rest =>
    if c = 'e' ∨ c = 'E' then
      let (down, rest) := Number.Decimal.splitSign rest
      let digits := rest.takeWhile Char.isDigit
      if digits.isEmpty then none else some (some (down, digits), rest.dropWhile Char.isDigit)
    else some (none, c :: rest)
  | [] => some (none, [])

/-- A number without its sign, and the rest. -/
def scanNumber (negative : Bool) (cs : List Char) : Option (JsonToken × List Char) :=
  let whole := cs.takeWhile Char.isDigit
  let rest := cs.dropWhile Char.isDigit
  if whole.isEmpty ∨ (whole.head? = some '0' ∧ 1 < whole.length) then none
  else
    match rest with
    | '.' :: rest =>
      let places := rest.takeWhile Char.isDigit
      if places.isEmpty then none
      else do
        let (power, rest) ← scanPower (rest.dropWhile Char.isDigit)
        some (NumberText.token { negative, whole, places, power }, rest)
    | rest => do
      let (power, rest) ← scanPower rest
      some (NumberText.token { negative, whole, power }, rest)

/-! ### Cutting text -/

def isSpace (c : Char) : Bool := c == ' ' || c == '\n' || c == '\t' || c == '\r'

/-- The token at the front of a text that does not start with a blank, and the rest. -/
def next? : List Char → Option (JsonToken × List Char)
  | '[' :: rest => some (openArray, rest)
  | ']' :: rest => some (closeArray, rest)
  | '\x7b' :: rest => some (openObject, rest)
  | '\x7d' :: rest => some (closeObject, rest)
  | ',' :: rest => some (comma, rest)
  | ':' :: rest => some (colon, rest)
  | 'n' :: 'u' :: 'l' :: 'l' :: rest => some (null, rest)
  | 't' :: 'r' :: 'u' :: 'e' :: rest => some (bool true, rest)
  | 'f' :: 'a' :: 'l' :: 's' :: 'e' :: rest => some (bool false, rest)
  | '"' :: rest => do
    let (pieces, rest) ← scanPieces rest
    match joinPieces? pieces with
    | some cs => some (text (String.ofList cs), rest)
    | none => some (brokenText, rest)
  | '-' :: rest => scanNumber true rest
  | cs => scanNumber false cs

/-- Cut a text into tokens; `fuel` bounds their number. -/
def scanWith : Nat → List Char → List JsonToken
  | 0, _ => []
  | fuel + 1, cs =>
    match cs.dropWhile isSpace with
    | [] => []
    | c :: rest =>
      match next? (c :: rest) with
      | some (t, rest) => t :: scanWith fuel rest
      | none => [unreadable]

/-- The tokens of a text: there are not more of them than characters. -/
def scan (cs : List Char) : List JsonToken := scanWith cs.length cs

end JsonToken

end Approval
