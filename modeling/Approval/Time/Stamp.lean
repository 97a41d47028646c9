import Approval.Number.Decimal
import Approval.Text.Blank
import Approval.Time.Instant

/-!
# Time stamps

How instants are written, `2026-03-01T09:00:00.500Z`, and read. Years of other than four digits have
a sign. Reading takes any offset from universal time and allows blanks in front of the numbers and
signs between them.
-/

namespace Approval.Instant

open Number (ofDigits)

/-! ### Writing -/

/-- A number with leading zeros up to a width. -/
def padded (width n : Nat) : List Char :=
  let digits := Nat.toDigits 10 n
  List.replicate (width - digits.length) '0' ++ digits

/-- A year: four digits, or a sign and at least four digits. -/
def yearText (year : Int) : List Char :=
  if 0 ≤ year ∧ year ≤ 9999 then padded 4 year.toNat
  else (if year < 0 then '-' else '+') :: padded 4 year.natAbs

/-- The fraction of a second with the fewest digits of 0, 3, 6 and 9 that are exact. -/
def fractionText (nano : Nat) : List Char :=
  let n := nano % nanosPerSecond
  if n = 0 then []
  else if n % 1000000 = 0 then '.' :: padded 3 (n / 1000000)
  else if n % 1000 = 0 then '.' :: padded 6 (n / 1000)
  else '.' :: padded 9 n

/-- The date, `2026-03-01`. -/
def dateText (t : Instant) : List Char :=
  let d := t.date
  yearText d.year ++ '-' :: padded 2 d.month ++ '-' :: padded 2 d.day

/-- Hours and minutes, `09:00`. -/
def minuteText (t : Instant) : List Char :=
  let (hour, minute, _) := t.clock
  padded 2 hour ++ ':' :: padded 2 minute

/-- The seconds of the minute, `00`. -/
def secondText (t : Instant) : List Char :=
  let (_, _, second) := t.clock
  padded 2 second

/-- Date, time and fraction, followed by the text of the zone. -/
def chars (zone : List Char) (t : Instant) : List Char :=
  t.dateText ++ 'T' :: t.minuteText ++ ':' :: t.secondText ++ fractionText t.nano ++ zone

def stamp (t : Instant) : String := String.ofList (t.chars ['Z'])

/-- The stamp by which stored rows are ordered. -/
def rowStamp (t : Instant) : String := String.ofList (t.chars "+00:00".toList)

/-! ### Reading -/

def skipBlanks (cs : List Char) : List Char := Text.trimLeft cs

/-- A number of one up to `width` digits, after blanks. -/
def digits? (width : Nat) (cs : List Char) : Option (Nat × List Char) :=
  let cs := skipBlanks cs
  let digits := (cs.take width).takeWhile Char.isDigit
  if digits.isEmpty then none else some (ofDigits digits, cs.drop digits.length)

/-- A year: up to four digits, or a sign and any number of digits. -/
def year? (cs : List Char) : Option (Int × List Char) :=
  match skipBlanks cs with
  | '-' :: rest => do
    if (rest.takeWhile Char.isDigit).isEmpty then none
    else some (-(ofDigits (rest.takeWhile Char.isDigit) : Int), rest.dropWhile Char.isDigit)
  | '+' :: rest =>
    if (rest.takeWhile Char.isDigit).isEmpty then none
    else some (ofDigits (rest.takeWhile Char.isDigit), rest.dropWhile Char.isDigit)
  | rest => (digits? 4 rest).map fun (n, rest) => (n, rest)

/-- A certain character after blanks. -/
def mark? (c : Char) (cs : List Char) : Option (List Char) :=
  match skipBlanks cs with
  | d :: rest => if d = c then some rest else none
  | [] => none

/-- The nanoseconds of a fraction, if one follows: nine digits count and further ones are dropped. -/
def fraction? : List Char → Option (Nat × List Char)
  | '.' :: rest =>
    let digits := rest.takeWhile Char.isDigit
    if digits.isEmpty then none
    else
      let counted := digits.take 9
      some (ofDigits counted * Nat.pow 10 (9 - counted.length), rest.dropWhile Char.isDigit)
  | rest => some (0, rest)

/-- Two digits. -/
def pair? : List Char → Option (Nat × List Char)
  | a :: b :: rest => if a.isDigit ∧ b.isDigit then some (ofDigits [a, b], rest) else none
  | _ => none

/-- The sign of an offset. -/
def offsetSign? : List Char → Option (Int × List Char)
  | '+' :: rest => some (1, rest)
  | '-' :: rest | '\u2212' :: rest => some (-1, rest)
  | _ => none

/-- The offset from universal time in seconds: `UTC`, `Z` or hours and minutes after a sign. -/
def offset? (cs : List Char) : Option (Int × List Char) :=
  if Text.sameIgnoringCase (String.ofList (cs.take 3)) "UTC" then some (0, cs.drop 3)
  else
    match cs with
    | 'Z' :: rest | 'z' :: rest => some (0, rest)
    | _ => do
      let (sign, rest) ← offsetSign? cs
      let (hours, rest) ← pair? rest
      let (minutes, rest) ← pair? (rest.dropWhile fun c => c = ':' || Text.isBlank c)
      let seconds := hours * 3600 + minutes * 60
      if minutes < 60 ∧ seconds < 86400 then some (sign * seconds, rest) else none

/-- The parts of a stamp are those of a day that the calendar has. -/
def ofFields? (date : Date) (hour minute second nano : Nat) (offset : Int) : Option Instant :=
  if date.valid ∧ hour < 24 ∧ minute < 60 ∧ second ≤ 60 then do
    let leap := second = 60
    let ofDay := hour * 3600 + minute * 60 + (if leap then 59 else second)
    let seconds := date.toDays * 86400 + ofDay
    let nano := if leap then nano + nanosPerSecond else nano
    let here ← ofParts? seconds nano
    ofParts? (here.second - offset) here.nano
  else none

/-- Read a stamp. -/
def parse? (s : String) : Option Instant := do
  let (year, rest) ← year? s.toList
  let rest ← mark? '-' rest
  let (month, rest) ← digits? 2 rest
  let rest ← mark? '-' rest
  let (day, rest) ← digits? 2 rest
  let rest ← match rest with
    | 't' :: rest | 'T' :: rest | ' ' :: rest => some rest
    | _ => none
  let (hour, rest) ← digits? 2 rest
  let rest ← mark? ':' rest
  let (minute, rest) ← digits? 2 rest
  let rest ← mark? ':' rest
  let (second, rest) ← digits? 2 rest
  let (nano, rest) ← fraction? rest
  let (offset, rest) ← offset? (skipBlanks rest)
  if rest.all Text.isBlank then ofFields? ⟨year, month, day⟩ hour minute second nano offset else none

end Approval.Instant
