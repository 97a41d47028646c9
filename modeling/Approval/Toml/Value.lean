import Approval.Number.Decimal
import Approval.Time.Calendar
import Approval.Toml.Text
import Approval.Wire.Doc

/-!
# Values of TOML

Whole numbers of 64 bits, binary64 numbers, dates and times. A table is a list of entries; whether it
may be added to depends on how it came about.
-/

namespace Approval.Toml

open Number (ofDigits)

/-! ### Numbers -/

/-- Digits with single underscores between them, without the underscores. -/
def digits? (isDigit : Char → Bool) (cs : List Char) : Option (List Char) :=
  if cs.isEmpty then none
  else
    let groups := Text.splitChars '_' cs
    if groups.any (·.isEmpty) ∨ !groups.all (·.all isDigit) then none else some groups.flatten

/-- The number that digits in a base spell. -/
def spelled (base : Nat) (cs : List Char) : Nat :=
  cs.foldl (fun n c => base * n + (JsonToken.hexValue? c).getD 0) 0

/-- The digits of a whole number do not start with a needless zero. -/
def hasNoLeadingZero (cs : List Char) : Bool := cs.length = 1 || cs.head? != some '0'

/-- A whole number of 64 bits. -/
def whole? (n : Int) : Option Doc :=
  if h : IsWord n then if n < Int.pow 2 63 then some (.number (.whole ⟨n, h⟩)) else none else none

/-- A whole number: in base ten with an optional sign, or after `0x`, `0o` or `0b` in that base. -/
def integer? (cs : List Char) : Option Doc :=
  match cs with
  | '0' :: 'x' :: rest => do
    whole? (spelled 16 (← digits? (fun c => (JsonToken.hexValue? c).isSome) rest))
  | '0' :: 'o' :: rest => do whole? (spelled 8 (← digits? (fun c => '0' ≤ c && c ≤ '7') rest))
  | '0' :: 'b' :: rest => do whole? (spelled 2 (← digits? (fun c => c == '0' || c == '1') rest))
  | cs => do
    let (negative, body) := Number.Decimal.splitSign cs
    let digits ← digits? Char.isDigit body
    if hasNoLeadingZero body then whole? (if negative then -(ofDigits digits : Int) else ofDigits digits)
    else none

/-- A number with a fraction, an exponent or both. -/
def real? (cs : List Char) : Option Doc := do
  let (negative, body) := Number.Decimal.splitSign cs
  let isMark := fun (c : Char) => c == '.' || c == 'e' || c == 'E'
  let whole := body.takeWhile fun c => !isMark c
  let rest := body.drop whole.length
  let digits ← digits? Char.isDigit whole
  if !hasNoLeadingZero whole ∨ rest.isEmpty then none
  else do
    let (places, rest) ← match rest with
      | '.' :: rest => do
        let text := rest.takeWhile fun c => c != 'e' && c != 'E'
        some (← digits? Char.isDigit text, rest.drop text.length)
      | rest => some ([], rest)
    let power ← match rest with
      | [] => some 0
      | _ :: rest => do
        let (down, text) := Number.Decimal.splitSign rest
        let digits ← digits? Char.isDigit text
        some (if down then -(ofDigits digits : Int) else ofDigits digits)
    match Number.Decimal.nearest negative ⟨ofDigits (digits ++ places), power - places.length⟩ with
    | .finite x => some (.number (.real x))
    | _ => none

/-- A name of infinity or of no number, with an optional sign. -/
def isSpecial (cs : List Char) : Bool :=
  let (_, body) := Number.Decimal.splitSign cs
  body == "inf".toList || body == "nan".toList

/-! ### Dates and times -/

/-- A number of exactly `count` digits. -/
def fixed? (count : Nat) (cs : List Char) : Option (Nat × List Char) :=
  let digits := cs.take count
  if digits.length = count ∧ digits.all Char.isDigit then some (ofDigits digits, cs.drop count) else none

/-- A certain character. -/
def char? (c : Char) : List Char → Option (List Char)
  | d :: rest => if c = d then some rest else none
  | [] => none

/-- A date that the calendar has. -/
def date? (cs : List Char) : Option (List Char) := do
  let (year, rest) ← fixed? 4 cs
  let (month, rest) ← fixed? 2 (← char? '-' rest)
  let (day, rest) ← fixed? 2 (← char? '-' rest)
  if Date.valid ⟨year, month, day⟩ then some rest else none

/-- A time of the day. -/
def time? (cs : List Char) : Option (List Char) := do
  let (hour, rest) ← fixed? 2 cs
  let (minute, rest) ← fixed? 2 (← char? ':' rest)
  let (second, rest) ← fixed? 2 (← char? ':' rest)
  if hour < 24 ∧ minute < 60 ∧ second ≤ 60 then
    match rest with
    | '.' :: places =>
      let digits := places.takeWhile Char.isDigit
      if digits.isEmpty then none else some (places.drop digits.length)
    | rest => some rest
  else none

/-- An offset from universal time, if there is one. -/
def offset? (cs : List Char) : Option (List Char) :=
  match cs with
  | 'Z' :: rest | 'z' :: rest => some rest
  | '+' :: rest | '-' :: rest => do
    let (hour, rest) ← fixed? 2 rest
    let (minute, rest) ← fixed? 2 (← char? ':' rest)
    if hour < 24 ∧ minute < 60 then some rest else none
  | rest => some rest

/-- Pass a date, a time or both. -/
def stamp? (cs : List Char) : Option (List Char) :=
  match date? cs with
  | none => time? cs
  | some rest =>
    match rest with
    | 'T' :: more | 't' :: more => (time? more).bind offset?
    | ' ' :: more =>
      match time? more with
      | some rest => offset? rest
      | none => some (' ' :: more)
    | rest => some rest

/-- A date or time as a document: an object with a private member. -/
def stampDoc : Doc := .object [(some "$__toml_private_datetime", .text "")]

/-! ### Tables -/

/-- What stands at a key: a value, a table or a row of tables. An implicit table was only passed through
by a header or a dotted key; a dotted one came about by dotted keys. -/
inductive Node
  | value (d : Doc)
  | table (implicit dotted : Bool) (entries : List (String × Node))
  | tables (items : List (List (String × Node)))

abbrev Entries := List (String × Node)

mutual

/-- The document of a node. -/
def Node.doc : Node → Doc
  | .value d => d
  | .table _ _ entries => .object (entryDocs entries)
  | .tables items => .list (itemDocs items)

/-- The members of the document of a table. -/
def entryDocs : List (String × Node) → List (Option String × Doc)
  | [] => []
  | (name, n) :: rest => (some name, n.doc) :: entryDocs rest

/-- The documents of a row of tables. -/
def itemDocs : List (List (String × Node)) → List Doc
  | [] => []
  | entries :: rest => .object (entryDocs entries) :: itemDocs rest

end

namespace Entries

/-- Put a node at a key, in place of what was there. -/
def put (name : String) (n : Node) (entries : Entries) : Entries :=
  if entries.any (·.1 = name) then entries.map fun e => if e.1 = name then (name, n) else e
  else entries ++ [(name, n)]

/-- Change the table at a path. Tables on the way that are not there come about as implicit ones. Of a
row of tables the last one is meant. Dotted keys do not pass through tables with a header. `f` is told
whether the table is a dotted one. -/
def change (dotted : Bool) (f : Bool → Entries → Option Entries) :
    List String → Bool → Entries → Option Entries
  | [], here, entries => f here entries
  | name :: path, _, entries =>
    match entries.lookup name with
    | none => do
      let inner ← change dotted f path dotted []
      some (entries.put name (.table true dotted inner))
    | some (.value _) => none
    | some (.tables items) => do
      let inner ← change dotted f path false (items.getLastD [])
      some (entries.put name (.tables (items.dropLast ++ [inner])))
    | some (.table implicit wasDotted old) =>
      if dotted ∧ !implicit then none
      else do
        let inner ← change dotted f path wasDotted old
        some (entries.put name (.table implicit wasDotted inner))

/-- Add a value at a dotted key. -/
def addValue (path : List String) (d : Doc) (entries : Entries) : Option Entries :=
  let outer := path.dropLast
  let name := path.getLastD ""
  change true (fun here entries =>
    if here = outer.isEmpty ∨ entries.any (·.1 = name) then none
    else some (entries ++ [(name, .value d)])) outer false entries

/-- Open the table of a header. -/
def openTable (path : List String) (entries : Entries) : Option Entries :=
  let name := path.getLastD ""
  change false (fun _ entries =>
    match entries.lookup name with
    | none => some (entries ++ [(name, .table false false [])])
    | some (.table true false inner) => some (entries.put name (.table false false inner))
    | some _ => none) path.dropLast false entries

/-- Open one more table of a row. -/
def openRow (path : List String) (entries : Entries) : Option Entries :=
  let name := path.getLastD ""
  change false (fun _ entries =>
    match entries.lookup name with
    | none => some (entries ++ [(name, .tables [[]])])
    | some (.tables items) => some (entries.put name (.tables (items ++ [[]])))
    | some _ => none) path.dropLast false entries

/-- Change the table that a header opened. -/
def within (path : List String) (f : Entries → Option Entries) (entries : Entries) : Option Entries :=
  change false (fun _ entries => f entries) path false entries

end Entries

end Approval.Toml
