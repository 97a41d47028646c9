import Approval.Json.Token

/-!
# Universally unique identifiers

Identifiers are numbers written in hexadecimal. They are read from 32 digits, with or without
hyphens, in braces or after `urn:uuid:`, and written with hyphens in lower case.
-/

namespace Approval

/-- An identifier. Those that are read have 128 bits. -/
structure Uuid where
  value : Nat
  deriving DecidableEq

namespace Uuid

instance : Inhabited Uuid := ⟨⟨0⟩⟩

/-- The hexadecimal digits of an identifier, at least 32 of them. -/
def digits (u : Uuid) : List Char :=
  let cs := Nat.toDigits 16 u.value
  List.replicate (32 - cs.length) '0' ++ cs

/-- Hyphens after 8, 12, 16 and 20 digits. -/
def hyphenate (cs : List Char) : List Char :=
  cs.take 8 ++ '-' :: (cs.drop 8).take 4 ++ '-' :: (cs.drop 12).take 4 ++ '-' :: (cs.drop 16).take 4 ++
    '-' :: cs.drop 20

def text (u : Uuid) : String := String.ofList (hyphenate u.digits)

/-- The identifier that 32 hexadecimal digits spell. -/
def ofDigits? (cs : List Char) : Option Uuid := do
  if cs.length = 32 then
    let n ← cs.foldlM (fun n c => (JsonToken.hexValue? c).map (16 * n + ·)) 0
    some ⟨n⟩
  else none

/-- The identifier of 32 digits with hyphens in their places. -/
def ofHyphenated? (cs : List Char) : Option Uuid :=
  let digits := cs.filter (· ≠ '-')
  if hyphenate digits = cs then ofDigits? digits else none

/-- The characters between an opening and a closing brace. -/
def unbrace? : List Char → Option (List Char)
  | '\x7b' :: rest => if rest.getLast? = some '\x7d' then some rest.dropLast else none
  | _ => none

/-- Read an identifier. -/
def parse? (s : String) : Option Uuid :=
  let cs := s.toList
  match cs.length with
  | 32 => ofDigits? cs
  | 36 => ofHyphenated? cs
  | 38 => (unbrace? cs).bind ofHyphenated?
  | 45 => if cs.take 9 = "urn:uuid:".toList then ofHyphenated? (cs.drop 9) else none
  | _ => none

end Uuid

end Approval
