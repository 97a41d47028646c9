import Approval.Json.Token
import Approval.Text.Blank
import Approval.Text.Utf8

/-!
# Targets of calls

A target is mostly a path with a query after a question mark. It may also be a whole address, of which the
scheme and the authority do not matter, an authority alone, or an asterisk. In a path and in a query a
percent sign with two hexadecimal digits stands for a byte.
-/

namespace Approval.Http

/-- What a call asks for: a path, and the text after the question mark. -/
structure Target where
  path : String
  query : Option String
  deriving DecidableEq

namespace Target

/-- The largest count of bytes in a target. -/
def maxBytes : Nat := 65534

/-! ### Which characters may stand where -/

/-- A character that may stand in a path. -/
def isPathChar (c : Char) : Bool :=
  c == '!' || c == '"' || ('$' ≤ c && c ≤ ';') || c == '=' || ('@' ≤ c && c ≤ '_') || 'a' ≤ c

/-- A character that may stand in a query. -/
def isQueryChar (c : Char) : Bool := c == '!' || ('$' ≤ c && c ≤ ';') || c == '=' || '?' ≤ c

/-- A character that may stand in a scheme. -/
def isSchemeChar (c : Char) : Bool := c.isAlphanum || c == '+' || c == '-' || c == '.'

/-- A character that may stand in an authority. -/
def isAuthorityChar (c : Char) : Bool :=
  c.isAlphanum || "-._~:[]@!$&'()*+,;=%".toList.contains c

/-! ### Reading -/

/-- The part of a text before the first question mark or number sign, or none of it. -/
def upToQuery (cs : List Char) : List Char := cs.takeWhile fun c => c != '?' && c != '#'

/-- Read a path and a query; what follows a number sign is dropped. -/
def ofPath? (cs : List Char) : Option Target :=
  let path := upToQuery cs
  let query := match cs.drop path.length with
    | '?' :: rest => some (rest.takeWhile (· != '#'))
    | _ => none
  if path.all isPathChar && (query.getD []).all isQueryChar then
    some
      { path := if path.isEmpty then "/" else String.ofList path
        query := query.map String.ofList }
  else none

/-- Cut after every character for which `p` holds, leaving it out. -/
def pieces (p : Char → Bool) : List Char → List (List Char)
  | [] => [[]]
  | c :: cs =>
    if p c then [] :: pieces p cs
    else
      match pieces p cs with
      | [] => [[c]]
      | piece :: rest => (c :: piece) :: rest

/-- The text is an authority: a host, with a user before an at sign and a port after a colon, where a host
may stand in brackets. A percent sign stands only in the user and inside of the brackets. -/
def isAuthority (cs : List Char) : Bool :=
  let parts := pieces (fun c => c == '@' || c == ']') cs
  let final := parts.getLast?.getD []
  cs.all isAuthorityChar &&
    cs.count '[' == cs.count ']' && cs.count '[' ≤ 1 && !(cs.dropWhile (· != ']')).contains '[' &&
    parts.all (fun part => part.count ':' ≤ 8) &&
    parts.all (fun part => !part.contains '[' || !(part.takeWhile (· != '[')).contains '%') &&
    final.count ':' ≤ 1 && !final.contains '%' && cs.getLast? != some '@'

/-- Read a whole address, or an authority alone. -/
def ofAddress? (cs : List Char) : Option Target :=
  let scheme := cs.takeWhile isSchemeChar
  match cs.drop scheme.length with
  | ':' :: '/' :: '/' :: rest =>
    let authority := rest.takeWhile fun c => c != '/' && c != '?' && c != '#'
    if scheme.length ≤ 64 && !authority.isEmpty && isAuthority authority then
      ofPath? (rest.drop authority.length)
    else none
  | _ => if !cs.isEmpty && isAuthority cs then some ⟨"", none⟩ else none

/-- Read a target. -/
def parse? (s : String) : Option Target :=
  if maxBytes < s.utf8ByteSize then none
  else
    match s.toList with
    | ['*'] => some ⟨"*", none⟩
    | '/' :: rest => ofPath? ('/' :: rest)
    | cs => ofAddress? cs

/-! ### Percent signs -/

/-- The byte that two hexadecimal digits spell. -/
def byte? (a b : Char) : Option UInt8 := do
  let high ← JsonToken.hexValue? a
  let low ← JsonToken.hexValue? b
  return UInt8.ofNat (16 * high + low)

/-- The bytes that a text with percent signs stands for. -/
def bytes : List Char → List UInt8
  | [] => []
  | '%' :: a :: b :: rest =>
    match byte? a b with
    | some n => n :: bytes rest
    | none => String.utf8EncodeChar '%' ++ bytes (a :: b :: rest)
  | c :: rest => String.utf8EncodeChar c ++ bytes rest

/-- The text that a part of a path stands for. -/
def decoded? (part : String) : Option String := Text.Utf8.decode? (bytes part.toList)

/-! ### Fields of a query -/

/-- The text that a name or a value in a query stands for; a plus sign stands for a space. -/
def fieldText (cs : List Char) : String :=
  Text.Utf8.decodeLossily (bytes (cs.map fun c => if c = '+' then ' ' else c))

/-- The names and values of a query, in order. -/
def fields (t : Target) : List (String × String) :=
  ((Text.splitChars '&' (t.query.getD "").toList).filter fun piece => !piece.isEmpty).map fun piece =>
    let name := piece.takeWhile (· != '=')
    (fieldText name, fieldText (piece.drop (name.length + 1)))

end Target

end Approval.Http
