import Approval.Http.Call

/-!
# Media types

A media type is a type and a subtype, with parameters after semicolons: `application/json; charset=utf-8`.
The subtype may have a suffix after a plus sign, and case does not matter.
-/

namespace Approval.Http

/-- A media type in lower case, without its parameters. -/
structure MediaType where
  type : List Char
  subtype : List Char
  suffix : Option (List Char)
  deriving DecidableEq

namespace MediaType

def isQuotable (c : Char) : Bool := ' ' ≤ c && c != '\x7F'

/-- What follows the value between quotes of which this is the rest after the opening quote; the value has
at least one character, which may be a quote. -/
def afterQuoted? : List Char → Option (List Char)
  | [] => none
  | c :: cs =>
    match cs.dropWhile fun d => isQuotable d && d != '"' with
    | '"' :: rest => if isQuotable c then some (rest.dropWhile (· == ' ')) else none
    | _ => none

/-- Whether a text is a list of parameters; `fuel` is at least the length of the text. Spaces may stand
before a name and after a closing quote. -/
def parametersWith : Nat → List Char → Bool
  | 0, _ => true
  | _, [] => true
  | fuel + 1, ' ' :: rest => parametersWith fuel rest
  | fuel + 1, cs =>
    let name := cs.takeWhile isToken
    match cs.drop name.length with
    | '=' :: '"' :: rest =>
      !name.isEmpty &&
        match afterQuoted? rest with
        | some [] => true
        | some (';' :: rest) => parametersWith fuel rest
        | _ => false
    | '=' :: rest =>
      let value := rest.takeWhile isToken
      !name.isEmpty &&
        match rest.drop value.length with
        | [] => true
        | ';' :: rest => !value.isEmpty && parametersWith fuel rest
        | _ => false
    | _ => false

/-- Whether a text is a list of parameters. -/
def areParameters (cs : List Char) : Bool := parametersWith (cs.length + 1) cs

/-- The part before the last plus sign and the part after it; a plus sign at the front stands for
itself. -/
def splitSuffix (cs : List Char) : List Char × Option (List Char) :=
  let suffix := (cs.reverse.takeWhile (· != '+')).reverse
  let front := cs.take (cs.length - suffix.length - 1)
  if front.isEmpty then (cs, none) else (front, some suffix)

/-- Read a media type. -/
def parse? (s : String) : Option MediaType :=
  let cs := s.toList
  let type := cs.takeWhile isToken
  match cs.drop type.length with
  | '/' :: rest =>
    let subtype := rest.takeWhile isToken
    let isComplete := match rest.drop subtype.length with
      | [] => true
      | ';' :: parameters => !subtype.isEmpty && areParameters parameters
      | _ => false
    if !type.isEmpty && isComplete then
      let (front, suffix) := splitSuffix (subtype.map Char.toLower)
      some ⟨type.map Char.toLower, front, suffix⟩
    else none
  | _ => none

/-- The media type is JSON, or a format that is written in JSON. -/
def isJson (m : MediaType) : Bool :=
  m.type == "application".toList &&
    (m.subtype == "json".toList || m.suffix == some "json".toList)

end MediaType

/-- The body of the call is said to be JSON. -/
def Call.saysJson (c : Call) : Bool :=
  ((((c.header? "content-type").bind Header.plain?).bind MediaType.parse?).map MediaType.isJson).getD false

end Approval.Http
