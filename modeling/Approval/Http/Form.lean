import Approval.Http.MediaType
import Approval.Http.Refusal
import Approval.Request.Decision
import Approval.Request.Form
import Approval.Store.Basic
import Approval.Text.Case
import Approval.Text.Numeral

/-!
# Forms

What a call says in its path, its query and its body.
-/

namespace Approval.Http

open RecordDecoder (required orNone)

/-! ### Paths and queries -/

/-- The text that a part of a path stands for. -/
def pathText (part : String) : Except Refusal String :=
  match Target.decoded? part with
  | some text => .ok text
  | none => .error (.rejection .undecodablePath)

/-- The identifier that a text is. -/
def idOf {kind : Kind} (noun text : String) : Except Refusal (Id kind) :=
  match Id.parse? text with
  | some id => .ok id
  | none => .error (.argument (.id noun text))

/-- The only value of a field in a query, if there is one. -/
def fieldOf (fields : List (String × String)) (name : String) : Except Refusal (Option String) :=
  match fields.filter (·.1 = name) with
  | [] => .ok none
  | [(_, value)] => .ok (some value)
  | _ => .error (.rejection .badQuery)

/-- The only value of a field in a query, a whole number of 64 bits. -/
def intFieldOf (fields : List (String × String)) (name : String) : Except Refusal (Option Int) := do
  match ← fieldOf fields name with
  | none => .ok none
  | some text =>
    match Text.intIn? (-Int.pow 2 63) (Int.pow 2 63 - 1) text with
    | some n => .ok (some n)
    | none => .error (.rejection .badQuery)

/-! ### Bodies -/

/-- The largest count of bytes in a body. -/
def maxBody : Nat := 2097152

/-- The value that the body of a call says in JSON. -/
def Call.read {α : Type} (c : Call) (decode : Decoder α) : Except Refusal α :=
  if !c.saysJson then .error (.rejection .bodyNotJson)
  else if maxBody < c.body.utf8ByteSize then .error (.rejection .bodyTooLong)
  else
    match decode.decodeText c.body with
    | .ok a => .ok a
    | .error .malformed => .error (.rejection .malformedBody)
    | .error .mismatch => .error (.rejection .mismatchedBody)

/-! ### Forms -/

/-- What a query says about the requests to be listed. -/
structure ListForm where
  status : Option String
  requester : Option String
  limit : Option Int
  offset : Option Int

/-- Read a list form off a query. -/
def ListForm.ofFields (fields : List (String × String)) : Except Refusal ListForm := do
  return { status := ← fieldOf fields "status"
           requester := ← fieldOf fields "requester_id"
           limit := ← intFieldOf fields "limit"
           offset := ← intFieldOf fields "offset" }

/-- The requests that a list form asks for. -/
def ListForm.filter (f : ListForm) : Except Refusal RequestFilter := do
  let status ← f.status.mapM fun label =>
    match Status.parse? label with
    | some s => .ok s
    | none => .error (.argument (.status label))
  let requester ← f.requester.mapM (idOf "requester_id")
  return { status, requester, limit := f.limit, offset := f.offset }

/-- A decision with a context. -/
def decodeDecision : Decoder Decision :=
  ((fun outcome context expectedVersion => { outcome, context, expectedVersion }) <$>
    required "outcome" Decoder.text <*> orNone "context" Decoder.json <*>
    orNone "version" decodeVersion : RecordDecoder Decision).decode

/-- The context of a decision with a comment. -/
def commentContext (comment : String) : Json := .object [("comment", .text comment)]

/-- A decision with a comment; its outcome is written in capitals. -/
def decodeAction : Decoder Decision :=
  ((fun action comment expectedVersion =>
      { outcome := Text.upper (Text.trim action), context := comment.map commentContext, expectedVersion }) <$>
    required "action" Decoder.text <*> orNone "comment" Decoder.text <*>
    orNone "version" decodeVersion : RecordDecoder Decision).decode

end Approval.Http
