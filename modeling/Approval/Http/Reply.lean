import Approval.Http.Refusal

/-!
# Replies

A reply has a status and mostly a body: an envelope with the data that was asked for, links to what may be
asked for next, and errors.
-/

namespace Approval.Http

/-- A reply. -/
structure Reply where
  status : Nat
  body : Option Json := none

/-- A link: its name and its target. -/
structure Link where
  name : String
  target : String
  deriving DecidableEq

/-- Where the calls of the interface start. -/
def base : String := "/api/v1"

namespace Reply

/-- The body with some data and links. -/
def envelope (data : Json) (links : List Link) : Json :=
  let linked := Json.ofMembers (links.map fun l => (l.name, .text l.target))
  .ofMembers (("data", data) :: if links.isEmpty then [] else [("_links", linked)])

def found (data : Json) (links : List Link) : Reply := ⟨200, some (envelope data links)⟩

/-- The reply about something new. -/
def created (data : Json) (links : List Link) : Reply := ⟨201, some (envelope data links)⟩

/-- The reply to a call that is refused. -/
def refused : Refusal → Reply
  | .rejection cause => ⟨cause.status, none⟩
  | r =>
    let (status, code) := r.statusAndCode
    let error := Json.object [("code", .text code), ("message", .text r.toldMessage)]
    ⟨status, some (.object [("data", .null), ("errors", .array [error])])⟩

def bare (r : Reply) : Reply := { r with body := none }

end Reply

def workflowLinks (id : WorkflowId) : List Link := [⟨"self", s!"{base}/workflows/{id.text}"⟩]

/-- The links of a request. -/
def requestLinks (id : RequestId) : List Link :=
  [⟨"self", s!"{base}/requests/{id.text}"⟩, ⟨"process", s!"{base}/requests/{id.text}/process"⟩,
   ⟨"audit", s!"{base}/audit?request_id={id.text}"⟩]

end Approval.Http
