import Approval.Failure

/-!
# Refusals

Why a call is refused: its operation fails, an argument in its target has no meaning, or it is turned away
before anything runs. Each has a status; the first two are also told, by a code and a message.
-/

namespace Approval.Http

/-- An argument in a target that has no meaning. -/
inductive BadArgument
  | id (noun value : String)
  | status (label : String)
  | other (text : String)

/-- What is said about an argument. -/
def BadArgument.message : BadArgument → String
  | .id noun value => s!"invalid {noun}: '{value}'"
  | .status label => Status.unknownMessage label
  | .other text => text

/-- Why a call is turned away. -/
inductive Rejection
  | noResource
  | noMethod
  | undecodablePath
  | badQuery
  | bodyNotJson
  | bodyTooLong
  | malformedBody
  | mismatchedBody
  deriving DecidableEq

/-- The status of a call that is turned away. -/
def Rejection.status : Rejection → Nat
  | .noResource => 404
  | .noMethod => 405
  | .undecodablePath => 400
  | .badQuery => 400
  | .bodyNotJson => 415
  | .bodyTooLong => 413
  | .malformedBody => 400
  | .mismatchedBody => 422

/-- Why a call is refused. -/
inductive Refusal
  | failure (cause : Failure)
  | argument (cause : BadArgument)
  | broken (text : String)
  | rejection (cause : Rejection)

namespace Refusal

/-- The status and the code of a refusal. -/
def statusAndCode : Refusal → Nat × String
  | .failure (.inactive _) => (409, "INACTIVE_DEFINITION")
  | .failure (.invalid _) => (400, "VALIDATION_ERROR")
  | .failure (.missing _) => (404, "NOT_FOUND")
  | .failure (.denied _) => (403, "FORBIDDEN")
  | .failure (.clash _) => (409, "CONFLICT")
  | .failure (.stranger _) => (401, "UNAUTHORIZED")
  | .failure (.storage _) => (500, "INTERNAL_ERROR")
  | .argument _ => (400, "VALIDATION_ERROR")
  | .broken _ => (500, "INTERNAL_ERROR")
  | .rejection cause => (cause.status, "")

/-- What is said about a refusal. -/
def message : Refusal → String
  | .failure cause => cause.message
  | .argument cause => cause.message
  | .broken text => text
  | .rejection _ => ""

/-- What the caller is told: the message, unless the fault is on this side. -/
def toldMessage (r : Refusal) : String :=
  if r.statusAndCode.1 = 500 then "internal server error" else r.message

end Refusal

end Approval.Http
