import Approval.Text.Case
import Approval.Workflow.Basic

/-!
# Requests

A request carries out the plan that its workflow had when it started. It records each step that it
reached; the last record is pending as long as the request is open. Its version counts the changes.
-/

namespace Approval

/-- Where a request stands. `escalated` marks an open request that is late. -/
inductive Status
  | created
  | inProgress
  | completed
  | rejected
  | escalated
  deriving DecidableEq

/-- Where a step of a request stands: pending, or closed with an outcome. -/
inductive StepStatus
  | pending
  | approved
  | rejected
  | skipped
  | other (label : String)
  deriving DecidableEq

/-- The record of a step that a request reached. -/
structure StepRecord where
  order : Nat
  name : String
  status : StepStatus
  startedAt : Instant
  deadline : Option Instant
  completedAt : Option Instant
  outcome : Option String
  note : Option Json
  actedBy : Option UserId

/-- A request. -/
structure Request where
  id : RequestId
  workflowId : WorkflowId
  workflowName : String
  requester : UserId
  payload : Json
  status : Status
  version : Int
  plan : Plan
  steps : List StepRecord
  createdAt : Instant
  updatedAt : Instant
  completedAt : Option Instant

/-- A late step: the request, the position of the record in it, and when it was noticed. -/
structure Breach where
  requestId : RequestId
  position : Nat
  order : Nat
  deadline : Instant
  detectedAt : Instant
  deriving DecidableEq

/-- Two breaches are of the same step of the same request. -/
def Breach.isSame (a b : Breach) : Bool := a.requestId = b.requestId && a.position = b.position

/-! ### Status -/

namespace Status

/-- A request with this status is over. -/
def isTerminal : Status → Bool
  | .completed | .rejected => true
  | _ => false

/-- The label of a status. -/
def label : Status → String
  | .created => "CREATED"
  | .inProgress => "IN_PROGRESS"
  | .completed => "COMPLETED"
  | .rejected => "REJECTED"
  | .escalated => "ESCALATED"

def all : List Status := [.created, .inProgress, .completed, .rejected, .escalated]

def ofLabel? (s : String) : Option Status := all.find? (·.label = s)

/-- The status that a text names in any case of its letters. -/
def parse? (s : String) : Option Status := ofLabel? (Text.upper s)

/-- What is said about a text that names no status. -/
def unknownMessage (s : String) : String :=
  let name := Text.upper s
  s!"invalid request status: '{name}'"

/-- The status of a request that ended so. -/
def ofEnding : Ending → Status
  | .completed => .completed
  | .rejected => .rejected

end Status

namespace StepStatus

/-- The step waits for a decision. -/
def isPending : StepStatus → Bool
  | .pending => true
  | _ => false

/-- The status of a step that was closed with an outcome. -/
def ofOutcome (outcome : String) : StepStatus :=
  if outcome = "APPROVED" then .approved
  else if outcome = "REJECTED" then .rejected
  else if outcome = "SKIPPED" then .skipped
  else .other outcome

/-- The label of a status. -/
def label : StepStatus → String
  | .pending => "PENDING"
  | .approved => "APPROVED"
  | .rejected => "REJECTED"
  | .skipped => "SKIPPED"
  | .other label => label

def ofLabel (s : String) : StepStatus := if s = "PENDING" then .pending else ofOutcome s

end StepStatus

/-! ### Steps -/

namespace StepRecord

def isPending (s : StepRecord) : Bool := s.status.isPending

/-- The step waits and its deadline has passed. -/
def isLate (now : Instant) (s : StepRecord) : Bool :=
  match s.deadline with
  | some deadline => s.isPending && decide (deadline < now)
  | none => false

end StepRecord

namespace Request

def isOpen (r : Request) : Bool := !r.status.isTerminal

/-- The last pending step. -/
def current? (r : Request) : Option StepRecord := r.steps.reverse.find? (·.isPending)

def pendingCount (r : Request) : Nat := r.steps.countP (·.isPending)

end Request

end Approval
