import Approval.Request.Basic

/-!
# Views of requests

What is shown of a request: its view at a point of time, the tasks that wait on it, the form that
starts one, and counts over all requests.
-/

namespace Approval

/-- A step as it is shown, with a mark if it is late. -/
structure StepView where
  step : StepRecord
  isLate : Bool

/-- A request as it is shown. -/
structure RequestView where
  id : RequestId
  workflowId : WorkflowId
  workflowName : String
  requester : UserId
  payload : Json
  status : Status
  version : Int
  currentOrder : Option Nat
  steps : List StepView
  createdAt : Instant
  updatedAt : Instant
  completedAt : Option Instant

/-- A request as it is shown at a point of time. -/
def Request.view (now : Instant) (r : Request) : RequestView :=
  { id := r.id
    workflowId := r.workflowId
    workflowName := r.workflowName
    requester := r.requester
    payload := r.payload
    status := r.status
    version := r.version
    currentOrder := r.current?.map (·.order)
    steps := r.steps.map fun s => ⟨s, s.isLate now⟩
    createdAt := r.createdAt
    updatedAt := r.updatedAt
    completedAt := r.completedAt }

/-- A step that waits for somebody. -/
structure Task where
  requestId : RequestId
  workflowName : String
  order : Nat
  stepName : String
  stepDescription : Option String
  deadline : Option Instant
  isLate : Bool
  payload : Json
  createdAt : Instant

/-- The form that starts a request. -/
structure StartForm where
  workflowId : WorkflowId
  payload : Option Json

/-- Counts over all requests. -/
structure Dashboard where
  active : Nat
  pending : Nat
  completed : Nat
  rejected : Nat
  escalated : Nat
  overdue : Nat

end Approval
