import Approval.Request.Decision
import Approval.Service.Basic

/-!
# Requests as a service

A request starts for an active workflow and moves on by decisions. Each of the two reads first and writes
afterwards, and the write checks again what was read: that the workflow is active, and that the request
still has the version that was decided on.
-/

namespace Approval.Requests

open Work Operation

variable [Supply]

/-! ### Starting -/

/-- The audit note about a new request. -/
def startNote (w : Workflow) (r : Request) : AuditNote :=
  { requestId := some r.id
    action := .requestStarted
    actor := some r.requester
    resourceType := "request"
    resourceId := r.id.text
    details := some (.object [("workflow_id", w.id.json), ("workflow_name", .text w.name)])
    createdAt := r.createdAt }

/-- What the refusal of a new request means for the one who starts it. -/
def explainStart (w : WorkflowId) : StoreFault → Failure
  | .missing => .missing (.workflow w)
  | .clash _ => .inactive w
  | e => .ofStore e

/-- Store a new request for a workflow that was read before, and announce its first step. -/
def enter (w : Workflow) (requester : UserId) (payload : Json) : Operation Request := do
  let now ← now
  let id ← ask (·.nextRequestId)
  let r ← ofResult (w.request id requester payload now)
  write (fun s => s.addRequest r (s.entry (startNote w r))) (explainStart w.id)
  match r.plan.step? 1 with
  | some first => publish (r.assigned first)
  | none => pure ()
  return r

/-- The workflow for new requests with an identifier. -/
def workflowFor (id : WorkflowId) : Operation Workflow := do
  let w ← readOr (.workflow id) (·.workflow? id)
  if w.isActive then return w else fail (.inactive w.id)

/-- Start a request. -/
def start (id : WorkflowId) (requester : UserId) (payload : Json) : Operation Request := do
  let w ← workflowFor id
  enter w requester payload

/-! ### Reading -/

def get (id : RequestId) : Operation Request := readOr (.request id) (·.request? id)

/-- The count of requests on a page unless another one is asked for. -/
def defaultLimit : Int := 50

/-- The largest count of requests on a page. -/
def maxLimit : Int := 200

def clamp (low high n : Int) : Int := max low (min high n)

/-- A page of requests, the latest first. -/
def list (f : RequestFilter) : Operation (List Request) :=
  read fun s =>
    s.listRequests
      { f with
        limit := some (clamp 1 maxLimit (f.limit.getD defaultLimit))
        offset := some (max 0 (f.offset.getD 0)) }

def breachCount : Operation Nat := ask (·.breaches.length)

/-! ### Deciding -/

/-- The version that a decision is meant for: the one that it names, or the stored one. -/
def versionFor (id : RequestId) (d : Decision) : Operation Int :=
  match d.expectedVersion with
  | some version => return version
  | none => return (← get id).version

/-- What the refusal of a decision means for the one who decides. -/
def explainSave : StoreFault → Failure
  | .clash _ => .clash .stale
  | e => .ofStore e

/-- Save what a decision came to, if the request still has the version that was decided on, and announce
it. -/
def commit (version : Int) (d : Decided) : Operation Request := do
  write (fun s => s.saveRequest d.request version (s.entry d.note)) explainSave
  publish d.event
  return d.request

/-- Decide a request that has the observed version. -/
def decideAt (id : RequestId) (actor : Actor) (d : Decision) (observed : Int) : Operation Request := do
  let current ← get id
  if current.version ≠ observed then fail (.clash .stale)
  else
    let now ← now
    let decided ← ofResult (current.decide actor d now)
    commit current.version decided

/-- Decide the pending step of a request. -/
def process (id : RequestId) (actor : Actor) (d : Decision) : Operation Request := do
  let observed ← versionFor id d
  decideAt id actor d observed

end Approval.Requests
