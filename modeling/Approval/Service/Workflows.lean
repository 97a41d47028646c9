import Approval.Service.Basic
import Approval.Workflow.Document

/-!
# Workflows as a service

Workflows are checked when they are created and never change afterwards, except that new requests may be
allowed or not. A workflow with open requests cannot be removed.
-/

namespace Approval.Workflows

open Work Operation

variable [Supply]

/-- The workflow that a draft becomes. -/
def ofDraft (d : Draft) (id : WorkflowId) (createdBy : Option UserId) (now : Instant) : Workflow :=
  { id
    name := d.name
    description := d.description
    isActive := d.isActive.getD true
    steps := d.steps.mergeSort fun a b => a.order ≤ b.order
    rules := d.rules
    createdBy
    createdAt := now }

/-- An audit note about a workflow. -/
def note (action : AuditAction) (id : WorkflowId) (actor : Option UserId) (details : Option Json)
    (now : Instant) : AuditNote :=
  { requestId := none
    action
    actor
    resourceType := "workflow"
    resourceId := id.text
    details
    createdAt := now }

/-- What the audit log keeps of a new workflow. -/
def details (w : Workflow) : Json :=
  .object
    [("name", .text w.name), ("steps", Json.ofNat w.steps.length),
     ("transitions", Json.ofNat w.rules.length)]

/-- Create a workflow. -/
def create (d : Draft) (createdBy : Option UserId) : Operation Workflow := do
  let d := d.normalize
  ofResult d.verify
  let now ← now
  let id ← ask (·.nextWorkflowId)
  let w := ofDraft d id createdBy now
  change fun s => s.addWorkflow w (s.entry (note .workflowCreated id createdBy (some (details w)) now))
  return w

def get (id : WorkflowId) : Operation Workflow := readOr (.workflow id) (·.workflow? id)

def list : Operation (List Workflow) := read (·.listWorkflows)

def count : Operation Nat := ask (·.workflows.length)

/-- A row that is missing is the workflow. -/
def explain (id : WorkflowId) : StoreFault → Failure
  | .missing => .missing (.workflow id)
  | e => .ofStore e

/-- Let new requests for a workflow start, or not. -/
def setActive (id : WorkflowId) (isActive : Bool) (actor : Option UserId) : Operation Workflow := do
  let action := if isActive then AuditAction.workflowActivated else .workflowDeactivated
  let now ← now
  write (fun s => s.setActive id isActive (s.entry (note action id actor none now))) (explain id)
  get id

/-- Remove a workflow without open requests. -/
def remove (id : WorkflowId) (actor : Option UserId) : Operation Unit := do
  let now ← now
  write (fun s => s.removeWorkflow id (s.entry (note .workflowDeleted id actor none now))) (explain id)

end Approval.Workflows
