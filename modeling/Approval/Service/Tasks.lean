import Approval.Directory.Gate
import Approval.Request.View
import Approval.Service.Basic

/-!
# Tasks and counts

The pending steps that somebody may decide, and counts over all requests. Both are made anew from the
stored requests each time.
-/

namespace Approval.Tasks

open Work Operation

/-- The task that a request is for an actor, if its pending step lets them through. -/
def ofRequest (actor : Actor) (now : Instant) (r : Request) : Option Task := do
  let record ← r.current?
  let step ← r.plan.step? record.order
  if (step.passage actor).isOpen then
    some
      { requestId := r.id
        workflowName := r.workflowName
        order := record.order
        stepName := record.name
        stepDescription := step.description
        deadline := record.deadline
        isLate := record.isLate now
        payload := r.payload
        createdAt := r.createdAt }
  else none

/-- The first task comes no later than the second one: by deadline, those without one last, and these by
the creation of the request. -/
def notAfter (a b : Task) : Bool :=
  match a.deadline, b.deadline with
  | some x, some y => x ≤ y
  | some _, none => true
  | none, some _ => false
  | none, none => a.createdAt ≤ b.createdAt

/-- The tasks of an actor, the most urgent first. -/
def of (actor : Actor) : Operation (List Task) := do
  let now ← now
  let requests ← read (·.listOpen)
  return (requests.filterMap (ofRequest actor now)).mergeSort notAfter

/-- Counts over all requests. -/
def dashboard : Operation Dashboard := do
  let now ← now
  let countOf ← ask fun s => s.countStatus
  let requests ← read (·.listOpen)
  let pending := requests.flatMap fun r => r.steps.filter (·.isPending)
  return { active := countOf .inProgress + countOf .escalated
           pending := pending.length
           completed := countOf .completed
           rejected := countOf .rejected
           escalated := countOf .escalated
           overdue := pending.countP (·.isLate now) }

end Approval.Tasks
