import Approval.Audit.Basic
import Approval.Directory.Gate
import Approval.Event.Basic
import Approval.Failure
import Approval.Workflow.Evaluation

/-!
# Decisions

How a request starts and how a decision on its pending step moves it on. A decision names an outcome;
the first rule for it whose condition holds leads to the next step or to the end. A refused decision
changes nothing, for the next state of the request is a value of its own.
-/

namespace Approval

/-- A decision: the outcome, data that go with it, and the version of the request that it is meant
for. -/
structure Decision where
  outcome : String
  context : Option Json := none
  expectedVersion : Option Int := none

/-- Where a rule leads. -/
inductive Resolution
  | proceed (order : Nat)
  | finish (status : Status)
  deriving DecidableEq

/-- What a decision comes to. -/
structure Decided where
  request : Request
  resolution : Resolution
  note : AuditNote
  event : Event

/-- The outcome that ends a request well unless its rule says otherwise. -/
def successOutcome : String := "APPROVED"

/-- The status that a request ends with by a rule. -/
def Rule.finalStatus (r : Rule) : Status :=
  match r.ending with
  | some ending => Status.ofEnding ending
  | none => if r.outcome = successOutcome then .completed else .rejected

/-- Where a rule leads. -/
def Rule.resolution (r : Rule) : Resolution :=
  match r.toStep with
  | some order => .proceed order
  | none => .finish r.finalStatus

/-- The record of a step that is reached at a point of time. -/
def Step.start (s : Step) (now : Instant) : Except Failure StepRecord := do
  let deadline ←
    if s.hasDeadline then
      match now.addHours? s.hours with
      | some t => .ok (some t)
      | none => .error (.invalid (.hoursOutOfRange s.hours s.order))
    else .ok none
  return { order := s.order
           name := s.name
           status := .pending
           startedAt := now
           deadline
           completedAt := none
           outcome := none
           note := none
           actedBy := none }

/-- The announcement that a step of a request waits. -/
def Request.assigned (r : Request) (s : Step) : Event :=
  .stepAssigned r.id r.workflowName s.order s.name s.role s.permission (r.current?.bind (·.deadline))

def Request.finished (r : Request) : Event := .requestFinished r.id r.workflowName r.status

/-- A new request for a workflow, waiting at the first step. -/
def Workflow.request (w : Workflow) (id : RequestId) (requester : UserId) (payload : Json)
    (now : Instant) : Except Failure Request := do
  match w.plan.step? 1 with
  | none => .error (.invalid (.noFirstStep w.name))
  | some first =>
    let record ← first.start now
    return { id
             workflowId := w.id
             workflowName := w.name
             requester
             payload
             status := .inProgress
             version := 1
             plan := w.plan
             steps := [record]
             createdAt := now
             updatedAt := now
             completedAt := none }

/-! ### Deciding -/

/-- The condition of a rule holds; a rule without one always applies. -/
def Rule.applies (r : Rule) (data : Json) : Bool :=
  match r.condition with
  | some condition => condition.holds data
  | none => true

/-- The first rule for an outcome of a step that applies. -/
def Plan.ruleFor? (p : Plan) (order : Nat) (outcome : String) (data : Json) : Option Rule :=
  (p.rulesFor order outcome).find? (·.applies data)

/-- Change the last member that satisfies `p`. -/
def changeLast {α : Type} (p : α → Bool) (f : α → α) : List α → List α
  | [] => []
  | a :: rest => if rest.any p then a :: changeLast p f rest else if p a then f a :: rest else a :: rest

/-- The record of a step closed by an actor. -/
def StepRecord.close (s : StepRecord) (outcome : String) (context : Option Json) (actor : UserId)
    (now : Instant) : StepRecord :=
  { s with
    status := StepStatus.ofOutcome outcome
    completedAt := some now
    outcome := some outcome
    note := context
    actedBy := some actor }

/-- The details that the audit log keeps of a decision. -/
def decisionDetails (step : Step) (order : Nat) (outcome : String) (context : Option Json)
    (overridden : Bool) (before after : Status) (resolution : Resolution) : Json :=
  let next := match resolution with
    | .proceed order => Json.ofNat order
    | .finish _ => .null
  let final := match resolution with
    | .proceed _ => .null
    | .finish status => status.json
  .object
    [("admin_override", .bool overridden),
     ("context", Json.ofOption id context),
     ("final_status", final),
     ("from_status", before.json),
     ("next_step_order", next),
     ("outcome", .text outcome),
     ("step_name", .text step.name),
     ("step_order", Json.ofNat order),
     ("to_status", after.json)]

/-- Let an actor through the gate of a step, or say what they lack. The answer is whether they override
the gate. -/
def Step.letThrough (step : Step) (actor : Actor) : Except Failure Bool :=
  match step.passage actor with
  | .allowed => .ok false
  | .overridden => .ok true
  | .lacksRole role => .error (.denied (.role step.name role))
  | .lacksPermission permission => .error (.denied (.permission step.name permission))

namespace Request

/-- The pending step of an open request and its step in the plan. -/
def pendingStep (r : Request) : Except Failure Step :=
  if r.status.isTerminal then .error (.clash (.over r.status))
  else
    match r.current? with
    | none => .error (.clash .nothingPending)
    | some record =>
      match r.plan.step? record.order with
      | none => .error (.clash (.stepMissing record.order))
      | some step => .ok step

/-- The outcome that a decision names, without blanks at its ends. -/
def outcomeOf (d : Decision) : Except Failure String :=
  let outcome := Text.trim d.outcome
  if outcome.isEmpty then .error (.invalid .emptyOutcome)
  else if Text.sameIgnoringCase outcome Approval.reservedOutcome then
    .error (.invalid (.reservedOutcome outcome))
  else .ok outcome

/-- The rule that a decision on a step takes. -/
def ruleOf (r : Request) (step : Step) (outcome : String) (context : Option Json) :
    Except Failure Rule :=
  match r.plan.ruleFor? step.order outcome (Condition.data r.payload context) with
  | some rule => .ok rule
  | none => .error (.clash (.undefinedOutcome outcome step.order (r.plan.outcomesFor step.order)))

/-- The request after its pending step was closed and the way of a resolution taken, and what is
announced. -/
def advance (r : Request) (closed : List StepRecord) (resolution : Resolution) (now : Instant) :
    Except Failure (Request × Event) :=
  match resolution with
  | .proceed order =>
    match r.plan.step? order with
    | none => .error (.clash (.stepMissing order))
    | some target => do
      let record ← target.start now
      let next :=
        { r with
          status := .inProgress
          version := r.version + 1
          steps := closed ++ [record]
          updatedAt := now }
      return (next, next.assigned target)
  | .finish status =>
    let next :=
      { r with
        status
        version := r.version + 1
        steps := closed
        updatedAt := now
        completedAt := some now }
    .ok (next, next.finished)

/-- Decide the pending step of a request. -/
def decide (r : Request) (actor : Actor) (d : Decision) (now : Instant) : Except Failure Decided := do
  if d.expectedVersion.any (· ≠ r.version) then .error (.clash .stale)
  let step ← r.pendingStep
  let overridden ← step.letThrough actor
  let outcome ← outcomeOf d
  let rule ← r.ruleOf step outcome d.context
  let resolution := rule.resolution
  let closed := changeLast (·.isPending) (·.close outcome d.context actor.userId now) r.steps
  let (next, event) ← r.advance closed resolution now
  let note : AuditNote :=
    { requestId := some r.id
      action := .stepDecided
      actor := some actor.userId
      resourceType := "request"
      resourceId := r.id.text
      details := some
        (decisionDetails step step.order outcome d.context overridden r.status next.status resolution)
      createdAt := now }
  return { request := next, resolution, note, event }

end Request

end Approval
