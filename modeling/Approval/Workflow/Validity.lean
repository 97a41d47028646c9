import Approval.Text.Blank
import Approval.Workflow.Reach

/-!
# Valid workflows

What a draft must look like to be accepted: named steps numbered from 1, rules with an outcome between
existing steps, and from every step that can be reached a way to the end. The first fault found is
reported: those of the steps before those of the rules, and these before those of the whole.
-/

namespace Approval

/-- What is wrong with a draft. -/
inductive DraftFault
  | emptyName
  | noSteps
  | emptyStepName (order : Nat)
  | tooManyHours (order hours : Nat)
  | duplicateOrder (order : Nat)
  | gapInOrders (orders : List Nat)
  | emptyOutcome (order : Nat)
  | reservedOutcome
  | unknownStep (order : Nat)
  | unknownTarget (order target : Nat)
  | endingOnTheWay (order target : Nat)
  | emptyField (order : Nat) (outcome : String)
  | duplicateRule (order : Nat) (outcome : String)
  | noRule (order : Nat)
  | noWayOut (order : Nat)
  deriving DecidableEq

/-- The most hours that a step may take: ten years. -/
def maxHours : Nat := 24 * 365 * 10

/-- The label of a pending step, which is no outcome. -/
def reservedOutcome : String := "PENDING"

namespace DraftFault

/-- The orders in brackets. -/
def listText (orders : List Nat) : String :=
  "[" ++ Text.joinWith ", " (orders.map toString) ++ "]"

/-- What is said about a fault. -/
def message : DraftFault → String
  | .emptyName => "workflow name cannot be empty"
  | .noSteps => "workflow must have at least one step"
  | .emptyStepName order => s!"step {order} has an empty name"
  | .tooManyHours order hours => s!"step {order} sla_hours {hours} exceeds the maximum of {maxHours}"
  | .duplicateOrder order => s!"duplicate step_order {order}"
  | .gapInOrders orders => s!"step orders must be contiguous from 1, got {listText orders}"
  | .emptyOutcome order => s!"transition from step {order} has an empty outcome"
  | .reservedOutcome => s!"outcome '{Approval.reservedOutcome}' is reserved"
  | .unknownStep order => s!"transition references unknown step {order}"
  | .unknownTarget order target => s!"transition from step {order} targets unknown step {target}"
  | .endingOnTheWay order target =>
    s!"final_status is only allowed on terminal transitions (step {order} -> {target})"
  | .emptyField order outcome => s!"condition on step {order} '{outcome}' has an empty field"
  | .duplicateRule order outcome => s!"duplicate transition for step {order} outcome '{outcome}'"
  | .noRule order => s!"step {order} has no outgoing transition"
  | .noWayOut order => s!"step {order} cannot reach a terminal transition"

end DraftFault

namespace Draft

/-- The draft with blanks cut off the ends of its name, of the names of its steps and of the outcomes of
its rules. -/
def normalize (d : Draft) : Draft :=
  { d with
    name := Text.trim d.name
    steps := d.steps.map fun s => { s with name := Text.trim s.name }
    rules := d.rules.map fun r => { r with outcome := Text.trim r.outcome } }

/-- Check the steps in order, after steps with the orders `seen`. -/
def checkSteps (seen : List Nat) : List Step → Except DraftFault Unit
  | [] => .ok ()
  | s :: rest =>
    if Text.isVacant s.name then .error (.emptyStepName s.order)
    else if maxHours < s.hours then .error (.tooManyHours s.order s.hours)
    else if s.order ∈ seen then .error (.duplicateOrder s.order)
    else checkSteps (s.order :: seen) rest

/-- Check a rule between the steps with the given orders, but not against other rules. -/
def checkRule (orders : List Nat) (r : Rule) : Except DraftFault Unit :=
  let outcome := Text.trim r.outcome
  if outcome.isEmpty then .error (.emptyOutcome r.fromStep)
  else if Text.sameIgnoringCase outcome reservedOutcome then .error .reservedOutcome
  else if r.fromStep ∉ orders then .error (.unknownStep r.fromStep)
  else
    match r.toStep with
    | none => .ok ()
    | some target =>
      if target ∉ orders then .error (.unknownTarget r.fromStep target)
      else if r.ending.isSome then .error (.endingOnTheWay r.fromStep target)
      else .ok ()

/-- Check the rules in order, after unconditional rules for the steps and outcomes `seen`. -/
def checkRules (orders : List Nat) (seen : List (Nat × String)) : List Rule → Except DraftFault Unit
  | [] => .ok ()
  | r :: rest => do
    checkRule orders r
    let outcome := Text.trim r.outcome
    match r.condition with
    | some condition =>
      if Text.isVacant condition.field then .error (.emptyField r.fromStep outcome)
      else checkRules orders seen rest
    | none =>
      if (r.fromStep, outcome) ∈ seen then .error (.duplicateRule r.fromStep outcome)
      else checkRules orders ((r.fromStep, outcome) :: seen) rest

/-- Check that every step has a rule and that every step that can be reached from the first one has a
way to the end. -/
def checkWays (orders : List Nat) (rules : List Rule) : Except DraftFault Unit :=
  match orders.find? fun order => !rules.any (·.fromStep = order) with
  | some order => .error (.noRule order)
  | none =>
    let reached := explore (Rule.targets rules) orders [1]
    let leaving := explore (Rule.sources rules) orders (Rule.lastSteps rules)
    match orders.find? fun order => reached.contains order && !leaving.contains order with
    | some order => .error (.noWayOut order)
    | none => .ok ()

def orders (d : Draft) : List Nat := (d.steps.map (·.order)).mergeSort

/-- The orders that the steps of a draft must have. -/
def expectedOrders (d : Draft) : List Nat := List.range' 1 d.steps.length

/-- Check a draft. -/
def check (d : Draft) : Except DraftFault Unit :=
  if Text.isVacant d.name then .error .emptyName
  else if d.steps.isEmpty then .error .noSteps
  else do
    checkSteps [] d.steps
    if d.orders ≠ d.expectedOrders then .error (.gapInOrders d.orders)
    else do
      checkRules d.expectedOrders [] d.rules
      checkWays d.expectedOrders d.rules

end Draft

end Approval
