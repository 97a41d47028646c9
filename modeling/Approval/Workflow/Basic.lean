import Approval.Id

/-!
# Workflows

A workflow has numbered steps, each with a gate and a time limit, and rules that say where an outcome
of a step leads: to another step or to the end. A plan is the part of a workflow that a request is
carried out by.
-/

namespace Approval

/-- How a condition compares the value it finds with the value it names. -/
inductive Operator
  | equal
  | unequal
  | greater
  | less
  | greaterEqual
  | lessEqual
  | among
  | contains
  deriving DecidableEq

/-- A condition on the request and the decision: the value at a dotted path compares so with a given
value. -/
structure Condition where
  field : String
  operator : Operator
  value : Json

/-- How a request ends. -/
inductive Ending
  | completed
  | rejected
  deriving DecidableEq

/-- A step of a workflow. Its gate may name a role and a permission; no hours mean no deadline. -/
structure Step where
  order : Nat
  name : String
  description : Option String
  role : Option RoleId
  permission : Option PermissionId
  hours : Nat
  isConditional : Bool
  deriving DecidableEq

/-- A rule: an outcome of a step leads to another step, or to the end if there is none. -/
structure Rule where
  fromStep : Nat
  outcome : String
  toStep : Option Nat
  condition : Option Condition
  ending : Option Ending

/-- The steps and rules that a request is carried out by. -/
structure Plan where
  steps : List Step
  rules : List Rule

/-- A stored workflow. -/
structure Workflow where
  id : WorkflowId
  name : String
  description : Option String
  isActive : Bool
  steps : List Step
  rules : List Rule
  createdBy : Option UserId
  createdAt : Instant

/-- A workflow as it is handed in. -/
structure Draft where
  name : String
  description : Option String
  isActive : Option Bool
  steps : List Step
  rules : List Rule

def Step.hasDeadline (s : Step) : Bool := 0 < s.hours

def Rule.isTerminal (r : Rule) : Bool := r.toStep.isNone

def Workflow.plan (w : Workflow) : Plan := ⟨w.steps, w.rules⟩

namespace Plan

def step? (p : Plan) (order : Nat) : Option Step := p.steps.find? (·.order = order)

/-- The rules for an outcome of a step, in order. -/
def rulesFor (p : Plan) (order : Nat) (outcome : String) : List Rule :=
  p.rules.filter fun r => r.fromStep = order ∧ r.outcome = outcome

/-- The distinct outcomes that rules of a step name, in order. -/
def outcomesFor (p : Plan) (order : Nat) : List String :=
  ((p.rules.filter (·.fromStep = order)).map (·.outcome)).eraseDups

end Plan

/-- The sign of an operator. -/
def Operator.sign : Operator → String
  | .equal => "=="
  | .unequal => "!="
  | .greater => ">"
  | .less => "<"
  | .greaterEqual => ">="
  | .lessEqual => "<="
  | .among => "in"
  | .contains => "contains"

/-- All operators. -/
def Operator.all : List Operator :=
  [.equal, .unequal, .greater, .less, .greaterEqual, .lessEqual, .among, .contains]

def Operator.ofSign? (s : String) : Option Operator := Operator.all.find? (·.sign = s)

/-- The name of an ending. -/
def Ending.label : Ending → String
  | .completed => "completed"
  | .rejected => "rejected"

def Ending.ofLabel? (s : String) : Option Ending := [.completed, .rejected].find? (·.label = s)

end Approval
