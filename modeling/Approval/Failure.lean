import Approval.Request.Basic
import Approval.Workflow.Validity

/-!
# Failures

Why an operation is refused, in causes, and what is said about each. Causes that come from outside of
this library are texts.
-/

namespace Approval

/-- The names that must be single words. -/
inductive NameKind
  | permission
  | role
  | user
  deriving DecidableEq

/-- What is wrong with an input. -/
inductive Invalid
  | draft (fault : DraftFault)
  | unreadableDraft
  | hoursOutOfRange (hours order : Nat)
  | noFirstStep (workflow : String)
  | emptyOutcome
  | reservedOutcome (outcome : String)
  | emptyName (kind : NameKind)
  | blankInName (kind : NameKind) (name : String)
  | other (text : String)

/-- What does not exist. -/
inductive Missing
  | workflow (id : WorkflowId)
  | request (id : RequestId)
  | named (kind : NameKind) (name : String)
  | row
  | other (text : String)

/-- What somebody lacks. -/
inductive Denial
  | role (step : String) (id : RoleId)
  | permission (step : String) (id : PermissionId)
  | notAdministrator (username : String)
  | other (text : String)

/-- What stands against a change. -/
inductive Clash
  | stale
  | over (status : Status)
  | nothingPending
  | stepMissing (order : Nat)
  | undefinedOutcome (outcome : String) (order : Nat) (declared : List String)
  | openRequests (count : Nat)
  | nameTaken (kind : NameKind) (name : String)
  | workflowNameTaken (name : String)
  | inactive (id : WorkflowId)
  | tokenTaken
  | other (text : String)

/-- Why somebody is not known. -/
inductive Stranger
  | missingCredentials
  | invalidCredentials
  | deactivated (username : String)
  | other (text : String)

/-- Why a stored row cannot be read or written. -/
inductive StorageFault
  | unreachable
  | query (text : String)
  | other (text : String)

/-- Why an operation is refused. -/
inductive Failure
  | invalid (cause : Invalid)
  | missing (cause : Missing)
  | denied (cause : Denial)
  | clash (cause : Clash)
  | inactive (id : WorkflowId)
  | stranger (cause : Stranger)
  | storage (cause : StorageFault)

/-- Why the store refuses an access. -/
inductive StoreFault
  | missing
  | clash (cause : Clash)
  | storage (cause : StorageFault)

/-! ### What is said -/

/-- What a name names. -/
def NameKind.noun : NameKind → String
  | .permission => "permission"
  | .role => "role"
  | .user => "user"

/-- What a name is called. -/
def NameKind.title : NameKind → String
  | .permission => "permission name"
  | .role => "role name"
  | .user => "username"

/-- What is said about a wrong input. -/
def Invalid.message : Invalid → String
  | .draft fault => fault.message
  | .unreadableDraft => "invalid definition document"
  | .hoursOutOfRange hours order => s!"sla_hours {hours} on step {order} is out of range"
  | .noFirstStep workflow => s!"workflow '{workflow}' has no step 1"
  | .emptyOutcome => "outcome cannot be empty"
  | .reservedOutcome outcome => s!"'{outcome}' is not a decision outcome"
  | .emptyName kind => s!"{kind.title} cannot be empty"
  | .blankInName kind name => s!"{kind.title} '{name}' must not contain whitespace"
  | .other text => text

/-- What is said to be missing. -/
def Missing.message : Missing → String
  | .workflow id => s!"workflow {id.text}"
  | .request id => s!"request {id.text}"
  | .named kind name => s!"{kind.noun} '{name}'"
  | .row => "entity"
  | .other text => text

/-- What is said to be lacking. -/
def Denial.message : Denial → String
  | .role step id => s!"step '{step}' requires role {id.text}"
  | .permission step id => s!"step '{step}' requires permission {id.text}"
  | .notAdministrator username => s!"'{username}' is not an administrator"
  | .other text => text

/-- What is said about a clash. -/
def Clash.message : Clash → String
  | .stale => "stale instance state"
  | .over status => s!"request is already {status.label}"
  | .nothingPending => "no actionable step"
  | .stepMissing order => s!"step {order} is missing from the workflow snapshot"
  | .undefinedOutcome outcome order declared =>
    s!"undefined transition for outcome '{outcome}' at step {order} (declared: " ++
      Text.joinWith ", " declared ++ ")"
  | .openRequests count => s!"workflow is referenced by {count} open request(s)"
  | .nameTaken kind name => s!"{kind.noun} '{name}' already exists"
  | .workflowNameTaken name => s!"workflow '{name}' already exists"
  | .inactive id => s!"workflow {id.text} is inactive"
  | .tokenTaken => "token already issued"
  | .other text => text

/-- What is said to a stranger. -/
def Stranger.message : Stranger → String
  | .missingCredentials => "missing credentials"
  | .invalidCredentials => "invalid credentials"
  | .deactivated username => s!"user '{username}' is deactivated"
  | .other text => text

/-- What is said about a fault of the storage. -/
def StorageFault.message : StorageFault → String
  | .unreachable => "database connection error"
  | .query text => "query error: " ++ text
  | .other text => text

/-- What is said about a failure: its class and its cause. -/
def Failure.message : Failure → String
  | .invalid cause => "validation error: " ++ cause.message
  | .missing cause => cause.message ++ " not found"
  | .denied cause => "forbidden: " ++ cause.message
  | .clash cause => "conflict: " ++ cause.message
  | .inactive id => s!"workflow definition {id.text} is inactive"
  | .stranger cause => "unauthorized: " ++ cause.message
  | .storage cause => "storage error: " ++ cause.message

/-- What is said when the store refuses an access. -/
def StoreFault.message : StoreFault → String
  | .missing => "entity not found"
  | .clash cause => "conflict: " ++ cause.message
  | .storage cause => cause.message

/-- A refusal of the store as a failure of the operation that met it. -/
def Failure.ofStore : StoreFault → Failure
  | .missing => .missing .row
  | .clash cause => .clash cause
  | .storage cause => .storage cause

end Approval
