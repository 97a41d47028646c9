import Approval.Directory.Form
import Approval.Http.Form
import Approval.Http.Reply
import Approval.Http.Resource
import Approval.Service.Audit
import Approval.Service.Directory
import Approval.Service.Requests
import Approval.Service.Tasks
import Approval.Service.Workflows
import Approval.Version

/-!
# The HTTP interface

How calls are answered. Whoever calls is asked for a token first; only then the target and the body are
read, and after them the operation runs. Workflows are changed by administrators only, and requests are
started and decided by the one who calls.
-/

namespace Approval.Http

open Work

variable [Supply]

/-- Work on a call: it is answered with a value or refused. -/
abbrev Handling := Work Refusal

instance : MonadLift Operation Handling := ⟨mapError .failure⟩

/-! ### Who calls -/

/-- The token that a call carries. -/
def Call.token (c : Call) : Except Failure String :=
  let stranger (text : String) : Except Failure String := .error (.stranger (.other text))
  let key := match c.header? "x-api-key" with
    | some h =>
      match h.plain? with
      | some value => .ok (Text.trim value)
      | none => stranger "invalid X-API-Key header encoding"
    | none => stranger "missing token; provide 'Authorization: Bearer <token>'"
  match c.header? "authorization" with
  | some h =>
    match h.plain? with
    | some value =>
      match Text.stripFront "Bearer ".toList value.toList with
      | some token => .ok (Text.trim (String.ofList token))
      | none => key
    | none => stranger "invalid Authorization header encoding"
  | none => key

/-- The actor who calls. -/
def Call.actor (c : Call) : Handling Actor := do
  let token ← mapError .failure (ofResult c.token)
  Directory.authenticate token

/-- Go on for administrators only. -/
def requireAdmin (actor : Actor) : Handling Unit :=
  if actor.isAdmin then pure () else fail (.failure (.denied (.notAdministrator actor.username)))

/-! ### Workflows -/

/-- List the workflows. -/
def listWorkflows (c : Call) : Handling Reply := do
  let _ ← c.actor
  let ws ← Workflows.list
  return .found (.array (ws.map Workflow.json)) [⟨"self", base ++ "/workflows"⟩]

/-- Create a workflow. -/
def createWorkflow (c : Call) : Handling Reply := do
  let actor ← c.actor
  let d ← ofResult (c.read Draft.decode)
  requireAdmin actor
  let w ← Workflows.create d (some actor.userId)
  return .created w.json (workflowLinks w.id)

/-- Show a workflow. -/
def showWorkflow (part : String) (c : Call) : Handling Reply := do
  let _ ← c.actor
  let text ← ofResult (pathText part)
  let id ← ofResult (idOf "workflow id" text)
  let w ← Workflows.get id
  return .found w.json (workflowLinks id)

/-- Remove a workflow. -/
def removeWorkflow (part : String) (c : Call) : Handling Reply := do
  let actor ← c.actor
  let text ← ofResult (pathText part)
  requireAdmin actor
  let id ← ofResult (idOf "workflow id" text)
  Workflows.remove id (some actor.userId)
  return .found (.object [("deleted", .bool true), ("id", id.json)]) []

/-- Let new requests for a workflow start, or not. -/
def setWorkflowActive (part : String) (isActive : Bool) (c : Call) : Handling Reply := do
  let actor ← c.actor
  let text ← ofResult (pathText part)
  requireAdmin actor
  let id ← ofResult (idOf "workflow id" text)
  let w ← Workflows.setActive id isActive (some actor.userId)
  return .found w.json (workflowLinks id)

/-! ### Requests -/

/-- The view of a request at the time of the call. -/
def viewNow (r : Request) : Handling Json := return (r.view (← now)).json

/-- List requests. -/
def listRequests (c : Call) : Handling Reply := do
  let _ ← c.actor
  let form ← ofResult (ListForm.ofFields c.target.fields)
  let filter ← ofResult form.filter
  let rs ← Requests.list filter
  let views ← rs.mapM viewNow
  return .found (.array views) [⟨"self", base ++ "/requests"⟩]

/-- Start a request in the name of the one who calls. -/
def startRequest (c : Call) : Handling Reply := do
  let actor ← c.actor
  let form ← ofResult (c.read StartForm.decode)
  let r ← Requests.start form.workflowId actor.userId (form.payload.getD (.object []))
  return .created (← viewNow r) (requestLinks r.id)

/-- Show a request. -/
def showRequest (part : String) (c : Call) : Handling Reply := do
  let _ ← c.actor
  let text ← ofResult (pathText part)
  let id ← ofResult (idOf "request id" text)
  let r ← Requests.get id
  return .found (← viewNow r) (requestLinks id)

/-- Decide the pending step of a request in the name of the one who calls. -/
def decideRequest (part : String) (decode : Decoder Decision) (c : Call) : Handling Reply := do
  let actor ← c.actor
  let text ← ofResult (pathText part)
  let d ← ofResult (c.read decode)
  let id ← ofResult (idOf "request id" text)
  let r ← Requests.process id actor d
  return .found (← viewNow r) (requestLinks id)

/-- List the tasks of the one who calls. -/
def listTasks (c : Call) : Handling Reply := do
  let actor ← c.actor
  let tasks ← Tasks.of actor
  return .found (.array (tasks.map Task.json)) [⟨"self", base ++ "/requests/my-tasks"⟩]

/-- Show the counts over all requests. -/
def showDashboard (c : Call) : Handling Reply := do
  let _ ← c.actor
  return .found (← Tasks.dashboard).json []

/-! ### The directory -/

/-- List the roles. -/
def listRoles (c : Call) : Handling Reply := do
  let _ ← c.actor
  let roles ← Directory.listRoles
  return .found (.array (roles.map Role.json)) []

/-- List the permissions. -/
def listPermissions (c : Call) : Handling Reply := do
  let _ ← c.actor
  let permissions ← Directory.listPermissions
  return .found (.array (permissions.map Permission.json)) []

/-- Show the one who calls. -/
def showSelf (c : Call) : Handling Reply := do
  let actor ← c.actor
  let user ← Directory.userNamed actor.username
  let roles ← Directory.listRoles
  let held := roles.filter fun r => actor.roleIds.contains r.id
  let data := Json.object
    [("full_name", .text user.fullName), ("id", actor.userId.json), ("is_admin", .bool actor.isAdmin),
     ("permission_ids", .array (actor.permissionIds.map Id.json)),
     ("role_ids", .array (actor.roleIds.map Id.json)), ("roles", .array (held.map (.text ·.name))),
     ("username", .text actor.username)]
  return .found data []

/-! ### Looking after it all -/

/-- The count of audit entries unless another one is asked for. -/
def defaultAuditCount : Int := 100

/-- Show the audit entries about a request, or the latest ones. -/
def showAudit (c : Call) : Handling Reply := do
  let _ ← c.actor
  let request ← ofResult (fieldOf c.target.fields "request_id")
  let limit ← ofResult (intFieldOf c.target.fields "limit")
  let entries ← match request with
    | some text => do
      let id ← ofResult (idOf "request_id" text)
      (Audit.ofRequest id : Operation _)
    | none => (Audit.latest (limit.getD defaultAuditCount) : Operation _)
  return .found (.array (entries.map AuditEntry.json)) []

/-- Show the counts of users, workflows, requests and breaches. -/
def showTotals (c : Call) : Handling Reply := do
  let actor ← c.actor
  requireAdmin actor
  let d ← Tasks.dashboard
  let users ← Directory.countUsers
  let workflows ← Workflows.count
  let breaches ← Requests.breachCount
  let requests := Json.object
    [("active", Json.ofNat d.active), ("completed", Json.ofNat d.completed),
     ("escalated", Json.ofNat d.escalated), ("rejected", Json.ofNat d.rejected),
     ("total", Json.ofNat (d.active + d.completed + d.rejected))]
  let data := Json.object
    [("requests", requests), ("sla_breaches", Json.ofNat breaches), ("users", Json.ofNat users),
     ("workflows", Json.ofNat workflows)]
  return .found data []

/-- Say that all is well. -/
def showHealth : Handling Reply :=
  return ⟨200, some (.object
    [("database", .text "ok"), ("status", .text "ok"), ("version", .text version)])⟩

/-! ### Answering -/

/-- What a method does to a resource. -/
def handler? : Resource → Method → Option (Call → Handling Reply)
  | .health, .get => some fun _ => showHealth
  | .workflows, .get => some listWorkflows
  | .workflows, .post => some createWorkflow
  | .workflow id, .get => some (showWorkflow id)
  | .workflow id, .delete => some (removeWorkflow id)
  | .activation id, .post => some (setWorkflowActive id true)
  | .deactivation id, .post => some (setWorkflowActive id false)
  | .requests, .get => some listRequests
  | .requests, .post => some startRequest
  | .tasks, .get => some listTasks
  | .dashboard, .get => some showDashboard
  | .request id, .get => some (showRequest id)
  | .processing id, .post => some (decideRequest id decodeDecision)
  | .decision id, .post => some (decideRequest id decodeAction)
  | .roles, .get => some listRoles
  | .permissions, .get => some listPermissions
  | .self, .get => some showSelf
  | .auditLog, .get => some showAudit
  | .totals, .get => some showTotals
  | _, _ => none

/-- Handle a call; asking for the head of something is like asking for it. -/
def Call.handle (c : Call) : Handling Reply :=
  match Resource.ofPath? c.target.path with
  | none => fail (.rejection .noResource)
  | some resource =>
    match handler? resource (if c.method = .head then .get else c.method) with
    | none => fail (.rejection .noMethod)
    | some handler => handler c

/-- Answer a call. What may be called is open to every page, so asking for options always succeeds; a
reply to a call for a head has no body. -/
def Call.answer (c : Call) (context : Context) (w : World) : Reply × World :=
  if c.method = .options then (⟨200, none⟩, w)
  else
    let (result, w) := c.handle context w
    let reply := match result with
      | .ok reply => reply
      | .error refusal => .refused refusal
    (if c.method = .head then reply.bare else reply, w)

end Approval.Http
