import Approval.Service.Directory
import Approval.Service.Requests
import Approval.Service.Sweep
import Approval.Service.Workflows

/-!
# Runs of the service

A run is a list of calls, each under a point of time and settings of its own. A call changes the world
whether it answers or fails.
-/

namespace Approval

/-- The calls that write: those on the directory, on workflows and on requests, and the sweep. -/
inductive ServiceCall
  | createPermission (d : PermissionDraft)
  | createRole (d : RoleDraft)
  | createUser (d : UserDraft)
  | grant (role permission : String)
  | assign (username role : String)
  | deactivate (username : String)
  | issueToken (username label : String)
  | createWorkflow (d : Draft) (createdBy : Option UserId)
  | switchWorkflow (id : WorkflowId) (isActive : Bool) (actor : Option UserId)
  | removeWorkflow (id : WorkflowId) (actor : Option UserId)
  | start (id : WorkflowId) (requester : UserId) (payload : Json)
  | process (id : RequestId) (actor : Actor) (d : Decision)
  | sweep

section Supplied

variable [Supply]

/-- The world after a call, whatever its answer. -/
def ServiceCall.run (c : Context) (w : World) : ServiceCall → World
  | .createPermission d => (Directory.createPermission d c w).2
  | .createRole d => (Directory.createRole d c w).2
  | .createUser d => (Directory.createUser d c w).2
  | .grant role permission => (Directory.grant role permission c w).2
  | .assign username role => (Directory.assign username role c w).2
  | .deactivate username => (Directory.deactivate username c w).2
  | .issueToken username label => (Directory.issueToken username label c w).2
  | .createWorkflow d createdBy => (Workflows.create d createdBy c w).2
  | .switchWorkflow id isActive actor => (Workflows.setActive id isActive actor c w).2
  | .removeWorkflow id actor => (Workflows.remove id actor c w).2
  | .start id requester payload => (Requests.start id requester payload c w).2
  | .process id actor d => (Requests.process id actor d c w).2
  | .sweep => (Sweep.once c w).2

/-- A call at a point of time and under settings. -/
structure Act where
  context : Context
  call : ServiceCall

/-- The world after one act. -/
def Act.run (a : Act) (w : World) : World := a.call.run a.context w

/-- The world after acts, one after the other. -/
def World.after (w : World) (acts : List Act) : World := acts.foldl (fun w a => a.run w) w

end Supplied

/-! ### A run -/

namespace Leave

/-- A workflow of one step, which has to be taken within an hour and may be taken again. -/
def draft : Draft where
  name := "leave"
  description := none
  isActive := none
  steps :=
    [{ order := 1, name := "lead", description := none, role := none, permission := none
       hours := 1, isConditional := false }]
  rules :=
    [{ fromStep := 1, outcome := "APPROVED", toStep := none, condition := none, ending := none },
     { fromStep := 1, outcome := "MORE", toStep := some 1, condition := none, ending := none }]

/-- Somebody who may decide everything. -/
def admin : Actor where
  userId := .serial .user 1
  username := "root"
  roleIds := []
  permissionIds := []
  isAdmin := true

/-- The first request. -/
def request : RequestId := .serial .request 1

/-- So many hours after midnight of the first day. -/
def clock (hours : Nat) : Context := { now := ((default : Instant).addHours? hours).getD default }

/-- A request is started, found late, marked as escalated and decided twice. A second one is started and
waits. -/
def run : List Act :=
  let escalating : Context := { clock 14 with settings := { sweep := { escalate := true } } }
  [⟨clock 12, .createWorkflow draft none⟩,
   ⟨clock 12, .start (.serial .workflow 1) admin.userId .null⟩,
   ⟨escalating, .sweep⟩,
   ⟨clock 14, .process request admin { outcome := "MORE" }⟩,
   ⟨clock 14, .start (.serial .workflow 1) admin.userId .null⟩,
   ⟨clock 14, .process request admin { outcome := "APPROVED" }⟩]

end Leave

end Approval
