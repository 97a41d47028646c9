import Approval.Store.Basic

/-!
# Writing to the store

Every write either does all that it is for or leaves the store as it was: the answer is the new store or
the reason why there is none. A write that belongs to an audit entry appends it as well, and only once
under its identifier. A request is changed only if it has the version that the writer expects.
-/

namespace Approval.Store

/-- A row with a unique identifier is there already. -/
def duplicateRow : StoreFault := .storage (.query "a row with this identifier exists")

/-- A row refers to one that does not exist. -/
def danglingRow : StoreFault := .storage (.query "a row refers to one that does not exist")

/-! ### The audit log -/

/-- Append an audit entry. -/
def append (s : Store) (e : AuditEntry) : Access Store :=
  if s.audit.any (·.id = e.id) then .error duplicateRow else .ok { s with audit := s.audit ++ [e] }

/-! ### The directory -/

/-- Add a permission, whose name must be new. -/
def addPermission (s : Store) (p : Permission) : Access Store :=
  if s.permissions.any (·.name = p.name) then .error (.clash (.nameTaken .permission p.name))
  else .ok { s with permissions := s.permissions ++ [p] }

/-- Add a role, whose name must be new. -/
def addRole (s : Store) (r : Role) : Access Store :=
  if s.roles.any (·.name = r.name) then .error (.clash (.nameTaken .role r.name))
  else .ok { s with roles := s.roles ++ [{ r with permissionIds := Id.ascending r.permissionIds }] }

/-- Let a role grant a permission. -/
def grant (s : Store) (role : RoleId) (permission : PermissionId) : Store :=
  { s with
    roles := s.roles.map fun r =>
      if r.id = role then { r with permissionIds := Id.insert permission r.permissionIds } else r }

/-- Add a user, whose name must be new. -/
def addUser (s : Store) (u : User) : Access Store :=
  if s.users.any (·.username = u.username) then .error (.clash (.nameTaken .user u.username))
  else .ok { s with users := s.users ++ [{ u with roleIds := Id.ascending u.roleIds }] }

/-- Let a user hold a role. -/
def assign (s : Store) (user : UserId) (role : RoleId) : Store :=
  { s with
    users := s.users.map fun u =>
      if u.id = user then { u with roleIds := Id.insert role u.roleIds } else u }

/-- Make a user inactive, if there is one with the name. -/
def deactivate (s : Store) (username : String) : Store :=
  { s with
    users := s.users.map fun u => if u.username = username then { u with isActive := false } else u }

/-- Add a credential, whose digest must be new. -/
def addCredential (s : Store) (c : Credential) : Access Store :=
  if s.credentials.any (·.digest = c.digest) then .error (.clash .tokenTaken)
  else .ok { s with credentials := s.credentials ++ [c] }

/-! ### Workflows -/

/-- Add a workflow, whose identifier and name must be new. A clash of either is told as one of names. -/
def addWorkflow (s : Store) (w : Workflow) (e : AuditEntry) : Access Store :=
  if s.workflows.any fun row => row.id = w.id ∨ row.name = w.name then
    .error (.clash (.workflowNameTaken w.name))
  else
    append { s with workflows := s.workflows ++ [w], workflowsStored := s.workflowsStored + 1 } e

/-- Let new requests for a workflow start, or not. -/
def setActive (s : Store) (id : WorkflowId) (isActive : Bool) (e : AuditEntry) : Access Store :=
  if s.workflows.any (·.id = id) then
    append
      { s with
        workflows := s.workflows.map fun w => if w.id = id then { w with isActive } else w } e
  else .error .missing

/-- Remove a workflow without open requests. -/
def removeWorkflow (s : Store) (id : WorkflowId) (e : AuditEntry) : Access Store :=
  let count := s.openCount id
  if 0 < count then .error (.clash (.openRequests count))
  else if s.workflows.any (·.id = id) then
    append { s with workflows := s.workflows.filter (·.id ≠ id) } e
  else .error .missing

/-! ### Requests -/

/-- Add a request for a workflow that exists and is active. -/
def addRequest (s : Store) (r : Request) (e : AuditEntry) : Access Store :=
  match s.workflows.find? (·.id = r.workflowId) with
  | none => .error .missing
  | some w =>
    if !w.isActive then .error (.clash (.inactive r.workflowId))
    else if s.requests.any (·.id = r.id) then .error duplicateRow
    else append { s with requests := s.requests ++ [r] } e

/-- The row of a request after a change: only status, version, steps and the times of the change and of
the end are taken over. -/
def updateRow (row new : Request) : Request :=
  { row with
    status := new.status
    version := new.version
    steps := new.steps
    updatedAt := new.updatedAt
    completedAt := new.completedAt }

/-- The row is that of a request and has a version. -/
def isAt (id : RequestId) (version : Int) (row : Request) : Bool :=
  row.id = id && row.version = version

/-- Change a request that still has the expected version. -/
def update (s : Store) (r : Request) (expected : Int) : Access Store :=
  if s.requests.any (isAt r.id expected) then
    .ok { s with
      requests := s.requests.map fun row => if isAt r.id expected row then updateRow row r else row }
  else .error (.clash .stale)

/-- Save a decision on a request that still has the expected version. -/
def saveRequest (s : Store) (r : Request) (expected : Int) (e : AuditEntry) : Access Store := do
  append (← s.update r expected) e

/-- Record a late step, once for each step, and with it the escalated request if there is one. The answer
says whether it was new. -/
def addBreach (s : Store) (b : Breach) (e : AuditEntry) (escalated : Option (Request × Int)) :
    Access (Bool × Store) :=
  if s.breaches.any b.isSame then .ok (false, s)
  else if !s.requests.any (·.id = b.requestId) then .error danglingRow
  else do
    let s := { s with breaches := s.breaches ++ [b] }
    let s ← match escalated with
      | some (r, expected) => s.update r expected
      | none => .ok s
    return (true, ← s.append e)

end Approval.Store
