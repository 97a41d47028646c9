import Approval.Failure
import Approval.Store.ReadBack

/-!
# The store

All that is kept, as rows in the order in which they were stored, and how rows are found and read.
Reading fails if a row that is asked for does not read back.
-/

namespace Approval

/-- A credential: the digest of a token, who it belongs to, and what it is for. -/
structure Credential where
  digest : String
  owner : UserId
  label : String

/-- The store. Roles and users keep what they hold ascending and without repetition. Workflows may be
removed, so how many were ever stored is counted apart. -/
structure Store where
  permissions : List Permission := []
  roles : List Role := []
  users : List User := []
  credentials : List Credential := []
  workflows : List Workflow := []
  workflowsStored : Nat := 0
  requests : List Request := []
  breaches : List Breach := []
  audit : List AuditEntry := []

/-- Which requests to list, and how many of them after how many others. A negative limit is none. -/
structure RequestFilter where
  status : Option Status := none
  requester : Option UserId := none
  limit : Option Int := none
  offset : Option Int := none

/-- A row passes a filter. -/
def RequestFilter.accepts (f : RequestFilter) (r : Request) : Bool :=
  f.status.all (· = r.status) && f.requester.all (· = r.requester)

/-- The part of a list that a filter asks for. Without a limit the offset does not count. -/
def RequestFilter.page (f : RequestFilter) (rows : List Request) : List Request :=
  match f.limit with
  | none => rows
  | some limit =>
    let rest := rows.drop (f.offset.getD 0).toNat
    if limit < 0 then rest else rest.take limit.toNat

namespace Store

/-- The answer of an access to the store. -/
abbrev Access := Except StoreFault

def unreadable : StoreFault := .storage (.query "a stored row does not read back")

/-- Read one row. -/
def read {α : Type} (readBack : α → Option α) (row : α) : Access α :=
  match readBack row with
  | some a => .ok a
  | none => .error unreadable

/-- Read all rows of a list. -/
def readAll {α : Type} (readBack : α → Option α) (rows : List α) : Access (List α) :=
  rows.mapM (read readBack)

/-- Read a row that may be missing. -/
def readOption {α : Type} (readBack : α → Option α) : Option α → Access (Option α)
  | none => .ok none
  | some row => some <$> read readBack row

/-- Rows in ascending order of their names. -/
def byName {α : Type} (name : α → String) (rows : List α) : List α :=
  rows.mergeSort fun a b => name a ≤ name b

/-! ### The directory -/

/-- All permissions by name. -/
def listPermissions (s : Store) : Access (List Permission) :=
  readAll Permission.readBack? (byName (·.name) s.permissions)

/-- The permission with a name. -/
def permissionNamed (s : Store) (name : String) : Access (Option Permission) :=
  readOption Permission.readBack? (s.permissions.find? (·.name = name))

def listRoles (s : Store) : Access (List Role) := readAll Role.readBack? (byName (·.name) s.roles)

/-- The role with a name. -/
def roleNamed (s : Store) (name : String) : Access (Option Role) :=
  readOption Role.readBack? (s.roles.find? (·.name = name))

def listUsers (s : Store) : Access (List User) := readAll User.readBack? (byName (·.username) s.users)

/-- The user with a name. -/
def userNamed (s : Store) (username : String) : Access (Option User) :=
  readOption User.readBack? (s.users.find? (·.username = username))

/-- The active user whom the token with a digest belongs to. -/
def ownerOf (s : Store) (digest : String) : Access (Option User) :=
  let row := do
    let credential ← s.credentials.find? (·.digest = digest)
    s.users.find? fun u => u.id = credential.owner ∧ u.isActive
  readOption User.readBack? row

/-- The permissions that any of the roles grants, ascending and without repetition. -/
def permissionsOf (s : Store) (roleIds : List RoleId) : List PermissionId :=
  Id.ascending ((s.roles.filter fun r => roleIds.contains r.id).flatMap (·.permissionIds))

/-! ### Workflows -/

/-- All workflows by name. -/
def listWorkflows (s : Store) : Access (List Workflow) :=
  readAll Workflow.readBack? (byName (·.name) s.workflows)

/-- The workflow with an identifier. -/
def workflow? (s : Store) (id : WorkflowId) : Access (Option Workflow) :=
  readOption Workflow.readBack? (s.workflows.find? (·.id = id))

/-! ### Requests -/

/-- The request with an identifier. -/
def request? (s : Store) (id : RequestId) : Access (Option Request) :=
  readOption Request.readBack? (s.requests.find? (·.id = id))

/-- Requests, the latest first by the stamp of their creation. -/
def latestFirst (rows : List Request) : List Request :=
  rows.mergeSort fun a b => b.createdAt.rowStamp ≤ a.createdAt.rowStamp

/-- Requests, the earliest first by the stamp of their creation. -/
def earliestFirst (rows : List Request) : List Request :=
  rows.mergeSort fun a b => a.createdAt.rowStamp ≤ b.createdAt.rowStamp

/-- The requests that a filter asks for, the latest first. -/
def listRequests (s : Store) (f : RequestFilter) : Access (List Request) :=
  readAll Request.readBack? (f.page (latestFirst (s.requests.filter f.accepts)))

/-- The rows with a status, in the order in which they were stored. -/
def withStatus (s : Store) (status : Status) : List Request := s.requests.filter (·.status = status)

/-- The rows of open requests, the earliest first. They are found by their statuses, one after the other, so
of rows with the same stamp the escalated ones come first. -/
def openRows (s : Store) : List Request := earliestFirst (s.withStatus .escalated ++ s.withStatus .inProgress)

/-- The requests in progress and the escalated ones, the earliest first. -/
def listOpen (s : Store) : Access (List Request) := readAll Request.readBack? s.openRows

def countStatus (s : Store) (status : Status) : Nat := s.requests.countP (·.status = status)

/-- The statuses in the order of their labels, with the count of requests of those that have any. -/
def countByStatus (s : Store) : List (Status × Nat) :=
  ((byName Status.label Status.all).map fun status => (status, s.countStatus status)).filter
    (0 < ·.2)

/-- How many requests of a workflow are not over. -/
def openCount (s : Store) (id : WorkflowId) : Nat :=
  s.requests.countP fun r => r.workflowId = id ∧ r.isOpen

/-! ### The audit log -/

/-- The entries about a request, in the order of writing. -/
def auditOf (s : Store) (id : RequestId) : Access (List AuditEntry) :=
  readAll AuditEntry.readBack? (s.audit.filter (·.requestId = some id))

/-- The latest entries, the last one first. -/
def latestAudit (s : Store) (limit : Nat) : Access (List AuditEntry) :=
  readAll AuditEntry.readBack? (s.audit.reverse.take limit)

/-! ### New identifiers -/

variable [Supply]

def nextWorkflowId (s : Store) : WorkflowId := Supply.id .workflow (s.workflowsStored + 1)

def nextRequestId (s : Store) : RequestId := Supply.id .request (s.requests.length + 1)

def nextUserId (s : Store) : UserId := Supply.id .user (s.users.length + 1)

def nextRoleId (s : Store) : RoleId := Supply.id .role (s.roles.length + 1)

def nextPermissionId (s : Store) : PermissionId := Supply.id .permission (s.permissions.length + 1)

def nextAuditId (s : Store) : AuditId := Supply.id .auditEntry (s.audit.length + 1)

/-- A note as the next entry of the audit log. -/
def entry (s : Store) (n : AuditNote) : AuditEntry := { n with id := s.nextAuditId }

end Store

end Approval
