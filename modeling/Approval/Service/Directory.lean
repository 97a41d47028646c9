import Approval.Digest
import Approval.Service.Basic
import Approval.Text.Blank

/-!
# The directory as a service

Permissions, roles and users are created under names of one word and related by name. A token stands for
its user; only its digest is stored.
-/

namespace Approval.Directory

open Work Operation

variable [Supply]

/-- A name without blanks at its ends; it must be one word. -/
def requireName (kind : NameKind) (name : String) : Except Failure String :=
  let trimmed := Text.trim name
  if trimmed.isEmpty then .error (.invalid (.emptyName kind))
  else if Text.hasBlank trimmed then .error (.invalid (.blankInName kind trimmed))
  else .ok trimmed

/-! ### Looking up -/

/-- The permission with a name. -/
def permissionNamed (name : String) : Operation Permission :=
  readOr (.named .permission name) (·.permissionNamed name)

def roleNamed (name : String) : Operation Role := readOr (.named .role name) (·.roleNamed name)

def userNamed (username : String) : Operation User := readOr (.named .user username) (·.userNamed username)

def listPermissions : Operation (List Permission) := read (·.listPermissions)

def listRoles : Operation (List Role) := read (·.listRoles)

def listUsers : Operation (List User) := read (·.listUsers)

def countUsers : Operation Nat := ask (·.users.length)

/-! ### Creating -/

/-- Create a permission. -/
def createPermission (d : PermissionDraft) : Operation Permission := do
  let name ← ofResult (requireName .permission d.name)
  let createdAt ← now
  let id ← ask (·.nextPermissionId)
  let p : Permission :=
    { id
      name
      resource := Text.trim d.resource
      action := Text.trim d.action
      description := d.description
      createdAt }
  change (·.addPermission p)
  return p

/-- Create a role that grants the permissions with the given names. -/
def createRole (d : RoleDraft) : Operation Role := do
  let name ← ofResult (requireName .role d.name)
  let permissions ← d.permissionNames.mapM permissionNamed
  let createdAt ← now
  let id ← ask (·.nextRoleId)
  let r : Role :=
    { id, name, description := d.description, permissionIds := permissions.map (·.id), createdAt }
  change (·.addRole r)
  return r

/-- The full name of a user: the one that is given, or else the username. -/
def fullName (given : Option String) (username : String) : String :=
  match (given.map Text.trim).filter fun name => !name.isEmpty with
  | some name => name
  | none => username

/-- Create a user who holds the roles with the given names. -/
def createUser (d : UserDraft) : Operation User := do
  let username ← ofResult (requireName .user d.username)
  let roles ← d.roleNames.mapM roleNamed
  let createdAt ← now
  let id ← ask (·.nextUserId)
  let u : User :=
    { id
      username
      fullName := fullName d.fullName username
      isActive := true
      roleIds := roles.map (·.id)
      createdAt }
  change (·.addUser u)
  return u

/-! ### Relating -/

/-- Let a role grant a permission. -/
def grant (role permission : String) : Operation Unit := do
  let r ← roleNamed role
  let p ← permissionNamed permission
  change fun s => .ok (s.grant r.id p.id)

/-- Let a user hold a role. -/
def assign (username role : String) : Operation Unit := do
  let u ← userNamed username
  let r ← roleNamed role
  change fun s => .ok (s.assign u.id r.id)

def deactivate (username : String) : Operation Unit := change fun s => .ok (s.deactivate username)

/-! ### Acting -/

/-- The actor that an active user is. -/
def actorFor (u : User) : Operation Actor := do
  if !u.isActive then fail (.stranger (.deactivated u.username))
  else
    let c ← context
    let permissionIds ← ask (·.permissionsOf u.roleIds)
    let roles ← listRoles
    let isAdmin := roles.any fun r =>
      u.roleIds.contains r.id && Text.sameIgnoringCase r.name c.settings.access.adminRole
    return { userId := u.id, username := u.username, roleIds := u.roleIds, permissionIds, isAdmin }

/-- The actor that the user with a name is. -/
def actorNamed (username : String) : Operation Actor := do actorFor (← userNamed username)

/-- The token that is made of two identifiers. -/
def tokenText (drawn : Uuid × Uuid) : String :=
  String.ofList ("sgn_".toList ++ drawn.1.digits ++ drawn.2.digits)

/-- Issue a token that stands for a user. -/
def issueToken (username label : String) : Operation String := do
  let u ← userNamed username
  let c ← context
  let token ← ask fun s => tokenText (c.drawn (s.credentials.length + 1))
  change (·.addCredential { digest := Digest.ofText token, owner := u.id, label })
  return token

/-- The actor that a token stands for. -/
def authenticate (token : String) : Operation Actor := do
  let token := Text.trim token
  if token.isEmpty then fail (.stranger .missingCredentials)
  else
    match ← read (·.ownerOf (Digest.ofText token)) with
    | some u => actorFor u
    | none => fail (.stranger .invalidCredentials)

end Approval.Directory
