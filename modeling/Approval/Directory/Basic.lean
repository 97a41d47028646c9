import Approval.Id

/-!
# The directory

Permissions, roles that grant permissions, users that hold roles, and actors: users as they act, with
all that they hold.
-/

namespace Approval

/-- A permission to do some action on some resource. -/
structure Permission where
  id : PermissionId
  name : String
  resource : String
  action : String
  description : Option String
  createdAt : Instant

/-- A role and the permissions that it grants. -/
structure Role where
  id : RoleId
  name : String
  description : Option String
  permissionIds : List PermissionId
  createdAt : Instant

/-- A user and the roles that they hold. -/
structure User where
  id : UserId
  username : String
  fullName : String
  isActive : Bool
  roleIds : List RoleId
  createdAt : Instant
  deriving DecidableEq

/-- A user as they act: the roles they hold, the permissions these grant, and whether one of the roles
is that of administrators. -/
structure Actor where
  userId : UserId
  username : String
  roleIds : List RoleId
  permissionIds : List PermissionId
  isAdmin : Bool
  deriving DecidableEq

/-- A permission as it is handed in. -/
structure PermissionDraft where
  name : String
  resource : String
  action : String
  description : Option String

/-- A role as it is handed in. -/
structure RoleDraft where
  name : String
  description : Option String
  permissionNames : List String

/-- A user as it is handed in. -/
structure UserDraft where
  username : String
  fullName : Option String
  roleNames : List String

end Approval
