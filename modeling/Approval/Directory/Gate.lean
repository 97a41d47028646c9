import Approval.Directory.Basic
import Approval.Workflow.Basic

/-!
# Gates

Who may decide a step: whoever holds the role and the permission that it asks for. Administrators pass
every gate.
-/

namespace Approval

/-- What comes of an actor at a gate. An administrator who lacks something overrides the gate. -/
inductive Passage
  | allowed
  | overridden
  | lacksRole (role : RoleId)
  | lacksPermission (permission : PermissionId)
  deriving DecidableEq

/-- The actor passes. -/
def Passage.isOpen : Passage → Bool
  | .allowed | .overridden => true
  | _ => false

/-- What comes of an actor by roles and permissions alone; a missing role is noticed first. -/
def Step.membership (s : Step) (a : Actor) : Passage :=
  match s.role.filter (· ∉ a.roleIds) with
  | some role => .lacksRole role
  | none =>
    match s.permission.filter (· ∉ a.permissionIds) with
    | some permission => .lacksPermission permission
    | none => .allowed

/-- What comes of an actor at the gate of a step. -/
def Step.passage (s : Step) (a : Actor) : Passage :=
  match s.membership a with
  | .allowed => .allowed
  | refusal => if a.isAdmin then .overridden else refusal

end Approval
