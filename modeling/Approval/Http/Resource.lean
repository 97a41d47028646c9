import Approval.Text.Blank

/-!
# Resources

What the paths of the interface name. A part of a path that stands for an identifier is kept as it was
written.
-/

namespace Approval.Http

/-- What a path names. -/
inductive Resource
  | health
  | workflows
  | workflow (id : String)
  | activation (id : String)
  | deactivation (id : String)
  | requests
  | tasks
  | dashboard
  | request (id : String)
  | processing (id : String)
  | decision (id : String)
  | roles
  | permissions
  | self
  | auditLog
  | totals
  deriving DecidableEq

namespace Resource

/-- The resource that the parts of a path below the base name. -/
def ofParts? : List String → Option Resource
  | ["workflows"] => some .workflows
  | ["workflows", id] => some (.workflow id)
  | ["workflows", id, "activate"] => some (.activation id)
  | ["workflows", id, "deactivate"] => some (.deactivation id)
  | ["requests"] => some .requests
  | ["requests", "my-tasks"] => some .tasks
  | ["requests", "stats"] => some .dashboard
  | ["requests", id] => some (.request id)
  | ["requests", id, "process"] => some (.processing id)
  | ["workflow-instances", id, "decision"] => some (.decision id)
  | ["roles"] => some .roles
  | ["permissions"] => some .permissions
  | ["users", "me"] => some .self
  | ["audit"] => some .auditLog
  | ["admin", "stats"] => some .totals
  | _ => none

/-- The resource that a path names; no part of it is empty. -/
def ofPath? (path : String) : Option Resource :=
  match Text.split '/' path with
  | ["", "health"] => some .health
  | "" :: "api" :: "v1" :: parts => if parts.contains "" then none else ofParts? parts
  | _ => none

end Resource

end Approval.Http
