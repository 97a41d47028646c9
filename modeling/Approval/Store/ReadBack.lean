import Approval.Audit.Basic
import Approval.Directory.Basic
import Approval.Request.Basic

/-!
# Reading stored rows

Rows hold times and JSON values as text, so that reading a row is reading text: a time must lie in the
years 0 to 9999, a JSON value must not nest too deep, a number is what its text reads as, and a note
that is null is none.
-/

namespace Approval

/-! ### Values -/

/-- A time of a row, if it reads back. -/
def Instant.readBack? (t : Instant) : Option Instant := if t.hasPlainYear then some t else none

/-- A number as its text reads. -/
def JsonNumber.reread (n : JsonNumber) : JsonNumber :=
  match JsonToken.scan (JsonToken.renderNumber n) with
  | [.number m] => m
  | _ => n

namespace Json

mutual

/-- A value with each number as its text reads. -/
def reread : Json → Json
  | .number n => .number n.reread
  | .array items => .array (rereadItems items)
  | .object members => .object (rereadMembers members)
  | v => v

/-- Items with each number as its text reads. -/
def rereadItems : List Json → List Json
  | [] => []
  | v :: rest => v.reread :: rereadItems rest

/-- Members with each number as its text reads. -/
def rereadMembers : List (String × Json) → List (String × Json)
  | [] => []
  | (name, v) :: rest => (name, v.reread) :: rereadMembers rest

end

/-- A value that stands inside of `outer` arrays and objects, if it reads back. -/
def readBack? (outer : Nat) (v : Json) : Option Json :=
  if v.depth + outer ≤ depthLimit then some v.reread else none

end Json

/-! ### Parts of rows -/

/-- A rule whose condition stands inside of `outer` arrays and objects, if it reads back. -/
def Rule.readBack? (outer : Nat) (r : Rule) : Option Rule :=
  match r.condition with
  | none => some r
  | some c => do
    let value ← c.value.readBack? outer
    some { r with condition := some { c with value } }

/-- A plan, if it reads back. It is an object with an array of rules. -/
def Plan.readBack? (p : Plan) : Option Plan := do
  let rules ← p.rules.mapM (Rule.readBack? 4)
  some { p with rules }

/-- A note that stands inside of `outer` arrays and objects, if it reads back. -/
def readNote? (outer : Nat) : Option Json → Option (Option Json)
  | none | some .null => some none
  | some v => (v.readBack? outer).map some

/-- A record of a step, if it reads back. It stands in an array, and its status is kept as a label. -/
def StepRecord.readBack? (s : StepRecord) : Option StepRecord := do
  let note ← readNote? 2 s.note
  some { s with status := StepStatus.ofLabel s.status.label, note }

/-- A time that may be none, if it reads back. -/
def readTime? : Option Instant → Option (Option Instant)
  | none => some none
  | some t => t.readBack?.map some

/-! ### Rows -/

/-- A request, if its row reads back. -/
def Request.readBack? (r : Request) : Option Request := do
  let payload ← r.payload.readBack? 0
  let plan ← r.plan.readBack?
  let steps ← r.steps.mapM StepRecord.readBack?
  let createdAt ← r.createdAt.readBack?
  let updatedAt ← r.updatedAt.readBack?
  let completedAt ← readTime? r.completedAt
  some { r with payload, plan, steps, createdAt, updatedAt, completedAt }

/-- A workflow, if its row reads back. Its rules are an array. -/
def Workflow.readBack? (w : Workflow) : Option Workflow := do
  let rules ← w.rules.mapM (Rule.readBack? 3)
  let createdAt ← w.createdAt.readBack?
  some { w with rules, createdAt }

/-- An audit entry, if its row reads back. -/
def AuditEntry.readBack? (e : AuditEntry) : Option AuditEntry := do
  let details ← match e.details with
    | none => some none
    | some v => (v.readBack? 0).map some
  let createdAt ← e.createdAt.readBack?
  some { e with details, createdAt }

/-- A permission, if its row reads back. -/
def Permission.readBack? (p : Permission) : Option Permission := do
  let createdAt ← p.createdAt.readBack?
  some { p with createdAt }

/-- A role, if its row reads back. -/
def Role.readBack? (r : Role) : Option Role := do
  let createdAt ← r.createdAt.readBack?
  some { r with createdAt }

/-- A user, if its row reads back. -/
def User.readBack? (u : User) : Option User := do
  let createdAt ← u.createdAt.readBack?
  some { u with createdAt }

end Approval
