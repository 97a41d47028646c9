import Approval.Json.Writer
import Approval.Request.Form
import Approval.Service.Sweep
import Approval.Text.Case
import Approval.Text.Table
import Approval.Workflow.Form

/-!
# Reports

What commands print for people, line by line: short messages, and tables of what is stored.
-/

namespace Approval.CommandLine

/-! ### Words and marks -/

/-- The day and the minute of an instant. -/
def minuteOf (t : Instant) : String := String.ofList (t.dateText ++ ' ' :: t.minuteText)

/-- The day and the second of an instant. -/
def secondOf (t : Instant) : String := minuteOf t ++ ":" ++ String.ofList t.secondText

/-- What is shown for a status. -/
def statusText : Status → String
  | .created => "○ created"
  | .inProgress => "● in progress"
  | .completed => "✓ completed"
  | .rejected => "✗ rejected"
  | .escalated => "▲ escalated"

/-- What is shown for the status of a step. -/
def stepStatusText : StepStatus → String
  | .pending => "pending"
  | .approved => "approved"
  | .rejected => "rejected"
  | s => Text.lower s.label

/-- What is shown for a workflow that takes new requests, or does not. -/
def activeText (isActive : Bool) : String := if isActive then "● active" else "○ inactive"

/-- What is shown for an ending. -/
def endingText : Option Ending → String
  | none => "end"
  | some .completed => "end (Completed)"
  | some .rejected => "end (Rejected)"

/-- The ending of a noun for a count. -/
def plural (suffix : String) (n : Nat) : String := if n = 1 then "" else suffix

/-- A deadline, with a word if it has passed. -/
def deadlineText (word : String) (isLate : Bool) : Option Instant → String
  | none => "-"
  | some t => if isLate then s!"{minuteOf t} ({word})" else minuteOf t

def idText {kind : Kind} (i : Option (Id kind)) : String := (i.map Id.text).getD ""

/-! ### Lines -/

def message (mark text : String) : List String := ["", s!"  {mark} {text}", ""]

/-- A message that something was done. -/
def success (text : String) : List String := message "✓" text

/-- A message that there is nothing. -/
def note (text : String) : List String := message "i" text

/-- A table between two empty lines. -/
def tableLines (titles : List String) (rows : List (List String)) : List String :=
  "" :: (Text.Table.mk titles rows).lines ++ [""]

/-! ### The directory -/

/-- The names of the things whose identifiers are in a list. -/
def namesIn {α : Type} {kind : Kind} (id : α → Id kind) (name : α → String) (ids : List (Id kind))
    (all : List α) : String :=
  Text.joinWith ", " ((all.filter fun a => ids.contains (id a)).map name)

/-- The users and the roles they hold. -/
def userLines (roles : List Role) (users : List User) : List String :=
  tableLines ["Username", "Name", "Roles", "Active", "ID"] <| users.map fun u =>
    [u.username, u.fullName, namesIn Role.id Role.name u.roleIds roles,
     if u.isActive then "yes" else "no", u.id.text]

/-- The roles and the permissions they grant. -/
def roleLines (permissions : List Permission) (roles : List Role) : List String :=
  tableLines ["Name", "Permissions", "Description", "ID"] <| roles.map fun r =>
    [r.name, namesIn Permission.id Permission.name r.permissionIds permissions, r.description.getD "",
     r.id.text]

/-- The permissions. -/
def permissionLines (permissions : List Permission) : List String :=
  tableLines ["Name", "Resource", "Action", "ID"] <| permissions.map fun p =>
    [p.name, p.resource, p.action, p.id.text]

/-- A token, which is shown once. -/
def tokenLines (username token : String) : List String :=
  ["", s!"  🔑 API token for '{username}' (save this -- it won't be shown again):", "", "  " ++ token, ""]

/-! ### Workflows -/

/-- A new workflow. -/
def createdLines (w : Workflow) : List String :=
  let count := w.steps.length
  success (s!"Workflow '{w.name}' created with {count} step" ++ plural "s" count) ++
    ["  ID:  " ++ w.id.text, ""]

/-- The workflows. -/
def workflowsLines (ws : List Workflow) : List String :=
  if ws.isEmpty then
    note "No workflows found. Create one with: signoff workflow create --file <definition.yaml>"
  else
    tableLines ["Name", "Status", "Steps", "Created", "ID"] <| ws.map fun w =>
      [w.name, activeText w.isActive, toString w.steps.length, minuteOf w.createdAt, w.id.text]

/-- The row of a step. -/
def stepRow (s : Step) : List String :=
  [toString s.order, s.name, idText s.role, idText s.permission,
   if s.hasDeadline then s!"{s.hours}h" else "-"]

/-- The row of a rule. -/
def ruleRow (r : Rule) : List String :=
  [toString r.fromStep, r.outcome,
   match r.toStep with
   | some order => toString order
   | none => endingText r.ending,
   ((r.condition.map fun c => c.json.compact)).getD ""]

/-- A workflow with its steps and rules. -/
def workflowLines (w : Workflow) : List String :=
  "" :: ("  " ++ w.name) :: w.description.toList.map ("  " ++ ·) ++
    ["", "  Status:  " ++ activeText w.isActive, "  ID:      " ++ w.id.text, "", "  ── Steps ──"] ++
    (Text.Table.mk ["#", "Name", "Role", "Permission", "SLA"] (w.steps.map stepRow)).lines ++
    ["", "  ── Transitions ──"] ++
    (Text.Table.mk ["From", "Outcome", "To", "Condition"] (w.rules.map ruleRow)).lines ++ [""]

/-! ### Requests -/

/-- The row of a step of a request. -/
def stepViewRow (s : StepView) : List String :=
  [toString s.step.order, s.step.name, stepStatusText s.step.status, idText s.step.actedBy,
   deadlineText "breached" s.isLate s.step.deadline]

/-- A request with its steps. -/
def requestLines (v : RequestView) : List String :=
  ["", s!"  {v.workflowName} {v.id.text}", "", "  Status:   " ++ statusText v.status,
   s!"  Version:  {v.version}", "  Data:     " ++ v.payload.compact, "", "  ── Steps ──"] ++
    (Text.Table.mk ["#", "Step", "Status", "Decided by", "Deadline"] (v.steps.map stepViewRow)).lines ++
    [""]

/-- The requests. -/
def requestsLines (vs : List RequestView) : List String :=
  if vs.isEmpty then note "No requests found."
  else
    tableLines ["ID", "Workflow", "Status", "Step", "Created"] <| vs.map fun v =>
      [v.id.text, v.workflowName, statusText v.status, ((v.currentOrder.map toString)).getD "-",
       minuteOf v.createdAt]

/-- The tasks of somebody. -/
def taskLines (username : String) (tasks : List Task) : List String :=
  if tasks.isEmpty then note s!"Nothing waiting on {username}"
  else
    let rows := tasks.map fun t =>
      [t.requestId.text, t.workflowName, s!"{t.order}. {t.stepName}",
       deadlineText "overdue" t.isLate t.deadline]
    tableLines ["Request", "Workflow", "Step", "Deadline"] rows ++
      [s!"  {tasks.length} task" ++ plural "s" tasks.length, ""]

/-! ### Looking after it all -/

/-- The entries of the audit log. -/
def auditLines (entries : List AuditEntry) : List String :=
  if entries.isEmpty then note "No audit entries."
  else
    tableLines ["When", "Action", "Resource", "Actor", "Details"] <| entries.map fun e =>
      [secondOf e.createdAt, e.action.label, s!"{e.resourceType} {e.resourceId}",
       (e.actor.map Id.text).getD "system", (e.details.map Json.compact).getD ""]

/-- Counts over everything. -/
structure Totals where
  version : String
  directory : String
  users : Nat
  workflows : Nat
  requests : Dashboard
  breaches : Nat

/-- Counts as a JSON value. -/
def Totals.json (t : Totals) : Json :=
  .object
    [("data_dir", .text t.directory), ("requests", t.requests.json),
     ("sla_breaches", Json.ofNat t.breaches), ("users", Json.ofNat t.users),
     ("version", .text t.version), ("workflows", Json.ofNat t.workflows)]

/-- The lines of the counts. -/
def Totals.lines (t : Totals) : List String :=
  let d := t.requests
  ["", s!"  ⚡ Signoff v{t.version}", "", "  ── Requests ──", s!"  Active:     {d.active}",
   s!"  Completed:  {d.completed}", s!"  Rejected:   {d.rejected}"] ++
    (if 0 < d.escalated then [s!"  Escalated:  {d.escalated}"] else []) ++
    ["", "  ── Tasks ──", s!"  Pending:    {d.pending}", s!"  Overdue:    {d.overdue}",
     s!"  Breaches:   {t.breaches}", "", "  ── System ──", s!"  Workflows:  {t.workflows}",
     s!"  Users:      {t.users}", s!"  Data dir:   {t.directory}", ""]

/-- What a sweep found. -/
def sweepLines (r : Sweep.Report) : List String :=
  ["", s!"  ✓ Scanned {r.scanned} open request" ++ plural "s" r.scanned] ++
    (if 0 < r.breaches then [s!"  ! {r.breaches} new SLA breach" ++ plural "es" r.breaches] else []) ++
    (if 0 < r.escalated then [s!"  ▲ {r.escalated} escalated"] else []) ++ [""]

end Approval.CommandLine
