import Approval.CommandLine.Argument
import Approval.CommandLine.Command
import Approval.CommandLine.Report
import Approval.DataDirectory
import Approval.Directory.Form
import Approval.Service.Audit
import Approval.Service.Requests
import Approval.Service.Tasks
import Approval.Service.Workflows
import Approval.Version

/-!
# Running commands

A command is run on the store and answers with what is printed. Who runs commands has the store at hand,
so no token is asked for; requests are still started and decided in the name of a user.
-/

namespace Approval.CommandLine

open Work

variable [Supply]

/-- Show a request as it is now. -/
def showNow (inJson : Bool) (r : Request) : Running Output := do
  let v := r.view (← now)
  return printed inJson v.json (requestLines v)

/-- Run a command on the directory. -/
def DirectoryCommand.run (inJson : Bool) : DirectoryCommand → Running Output
  | .createUser d => do
    let u ← Directory.createUser d
    return printed inJson u.json (success s!"User '{u.username}' created ({u.id.text})")
  | .listUsers => do
    let users ← Directory.listUsers
    let roles ← Directory.listRoles
    return printed inJson (.array (users.map User.json)) (userLines roles users)
  | .issueToken username label => do
    let token ← Directory.issueToken username label
    return printed inJson (.object [("token", .text token), ("username", .text username)])
      (tokenLines username token)
  | .assign username role => do
    Directory.assign username role
    return .lines (if inJson then [] else success s!"Role '{role}' assigned to '{username}'")
  | .createRole d => do
    let r ← Directory.createRole d
    return printed inJson r.json (success s!"Role '{r.name}' created ({r.id.text})")
  | .listRoles => do
    let roles ← Directory.listRoles
    let permissions ← Directory.listPermissions
    return printed inJson (.array (roles.map Role.json)) (roleLines permissions roles)
  | .grant role permission => do
    Directory.grant role permission
    return .lines (if inJson then [] else success s!"Granted '{permission}' to role '{role}'")
  | .createPermission d => do
    let p ← Directory.createPermission d
    return printed inJson p.json (success s!"Permission '{p.name}' created ({p.id.text})")
  | .listPermissions => do
    let permissions ← Directory.listPermissions
    return printed inJson (.array (permissions.map Permission.json)) (permissionLines permissions)

/-- Run a command on workflows in the name of a user, if there is one. -/
def WorkflowCommand.run (around : Surroundings) (inJson : Bool) (actor : Option UserId) :
    WorkflowCommand → Running Output
  | .create path =>
    match around.file? path with
    | none => fail (.unreadable path)
    | some document => do
      let d ← mapError .failure (ofResult (Draft.ofDocument document))
      let w ← Workflows.create d actor
      return printed inJson w.json (createdLines w)
  | .list => do
    let ws ← Workflows.list
    return printed inJson (.array (ws.map Workflow.json)) (workflowsLines ws)
  | .view text => do
    let id ← ofResult (idOf "workflow" text)
    let w ← Workflows.get id
    return printed inJson w.json (workflowLines w)
  | .remove text => do
    let id ← ofResult (idOf "workflow" text)
    Workflows.remove id actor
    return if inJson then .line (.object [("deleted", .bool true), ("id", id.json)])
      else .lines (success s!"Workflow {id.text} deleted")
  | .setActive text isActive => do
    let id ← ofResult (idOf "workflow" text)
    let w ← Workflows.setActive id isActive actor
    let word := if isActive then "activated" else "deactivated"
    return printed inJson w.json (success s!"Workflow '{w.name}' {word}")

/-- The user in whose name a command on workflows is run. -/
def userIdOf (name : Option String) : Running (Option UserId) :=
  match name with
  | some name => do
    let u ← Directory.userNamed name
    return some u.id
  | none => return none

/-- Run a command on requests. -/
def RequestCommand.run (name : Option String) (inJson : Bool) : RequestCommand → Running Output
  | .start workflow data => do
    let actor ← actorOf name
    let id ← ofResult (idOf "workflow" workflow)
    let payload ← ofResult ((data.map (objectOf "data")).getD (.ok (.object [])))
    showNow inJson (← Requests.start id actor.userId payload)
  | .view text => do
    let id ← ofResult (idOf "request" text)
    showNow inJson (← Requests.get id)
  | .list status mine limit => do
    let status ← ofResult <| status.mapM fun label =>
      match Status.parse? label with
      | some s => .ok s
      | none => .error (.badStatus label)
    let requester ← if mine then (fun a => some a.userId) <$> actorOf name else pure none
    let rs ← Requests.list { status, requester, limit := some limit }
    let now ← now
    let vs := rs.map (·.view now)
    return printed inJson (.array (vs.map RequestView.json)) (requestsLines vs)
  | .process text outcome comment context version => do
    let d ← ofResult (decisionOf outcome comment context version)
    let actor ← actorOf name
    let id ← ofResult (idOf "request" text)
    showNow inJson (← Requests.process id actor d)
  | .tasks => do
    let actor ← actorOf name
    let tasks ← Tasks.of actor
    return printed inJson (.array (tasks.map Task.json)) (taskLines actor.username tasks)

/-- Count everything. -/
def totals (directory : String) : Running Totals := do
  let requests ← Tasks.dashboard
  let workflows ← Workflows.count
  let users ← Directory.countUsers
  let breaches ← Requests.breachCount
  return { version, directory, users, workflows, requests, breaches }

/-- Run a command, in the name of a user if there is one. -/
def Command.run (around : Surroundings) (name : Option String) (inJson : Bool) : Command → Running Output
  | .serve .. => fail (.notHere "serve")
  | .complete _ => fail (.notHere "completions")
  | .migrate =>
    let path := DataDirectory.storeFile around.directory
    return if inJson then .line (.object [("database", .text path), ("migrated", .bool true)])
      else .lines (success s!"Schema up to date at {path}")
  | .directory command => command.run inJson
  | .workflow command => do
    let actor ← userIdOf name
    command.run around inJson actor
  | .request command => command.run name inJson
  | .audit id limit => do
    let entries ← match id with
      | some text => do
        let id ← ofResult (idOf "request" text)
        (Audit.ofRequest id : Operation _)
      | none => (Audit.latest limit : Operation _)
    return printed inJson (.array (entries.map AuditEntry.json)) (auditLines entries)
  | .stats => do
    let t ← totals around.directory
    return printed inJson t.json t.lines
  | .sweep => do
    let r ← Sweep.once
    return printed inJson r.json (sweepLines r)

/-- Run a command as it is called. -/
def Invocation.run (around : Surroundings) (i : Invocation) : Running Output :=
  i.command.run around i.actor i.inJson

end Approval.CommandLine
