import Approval.CommandLine.Reading
import Approval.Directory.Basic

/-!
# Commands

The commands of the program, and how a command line is one of them.
-/

namespace Approval.CommandLine

/-- A command on users, roles and permissions. -/
inductive DirectoryCommand
  | createUser (draft : UserDraft)
  | listUsers
  | issueToken (username label : String)
  | assign (username role : String)
  | createRole (draft : RoleDraft)
  | listRoles
  | grant (role permission : String)
  | createPermission (draft : PermissionDraft)
  | listPermissions

/-- A command on workflows; identifiers are still texts. -/
inductive WorkflowCommand
  | create (path : String)
  | list
  | view (id : String)
  | remove (id : String)
  | setActive (id : String) (isActive : Bool)

/-- A command on requests; identifiers and JSON values are still texts. -/
inductive RequestCommand
  | start (workflow : String) (data : Option String)
  | view (id : String)
  | list (status : Option String) (mine : Bool) (limit : Int)
  | process (id outcome : String) (comment context : Option String) (version : Option Int)
  | tasks

/-- A command. -/
inductive Command
  | serve (host : Option String) (port : Option Int)
  | complete (shell : String)
  | migrate
  | directory (command : DirectoryCommand)
  | workflow (command : WorkflowCommand)
  | request (command : RequestCommand)
  | audit (request : Option String) (limit : Int)
  | stats
  | sweep

/-- A command as it is called: who acts, and whether it answers in JSON. -/
structure Invocation where
  command : Command
  actor : Option String
  inJson : Bool

/-! ### The grammar -/

def word : ValueKind := .whole (-Int.pow 2 63) (Int.pow 2 63 - 1)

/-- A mark that may be made once. -/
def mark (name : String) : OptionForm := ⟨name, none, .mark false, false⟩

def valued (name : String) (kind : ValueKind) : OptionForm := ⟨name, none, .fill kind false, false⟩

def texted (name : String) : OptionForm := valued name .text

/-- An option that takes a text and may be given several times. -/
def repeatable (name : String) : OptionForm := ⟨name, none, .fill .text true, false⟩

def OptionForm.required (o : OptionForm) : OptionForm := { o with isRequired := true }

def OptionForm.lettered (letter : Char) (o : OptionForm) : OptionForm := { o with letter := some letter }

/-- The options that every command has. -/
def commonOptions : List OptionForm :=
  [mark "json", mark "quiet", ⟨"verbose", some 'v', .mark true, false⟩,
   valued "log-format" (.choice ["pretty", "json"]), mark "otel", texted "as",
   ⟨"help", some 'h', .help, false⟩]

def versionOption : OptionForm := ⟨"version", some 'V', .version, false⟩

/-- A group of commands. -/
def group (names : List String) (members : List CommandForm) : CommandForm :=
  .mk names (versionOption :: commonOptions) [] members

/-- A command with operands that are texts. -/
def leaf (name : String) (options : List OptionForm) (operands : List String) : CommandForm :=
  .mk [name] (options ++ versionOption :: commonOptions) (operands.map (⟨·, .text, false⟩)) []

/-- Commands on users. -/
def userForm : CommandForm :=
  group ["user"]
    [leaf "create" [texted "full-name", repeatable "role"] ["username"], leaf "list" [] [],
     leaf "token" [texted "label"] ["username"], leaf "assign" [] ["username", "role"]]

/-- Commands on roles. -/
def roleForm : CommandForm :=
  group ["role"]
    [leaf "create" [texted "description", repeatable "permission"] ["name"], leaf "list" [] [],
     leaf "grant" [] ["role", "permission"]]

/-- Commands on permissions. -/
def permissionForm : CommandForm :=
  group ["permission"]
    [leaf "create" [(texted "resource").required, (texted "action").required, texted "description"]
      ["name"],
     leaf "list" [] []]

/-- Commands on workflows. -/
def workflowForm : CommandForm :=
  group ["workflow", "wf"]
    [leaf "create" [((valued "file" .path).lettered 'f').required] [], leaf "list" [] [],
     leaf "show" [] ["id"], leaf "delete" [] ["id"], leaf "activate" [] ["id"],
     leaf "deactivate" [] ["id"]]

/-- Commands on requests. -/
def requestForm : CommandForm :=
  group ["request", "req"]
    [leaf "start" [texted "data"] ["workflow_id"], leaf "show" [] ["id"],
     leaf "list" [texted "status", mark "mine", valued "limit" word] []]

/-- The command that decides a request; its version is that of the request. -/
def processForm : CommandForm :=
  .mk ["process"] ([texted "comment", texted "context", valued "version" word] ++ commonOptions)
    [⟨"id", .text, false⟩, ⟨"outcome", .text, false⟩] []

/-- The shells that a completion can be made for. -/
def shells : List String := ["bash", "elvish", "fish", "powershell", "zsh"]

/-- The command that makes a completion for a shell. -/
def completionForm : CommandForm :=
  .mk ["completions"] (versionOption :: commonOptions) [⟨"shell", .choice shells, false⟩] []

/-- The grammar of the program. -/
def program : CommandForm :=
  group ["signoff"]
    [leaf "serve" [(valued "port" (.whole 0 65535)).lettered 'p', texted "host"] [],
     leaf "migrate" [] [], userForm, roleForm, permissionForm, workflowForm, requestForm, processForm,
     leaf "tasks" [] [], leaf "audit" [texted "request", valued "limit" word] [], leaf "stats" [] [],
     leaf "sweep" [] [], completionForm]

/-! ### From lines to commands -/

/-- How many requests or audit entries are shown unless another number is given. -/
def defaultCount : Int := 50

/-- The command on the directory that a line is. -/
def Line.directoryCommand? (l : Line) : Option DirectoryCommand :=
  match l.words with
  | ["user", "create"] =>
    some (.createUser ⟨l.value "username", l.value? "full-name", l.values "role"⟩)
  | ["user", "list"] => some .listUsers
  | ["user", "token"] => some (.issueToken (l.value "username") ((l.value? "label").getD "cli"))
  | ["user", "assign"] => some (.assign (l.value "username") (l.value "role"))
  | ["role", "create"] =>
    some (.createRole ⟨l.value "name", l.value? "description", l.values "permission"⟩)
  | ["role", "list"] => some .listRoles
  | ["role", "grant"] => some (.grant (l.value "role") (l.value "permission"))
  | ["permission", "create"] =>
    some (.createPermission
      ⟨l.value "name", l.value "resource", l.value "action", l.value? "description"⟩)
  | ["permission", "list"] => some .listPermissions
  | _ => none

/-- The command on workflows that a line is. -/
def Line.workflowCommand? (l : Line) : Option WorkflowCommand :=
  match l.words with
  | ["workflow", "create"] => some (.create (l.value "file"))
  | ["workflow", "list"] => some .list
  | ["workflow", "show"] => some (.view (l.value "id"))
  | ["workflow", "delete"] => some (.remove (l.value "id"))
  | ["workflow", "activate"] => some (.setActive (l.value "id") true)
  | ["workflow", "deactivate"] => some (.setActive (l.value "id") false)
  | _ => none

/-- The command on requests that a line is. -/
def Line.requestCommand? (l : Line) : Option RequestCommand :=
  match l.words with
  | ["request", "start"] => some (.start (l.value "workflow_id") (l.value? "data"))
  | ["request", "show"] => some (.view (l.value "id"))
  | ["request", "list"] =>
    some (.list (l.value? "status") (l.has "mine") ((l.whole? "limit").getD defaultCount))
  | ["process"] =>
    some (.process (l.value "id") (l.value "outcome") (l.value? "comment") (l.value? "context")
      (l.whole? "version"))
  | ["tasks"] => some .tasks
  | _ => none

/-- The command that a line is. -/
def Line.command? (l : Line) : Option Command :=
  match l.words with
  | ["serve"] => some (.serve (l.value? "host") (l.whole? "port"))
  | ["completions"] => some (.complete (l.value "shell"))
  | ["migrate"] => some .migrate
  | ["audit"] => some (.audit (l.value? "request") ((l.whole? "limit").getD defaultCount))
  | ["stats"] => some .stats
  | ["sweep"] => some .sweep
  | _ =>
    (l.directoryCommand?.map .directory <|> l.workflowCommand?.map .workflow) <|>
      l.requestCommand?.map .request

/-- Read the words of a command line. -/
def Invocation.ofWords (words : List String) : Except UsageFault Invocation := do
  let l ← Line.read program words
  match l.command? with
  | some command => return { command, actor := l.value? "as", inJson := l.has "json" }
  | none => .error .commandMissing

end Approval.CommandLine
