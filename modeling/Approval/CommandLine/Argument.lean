import Approval.Json.Writer
import Approval.Request.Decision
import Approval.Service.Directory
import Approval.Text.Case

/-!
# Around commands

What a command prints, why it is not carried out, and how its arguments are read.
-/

namespace Approval.CommandLine

open Work

/-- Why a command is not carried out. -/
inductive Fault
  | failure (cause : Failure)
  | nobodyActs
  | badId (noun text : String)
  | badStatus (label : String)
  | notJson (option : String)
  | notObject (option : String)
  | unreadable (path : String)
  | notHere (command : String)

/-- What is said about a command that is not carried out. -/
def Fault.message : Fault → String
  | .failure cause => cause.message
  | .nobodyActs => "this command needs an acting user; pass --as <username> or set SIGNOFF_USER"
  | .badId noun text => s!"invalid {noun} id '{text}'"
  | .badStatus label => Status.unknownMessage label
  | .notJson option => s!"--{option} is not valid JSON"
  | .notObject option => s!"--{option} must be a JSON object"
  | .unreadable path => s!"failed to read {path}"
  | .notHere command => s!"there is no '{command}' here"

/-- What is around a command: the data directory, and the files that can be read. -/
structure Surroundings where
  directory : String
  file? : String → Option String

/-- What a command prints: a JSON value, on one line or over several ones, or lines of text. -/
inductive Output
  | line (v : Json)
  | pretty (v : Json)
  | lines (ls : List String)

/-- The text that is printed. -/
def Output.text : Output → String
  | .line v => v.compact ++ "\n"
  | .pretty v => v.pretty ++ "\n"
  | .lines ls => Text.joinWith "" (ls.map (· ++ "\n"))

abbrev Running := Work Fault

instance : MonadLift Operation Running := ⟨mapError .failure⟩

/-! ### Arguments -/

/-- The actor in whose name a command is run. -/
def actorOf (name : Option String) : Running Actor :=
  match name with
  | some name => Directory.actorNamed name
  | none => fail .nobodyActs

/-- The identifier that a text is. -/
def idOf {kind : Kind} (noun text : String) : Except Fault (Id kind) :=
  match Id.parse? text with
  | some id => .ok id
  | none => .error (.badId noun text)

/-- The object that the value of an option says in JSON. -/
def objectOf (option text : String) : Except Fault Json :=
  match Json.read? text with
  | none => .error (.notJson option)
  | some (.object members) => .ok (.object members)
  | some _ => .error (.notObject option)

/-- The decision that the arguments of a command make. The outcome is written in capitals, and a context
comes before a comment. -/
def decisionOf (outcome : String) (comment context : Option String) (version : Option Int) :
    Except Fault Decision := do
  let context ← match context, comment with
    | some text, _ => some <$> objectOf "context" text
    | none, some comment => .ok (some (.object [("comment", .text comment)]))
    | none, none => .ok none
  return { outcome := Text.upper (Text.trim outcome), context, expectedVersion := version }

/-- Print a value in JSON or as lines. -/
def printed (inJson : Bool) (v : Json) (ls : List String) : Output := if inJson then .pretty v else .lines ls

end Approval.CommandLine
