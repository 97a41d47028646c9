import Approval.Text.Numeral

/-!
# Grammars of command lines

A command has options and operands, or it is a group of commands. An option has a long name after two
hyphens and perhaps a letter after one; it stands alone or takes a value. Operands must all be given.
-/

namespace Approval.CommandLine

/-- Why a command line has no meaning. -/
inductive UsageFault
  | helpWanted
  | versionWanted
  | nothingGiven
  | commandMissing
  | unknownCommand (word : String)
  | unknownArgument (word : String)
  | argumentMissing
  | valueMissing (name : String)
  | badChoice (name value : String)
  | badNumber (name value : String)
  | repeated (name : String)
  | unneededValue (name : String)
  deriving DecidableEq

/-- What a value may be. -/
inductive ValueKind
  | text
  | path
  | whole (low high : Int)
  | choice (values : List String)

/-- Check a value of something with a name. -/
def ValueKind.check (name value : String) : ValueKind → Except UsageFault Unit
  | .text => .ok ()
  | .path => if value.isEmpty then .error (.valueMissing name) else .ok ()
  | .whole low high =>
    if (Text.intIn? low high value).isSome then .ok () else .error (.badNumber name value)
  | .choice values => if values.contains value then .ok () else .error (.badChoice name value)

/-- A place for a value: its name, what the value may be, and whether there may be several. -/
structure Slot where
  name : String
  kind : ValueKind
  isMany : Bool

/-- What an option does: it makes a mark, which may stand once or often; it fills a slot; or it asks for
help or for the version. -/
inductive OptionAction
  | mark (isMany : Bool)
  | fill (kind : ValueKind) (isMany : Bool)
  | help
  | version

/-- An option. -/
structure OptionForm where
  name : String
  letter : Option Char
  action : OptionAction
  isRequired : Bool

/-- A command: its names, of which the first is the usual one, its options, its operands and its
members. -/
inductive CommandForm
  | mk (names : List String) (options : List OptionForm) (operands : List Slot)
      (members : List CommandForm)

namespace CommandForm

/-- The names of a command. -/
def names : CommandForm → List String
  | mk names _ _ _ => names

/-- The options of a command. -/
def options : CommandForm → List OptionForm
  | mk _ options _ _ => options

/-- The operands of a command. -/
def operands : CommandForm → List Slot
  | mk _ _ operands _ => operands

/-- The members of a group. -/
def members : CommandForm → List CommandForm
  | mk _ _ _ members => members

def name (f : CommandForm) : String := f.names.headD ""

def isGroup (f : CommandForm) : Bool := !f.members.isEmpty

/-- The member that has a name. -/
def member? (word : String) (f : CommandForm) : Option CommandForm :=
  f.members.find? (·.names.contains word)

def optionNamed (name : String) (f : CommandForm) : Option OptionForm := f.options.find? (·.name = name)

/-- The option that has a letter. -/
def optionLettered (letter : Char) (f : CommandForm) : Option OptionForm :=
  f.options.find? (·.letter = some letter)

/-- What comes of asking a group for help about some words. -/
def helpOn (f : CommandForm) : List String → UsageFault
  | [] => .helpWanted
  | word :: rest =>
    match f.member? word with
    | some member => helpOn member rest
    | none => if f.isGroup && word = "help" && rest.isEmpty then .helpWanted else .unknownCommand word

end CommandForm

end Approval.CommandLine
