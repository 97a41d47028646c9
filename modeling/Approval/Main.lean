import Approval.CommandLine.Journal
import Std.Time.DateTime.Timestamp

/-!
# The program

Runs the command of a command line on the store that a data directory keeps.
-/

open Approval Approval.CommandLine

/-- The data directory: the one that the environment names, or one below the home directory. -/
def dataDirectory : IO String := do
  match ← IO.getEnv "SIGNOFF_DATA_DIR" with
  | some path => return path
  | none =>
    match ← IO.getEnv "HOME" with
    | some home => return DataDirectory.file home ".signoff"
    | none => return ".signoff"

/-- What a file holds, if it can be read. -/
def contents? (path : String) : IO (Option String) := do
  try return some (← IO.FS.readFile path)
  catch _ => return none

/-- The point of time. -/
def clock : IO Instant := do
  let n := (← Std.Time.Timestamp.now).toNanosecondsSinceUnixEpoch.val
  return (Instant.ofParts? (n / 1000000000) (n % 1000000000).toNat).getD default

/-- What is said about a command line without meaning. -/
def usageText : UsageFault → String
  | .helpWanted | .nothingGiven =>
    "usage: " ++ program.name ++ " [options] <" ++ Text.joinWith "|" (program.members.map (·.name)) ++ ">"
  | .versionWanted => program.name ++ " " ++ version
  | .commandMissing => "a command is missing"
  | .unknownCommand word => s!"unrecognized command '{word}'"
  | .unknownArgument word => s!"unexpected argument '{word}'"
  | .argumentMissing => "an argument is missing"
  | .valueMissing name => s!"'{name}' has no value"
  | .badChoice name value => s!"'{value}' is not possible for '{name}'"
  | .badNumber name value => s!"'{value}' is not a number for '{name}'"
  | .repeated name => s!"'{name}' is given several times"
  | .unneededValue name => s!"'{name}' takes no value"

/-- Run the command of an entry on what the data directory keeps, and keep what it changes. -/
def runIn (directory : String) (i : Invocation) (words : List String) : IO UInt32 := do
  IO.FS.createDirAll directory
  let settings := Settings.ofFile (← contents? (DataDirectory.settingsFile directory))
  let path := DataDirectory.storeFile directory
  let journal := (← contents? path).getD ""
  let document ← match i.command.path? with
    | some file => contents? file
    | none => pure none
  let entry : JournalEntry :=
    { now := ← clock, settings, words, actor := ← IO.getEnv "SIGNOFF_USER", document }
  let (result, _) := entry.run directory { store := replay directory journal }
  if i.command.changes then IO.FS.writeFile path (journal ++ entry.json.compact ++ "\n")
  match result with
  | .ok output =>
    IO.print output.text
    return 0
  | .error fault =>
    IO.eprintln ("Error: " ++ fault.message)
    return 1

/-- Run the command of a command line. -/
def main (words : List String) : IO UInt32 := do
  match Invocation.ofWords words with
  | .ok i => runIn (← dataDirectory) i words
  | .error .helpWanted =>
    IO.println (usageText .helpWanted)
    return 0
  | .error .versionWanted =>
    IO.println (usageText .versionWanted)
    return 0
  | .error fault =>
    IO.eprintln (usageText fault)
    return 2
