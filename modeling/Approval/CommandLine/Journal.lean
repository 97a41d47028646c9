import Approval.CommandLine.Run

/-!
# The journal

Commands that change the store are written down with all that they depend on, so that the store is what
comes of running them again.
-/

namespace Approval.CommandLine

open RecordDecoder (required maybe)

variable [Supply]

/-- Whether a command may change the store. -/
def Command.changes : Command → Bool
  | .directory (.createUser _) | .directory (.issueToken ..) | .directory (.assign ..)
  | .directory (.createRole _) | .directory (.grant ..) | .directory (.createPermission _)
  | .workflow (.create _) | .workflow (.remove _) | .workflow (.setActive ..)
  | .request (.start ..) | .request (.process ..) | .sweep => true
  | _ => false

/-- The file that a command reads. -/
def Command.path? : Command → Option String
  | .workflow (.create path) => some path
  | _ => none

/-- A command that was run: when, under which settings, in whose name, and what its file held. -/
structure JournalEntry where
  now : Instant
  settings : Settings
  words : List String
  actor : Option String
  document : Option String

namespace JournalEntry

/-- An entry as a JSON value. -/
def json (e : JournalEntry) : Json :=
  .object
    [("actor", Json.ofOption .text e.actor), ("document", Json.ofOption .text e.document),
     ("now", e.now.json), ("settings", e.settings.json), ("words", .array (e.words.map .text))]

/-- Decode an entry. -/
def decode : Decoder JournalEntry :=
  (JournalEntry.mk <$> required "now" Instant.decode <*> required "settings" Settings.decode <*>
    required "words" (Decoder.list Decoder.text) <*> maybe "actor" Decoder.text <*>
    maybe "document" Decoder.text).decode

/-- Run the command of an entry. -/
def run (directory : String) (e : JournalEntry) (w : World) : Except Fault Output × World :=
  match Invocation.ofWords e.words with
  | .error _ => (.ok (.lines []), w)
  | .ok i =>
    let around : Surroundings :=
      { directory, file? := fun path => if i.command.path? = some path then e.document else none }
    ({ i with actor := i.actor <|> e.actor } : Invocation).run around { now := e.now, settings := e.settings } w

end JournalEntry

/-- The store after the commands of a journal, of which lines that are no entries are left out. -/
def replay (directory : String) (journal : String) : Store :=
  let entries := (Text.split '\n' journal).filterMap fun line =>
    match JournalEntry.decode.decodeText line with
    | .ok e => some e
    | .error _ => none
  (entries.foldl (fun (w : World) e => (e.run directory w).2) {}).store

end Approval.CommandLine
