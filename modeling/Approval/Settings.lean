import Approval.Toml.Document
import Approval.Wire.Record

/-!
# Settings

Where the server listens, how late steps are looked for, and who is an administrator. Each setting has
a default.
-/

namespace Approval

open RecordDecoder (orElse)

/-- The address that the server listens on. -/
structure ServerSettings where
  host : String := "127.0.0.1"
  port : Nat := 3000

/-- How late steps are looked for: the seconds between two sweeps, none if zero, and whether a request
with a late step is marked as escalated. -/
structure SweepSettings where
  interval : Nat := 300
  escalate : Bool := false

/-- The name of the role whose holders are administrators, in any case of the ASCII letters. -/
structure AccessSettings where
  adminRole : String := "admin"

/-- All settings. -/
structure Settings where
  server : ServerSettings := {}
  sweep : SweepSettings := {}
  access : AccessSettings := {}

/-- The fields of the server settings. -/
def ServerSettings.record : RecordDecoder ServerSettings :=
  ServerSettings.mk <$> orElse "host" Decoder.text "127.0.0.1" <*>
    orElse "port" (Decoder.natBelow (Nat.pow 2 16)) 3000

/-- The fields of the sweep settings. -/
def SweepSettings.record : RecordDecoder SweepSettings :=
  SweepSettings.mk <$> orElse "sweep_interval_secs" (Decoder.natBelow (Nat.pow 2 64)) 300 <*>
    orElse "escalate_instances" Decoder.bool false

/-- The fields of the access settings. -/
def AccessSettings.record : RecordDecoder AccessSettings :=
  AccessSettings.mk <$> orElse "admin_role" Decoder.text "admin"

/-- The server settings as a JSON value. -/
def ServerSettings.json (s : ServerSettings) : Json :=
  .object [("host", .text s.host), ("port", Json.ofNat s.port)]

/-- The sweep settings as a JSON value. -/
def SweepSettings.json (s : SweepSettings) : Json :=
  .object
    [("escalate_instances", .bool s.escalate), ("sweep_interval_secs", Json.ofNat s.interval)]

def AccessSettings.json (s : AccessSettings) : Json := .object [("admin_role", .text s.adminRole)]

namespace Settings

instance : Inhabited Settings := ⟨{}⟩

/-- Settings as a JSON value. -/
def json (s : Settings) : Json :=
  .object [("auth", s.access.json), ("server", s.server.json), ("sla", s.sweep.json)]

/-- Decode settings. -/
def decode : Decoder Settings :=
  (Settings.mk <$> orElse "server" ServerSettings.record.decode {} <*>
    orElse "sla" SweepSettings.record.decode {} <*>
    orElse "auth" AccessSettings.record.decode {}).decode

/-- Decode settings, where a list may be longer than the settings that it stands for. -/
def decodeLoosely : Decoder Settings :=
  (Settings.mk <$> orElse "server" ServerSettings.record.decodeLoosely {} <*>
    orElse "sla" SweepSettings.record.decodeLoosely {} <*>
    orElse "auth" AccessSettings.record.decodeLoosely {}).decodeLoosely

/-- The settings of a file. Without a file, or with one that does not make sense, all have their
defaults. -/
def ofFile (text : Option String) : Settings :=
  match text.bind Toml.read? with
  | none => {}
  | some d =>
    match decodeLoosely d with
    | .ok s => s
    | .error _ => {}

end Settings

end Approval
