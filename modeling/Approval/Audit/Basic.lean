import Approval.Id

/-!
# The audit log

Entries that say who did what to which thing, when, and with which details.
-/

namespace Approval

open RecordDecoder (required maybe)

/-- What an audit entry records. -/
inductive AuditAction
  | workflowCreated
  | workflowActivated
  | workflowDeactivated
  | workflowDeleted
  | requestStarted
  | stepDecided
  | breachDetected
  deriving DecidableEq

namespace AuditAction

/-- The label of an action. -/
def label : AuditAction → String
  | .workflowCreated => "DEFINITION_CREATED"
  | .workflowActivated => "DEFINITION_ACTIVATED"
  | .workflowDeactivated => "DEFINITION_DEACTIVATED"
  | .workflowDeleted => "DEFINITION_DELETED"
  | .requestStarted => "INSTANCE_STARTED"
  | .stepDecided => "STEP_DECIDED"
  | .breachDetected => "SLA_BREACH_DETECTED"

/-- All actions. -/
def all : List AuditAction :=
  [.workflowCreated, .workflowActivated, .workflowDeactivated, .workflowDeleted, .requestStarted,
   .stepDecided, .breachDetected]

def ofLabel? (s : String) : Option AuditAction := all.find? (·.label = s)

/-- What is said about a text that names no action. -/
def unknownMessage (s : String) : String := s!"invalid audit action: '{s}'"

def json (a : AuditAction) : Json := .text a.label

def decode : Decoder AuditAction := Decoder.name ofLabel?

end AuditAction

/-- An entry before it is stored. Nobody is its actor when it comes from a sweep. -/
structure AuditNote where
  requestId : Option RequestId
  action : AuditAction
  actor : Option UserId
  resourceType : String
  resourceId : String
  details : Option Json
  createdAt : Instant

/-- A stored entry of the audit log. -/
structure AuditEntry extends AuditNote where
  id : AuditId

/-- The members of a note as JSON, with further ones put where they belong. -/
def AuditNote.members (n : AuditNote) (id : List (String × Json)) : List (String × Json) :=
  [("action", n.action.json),
   ("actor_id", Json.ofOption Id.json n.actor),
   ("created_at", n.createdAt.json),
   ("details", Json.ofOption (fun v => v) n.details)] ++ id ++
  [("instance_id", Json.ofOption Id.json n.requestId),
   ("resource_id", .text n.resourceId),
   ("resource_type", .text n.resourceType)]

/-- An entry without its identifier as a JSON value. -/
def AuditNote.json (n : AuditNote) : Json := .object (n.members [])

def AuditEntry.json (e : AuditEntry) : Json := .object (e.members [("id", e.id.json)])

/-- Decode an entry. -/
def AuditEntry.decode : Decoder AuditEntry :=
  ((fun id requestId action actor resourceType resourceId details createdAt =>
      { id, requestId, action, actor, resourceType, resourceId, details, createdAt }) <$>
    required "id" Id.decode <*> maybe "instance_id" Id.decode <*>
    required "action" AuditAction.decode <*> maybe "actor_id" Id.decode <*>
    required "resource_type" Decoder.text <*> required "resource_id" Decoder.text <*>
    maybe "details" Decoder.json <*> required "created_at" Instant.decode).decode

end Approval
