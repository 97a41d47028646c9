import Approval.Request.Form

/-!
# Events

What is announced once a change has been stored: a step waits for somebody, a request is over, or a
step is late.
-/

namespace Approval

open RecordDecoder (required maybe)

/-- An announcement about a request. -/
inductive Event
  | stepAssigned (requestId : RequestId) (workflowName : String) (order : Nat) (stepName : String)
      (role : Option RoleId) (permission : Option PermissionId) (deadline : Option Instant)
  | requestFinished (requestId : RequestId) (workflowName : String) (status : Status)
  | stepLate (requestId : RequestId) (workflowName : String) (order : Nat) (stepName : String)
      (deadline : Instant)

namespace Event

/-- The request that an event is about. -/
def requestId : Event → RequestId
  | .stepAssigned id .. => id
  | .requestFinished id .. => id
  | .stepLate id .. => id

/-- An event as a JSON value. -/
def json : Event → Json
  | .stepAssigned requestId workflowName order stepName role permission deadline =>
    .object
      [("deadline", Json.ofOption Instant.json deadline),
       ("instance_id", requestId.json),
       ("required_permission_id", Json.ofOption Id.json permission),
       ("required_role_id", Json.ofOption Id.json role),
       ("step_name", .text stepName),
       ("step_order", Json.ofNat order),
       ("type", .text "step_assigned"),
       ("workflow_name", .text workflowName)]
  | .requestFinished requestId workflowName status =>
    .object
      [("instance_id", requestId.json),
       ("status", status.json),
       ("type", .text "instance_finished"),
       ("workflow_name", .text workflowName)]
  | .stepLate requestId workflowName order stepName deadline =>
    .object
      [("deadline", deadline.json),
       ("instance_id", requestId.json),
       ("step_name", .text stepName),
       ("step_order", Json.ofNat order),
       ("type", .text "sla_breached"),
       ("workflow_name", .text workflowName)]

/-- The fields of an event with a given tag. -/
def record? : String → Option (RecordDecoder Event)
  | "step_assigned" =>
    some <| .stepAssigned <$> required "instance_id" Id.decode <*>
      required "workflow_name" Decoder.text <*> required "step_order" Decoder.count <*>
      required "step_name" Decoder.text <*> maybe "required_role_id" Id.decode <*>
      maybe "required_permission_id" Id.decode <*> maybe "deadline" Instant.decode
  | "instance_finished" =>
    some <| .requestFinished <$> required "instance_id" Id.decode <*>
      required "workflow_name" Decoder.text <*> required "status" (Decoder.nameInWhole Status.ofLabel?)
  | "sla_breached" =>
    some <| .stepLate <$> required "instance_id" Id.decode <*>
      required "workflow_name" Decoder.text <*> required "step_order" Decoder.count <*>
      required "step_name" Decoder.text <*> required "deadline" Instant.decode
  | _ => none

/-- The fields of the event whose tag a document names. -/
def recordOf (tag : Doc) : Except DecodeFault (RecordDecoder Event) := do
  match record? (← Decoder.text tag) with
  | some r => .ok r
  | none => .error .mismatch

/-- Decode an event: an object whose member `type` names the kind of event, or a list that starts with
that name. The fields are taken in whole first, those that the kind does not have included. -/
def decode : Decoder Event
  | .object members => do
    Decoder.whole (.object members)
    match members.partition (·.1 = some "type") with
    | ([(_, tag)], rest) => (← recordOf tag).decode (.object rest)
    | _ => .error .mismatch
  | .list (tag :: rest) => do
    let r ← recordOf tag
    Decoder.whole (.list rest)
    r.decode (.list rest)
  | .tooDeep => .error .malformed
  | d => .error (Decoder.refuse d)

/-- How many of the events reach a listener that was there from the event number `start` on. The channel
keeps the latest events, as many as the least power of two that is not below `capacity`. -/
def delivered (count capacity start : Nat) : Nat := min (count - start) capacity.nextPowerOfTwo

end Event

end Approval
