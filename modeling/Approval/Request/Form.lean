import Approval.Request.View
import Approval.Workflow.Form

/-!
# Requests in JSON

How requests, their steps and the views of them are written as JSON and decoded.
-/

namespace Approval

open RecordDecoder (required maybe orElse orNone)

def Status.json (s : Status) : Json := .text s.label

def Status.decode : Decoder Status := Decoder.name Status.ofLabel?

def StepStatus.json (s : StepStatus) : Json := .text s.label

/-- Decode a step status; every label is one. -/
def StepStatus.decode : Decoder StepStatus := fun d => StepStatus.ofLabel <$> Decoder.text d

def decodeVersion : Decoder Int := Decoder.int (-Int.pow 2 63) (Int.pow 2 63 - 1)

def decodeTally : Decoder Nat := Decoder.natBelow (Nat.pow 2 64)

/-- The record of a step as a JSON value. -/
def StepRecord.json (s : StepRecord) : Json :=
  .object
    [("acted_by", Json.ofOption Id.json s.actedBy),
     ("completed_at", Json.ofOption Instant.json s.completedAt),
     ("deadline", Json.ofOption Instant.json s.deadline),
     ("note", Json.ofOption id s.note),
     ("outcome", Json.ofOption .text s.outcome),
     ("started_at", s.startedAt.json),
     ("status", s.status.json),
     ("step_name", .text s.name),
     ("step_order", Json.ofNat s.order)]

/-- The fields of the record of a step. -/
def StepRecord.record : RecordDecoder StepRecord :=
  StepRecord.mk <$> required "step_order" Decoder.count <*> required "step_name" Decoder.text <*>
    required "status" StepStatus.decode <*> required "started_at" Instant.decode <*>
    maybe "deadline" Instant.decode <*> maybe "completed_at" Instant.decode <*>
    maybe "outcome" Decoder.text <*> maybe "note" Decoder.json <*> maybe "acted_by" Id.decode

def StepRecord.decode : Decoder StepRecord := StepRecord.record.decode

/-- A request as a JSON value. -/
def Request.json (r : Request) : Json :=
  .object
    [("completed_at", Json.ofOption Instant.json r.completedAt),
     ("created_at", r.createdAt.json),
     ("definition_id", r.workflowId.json),
     ("id", r.id.json),
     ("payload", r.payload),
     ("requester_id", r.requester.json),
     ("snapshot", r.plan.json),
     ("status", r.status.json),
     ("steps", .array (r.steps.map StepRecord.json)),
     ("updated_at", r.updatedAt.json),
     ("version", Json.ofInt r.version),
     ("workflow_name", .text r.workflowName)]

/-- Decode a request. -/
def Request.decode : Decoder Request :=
  (Request.mk <$> required "id" Id.decode <*> required "definition_id" Id.decode <*>
    required "workflow_name" Decoder.text <*> required "requester_id" Id.decode <*>
    required "payload" Decoder.json <*> required "status" Status.decode <*>
    required "version" decodeVersion <*> required "snapshot" Plan.decode <*>
    required "steps" (Decoder.list StepRecord.decode) <*> required "created_at" Instant.decode <*>
    required "updated_at" Instant.decode <*> maybe "completed_at" Instant.decode).decode

/-- The view of a step as a JSON value. -/
def StepView.json (s : StepView) : Json :=
  .object
    [("acted_by", Json.ofOption Id.json s.step.actedBy),
     ("completed_at", Json.ofOption Instant.json s.step.completedAt),
     ("deadline", Json.ofOption Instant.json s.step.deadline),
     ("is_sla_breached", .bool s.isLate),
     ("note", Json.ofOption id s.step.note),
     ("outcome", Json.ofOption .text s.step.outcome),
     ("started_at", s.step.startedAt.json),
     ("status", s.step.status.json),
     ("step_name", .text s.step.name),
     ("step_order", Json.ofNat s.step.order)]

/-- Decode the view of a step. -/
def StepView.decode : Decoder StepView :=
  (StepView.mk <$> StepRecord.record <*> required "is_sla_breached" Decoder.bool).decode

/-- The view of a request as a JSON value. -/
def RequestView.json (v : RequestView) : Json :=
  .object
    [("completed_at", Json.ofOption Instant.json v.completedAt),
     ("created_at", v.createdAt.json),
     ("current_step_order", Json.ofOption Json.ofNat v.currentOrder),
     ("id", v.id.json),
     ("request_data", v.payload),
     ("requester_id", v.requester.json),
     ("status", v.status.json),
     ("steps", .array (v.steps.map StepView.json)),
     ("updated_at", v.updatedAt.json),
     ("version", Json.ofInt v.version),
     ("workflow_id", v.workflowId.json),
     ("workflow_name", .text v.workflowName)]

/-- Decode the view of a request. -/
def RequestView.decode : Decoder RequestView :=
  (RequestView.mk <$> required "id" Id.decode <*> required "workflow_id" Id.decode <*>
    required "workflow_name" Decoder.text <*> required "requester_id" Id.decode <*>
    required "request_data" Decoder.json <*> required "status" Status.decode <*>
    required "version" decodeVersion <*> maybe "current_step_order" Decoder.count <*>
    required "steps" (Decoder.list StepView.decode) <*> required "created_at" Instant.decode <*>
    required "updated_at" Instant.decode <*> maybe "completed_at" Instant.decode).decode

/-- A task as a JSON value. -/
def Task.json (t : Task) : Json :=
  .object
    [("created_at", t.createdAt.json),
     ("deadline", Json.ofOption Instant.json t.deadline),
     ("is_sla_breached", .bool t.isLate),
     ("request_data", t.payload),
     ("request_id", t.requestId.json),
     ("step_description", Json.ofOption .text t.stepDescription),
     ("step_name", .text t.stepName),
     ("step_order", Json.ofNat t.order),
     ("workflow_name", .text t.workflowName)]

/-- Decode a task. -/
def Task.decode : Decoder Task :=
  (Task.mk <$> required "request_id" Id.decode <*> required "workflow_name" Decoder.text <*>
    required "step_order" Decoder.count <*> required "step_name" Decoder.text <*>
    maybe "step_description" Decoder.text <*> maybe "deadline" Instant.decode <*>
    required "is_sla_breached" Decoder.bool <*> required "request_data" Decoder.json <*>
    required "created_at" Instant.decode).decode

/-- A breach as a JSON value. -/
def Breach.json (b : Breach) : Json :=
  .object
    [("deadline", b.deadline.json),
     ("detected_at", b.detectedAt.json),
     ("instance_id", b.requestId.json),
     ("step_index", Json.ofNat b.position),
     ("step_order", Json.ofNat b.order)]

/-- Decode a breach. -/
def Breach.decode : Decoder Breach :=
  (Breach.mk <$> required "instance_id" Id.decode <*> required "step_index" Decoder.count <*>
    required "step_order" Decoder.count <*> required "deadline" Instant.decode <*>
    required "detected_at" Instant.decode).decode

/-- A start form as a JSON value. -/
def StartForm.json (f : StartForm) : Json :=
  .object [("request_data", Json.ofOption id f.payload), ("workflow_id", f.workflowId.json)]

/-- Decode a start form. -/
def StartForm.decode : Decoder StartForm :=
  (StartForm.mk <$> required "workflow_id" Id.decode <*> orNone "request_data" Decoder.json).decode

/-- The counts of a dashboard as a JSON value. -/
def Dashboard.json (d : Dashboard) : Json :=
  .object
    [("active", Json.ofNat d.active),
     ("completed", Json.ofNat d.completed),
     ("escalated", Json.ofNat d.escalated),
     ("overdue", Json.ofNat d.overdue),
     ("pending", Json.ofNat d.pending),
     ("rejected", Json.ofNat d.rejected)]

/-- Decode the counts of a dashboard. -/
def Dashboard.decode : Decoder Dashboard :=
  (Dashboard.mk <$> required "active" decodeTally <*> required "pending" decodeTally <*>
    required "completed" decodeTally <*> required "rejected" decodeTally <*>
    required "escalated" decodeTally <*> required "overdue" decodeTally).decode

end Approval
