import Approval.Workflow.Basic

/-!
# Workflows in JSON

How workflows, drafts and plans are written as JSON and decoded. Members stand in ascending order of
their names.
-/

namespace Approval

open RecordDecoder (required maybe orElse orNone)

def Operator.json (o : Operator) : Json := .text o.sign

def Operator.decode : Decoder Operator := Decoder.name Operator.ofSign?

def Ending.json (e : Ending) : Json := .text e.label

def Ending.decode : Decoder Ending := Decoder.name Ending.ofLabel?

/-- A condition as a JSON value. -/
def Condition.json (c : Condition) : Json :=
  .object [("field", .text c.field), ("operator", c.operator.json), ("value", c.value)]

/-- Decode a condition. -/
def Condition.decode : Decoder Condition :=
  (Condition.mk <$> required "field" Decoder.text <*> orElse "operator" Operator.decode .equal <*>
    orElse "value" Decoder.json .null).decode

/-- A step as a JSON value. -/
def Step.json (s : Step) : Json :=
  .object
    [("description", Json.ofOption .text s.description),
     ("is_conditional", .bool s.isConditional),
     ("name", .text s.name),
     ("required_permission_id", Json.ofOption Id.json s.permission),
     ("required_role_id", Json.ofOption Id.json s.role),
     ("sla_hours", Json.ofNat s.hours),
     ("step_order", Json.ofNat s.order)]

/-- Decode a step. -/
def Step.decode : Decoder Step :=
  (Step.mk <$> required "step_order" Decoder.count <*> required "name" Decoder.text <*>
    orNone "description" Decoder.text <*> orNone "required_role_id" Id.decode <*>
    orNone "required_permission_id" Id.decode <*>
    orElse "sla_hours" Decoder.count 0 <*>
    orElse "is_conditional" Decoder.bool false).decode

/-- A rule as a JSON value. -/
def Rule.json (r : Rule) : Json :=
  .object <|
    Json.optionalMember "condition" Condition.json r.condition ++
    Json.optionalMember "final_status" Ending.json r.ending ++
    [("from_step_order", Json.ofNat r.fromStep),
     ("outcome", .text r.outcome),
     ("to_step_order", Json.ofOption Json.ofNat r.toStep)]

/-- Decode a rule. -/
def Rule.decode : Decoder Rule :=
  (Rule.mk <$> required "from_step_order" Decoder.count <*>
    required "outcome" Decoder.text <*> orNone "to_step_order" Decoder.count <*>
    orNone "condition" Condition.decode <*> orNone "final_status" Ending.decode).decode

/-- A plan as a JSON value. -/
def Plan.json (p : Plan) : Json :=
  .object
    [("steps", .array (p.steps.map Step.json)), ("transitions", .array (p.rules.map Rule.json))]

/-- Decode a plan. -/
def Plan.decode : Decoder Plan :=
  (Plan.mk <$> required "steps" (Decoder.list Step.decode) <*>
    required "transitions" (Decoder.list Rule.decode)).decode

/-- A workflow as a JSON value. -/
def Workflow.json (w : Workflow) : Json :=
  .object
    [("created_at", w.createdAt.json),
     ("created_by", Json.ofOption Id.json w.createdBy),
     ("description", Json.ofOption .text w.description),
     ("id", w.id.json),
     ("is_active", .bool w.isActive),
     ("name", .text w.name),
     ("steps", .array (w.steps.map Step.json)),
     ("transitions", .array (w.rules.map Rule.json))]

/-- Decode a workflow. -/
def Workflow.decode : Decoder Workflow :=
  (Workflow.mk <$> required "id" Id.decode <*> required "name" Decoder.text <*>
    maybe "description" Decoder.text <*> required "is_active" Decoder.bool <*>
    required "steps" (Decoder.list Step.decode) <*> required "transitions" (Decoder.list Rule.decode) <*>
    maybe "created_by" Id.decode <*> required "created_at" Instant.decode).decode

/-- A draft as a JSON value. -/
def Draft.json (d : Draft) : Json :=
  .object
    [("description", Json.ofOption .text d.description),
     ("is_active", Json.ofOption .bool d.isActive),
     ("name", .text d.name),
     ("steps", .array (d.steps.map Step.json)),
     ("transitions", .array (d.rules.map Rule.json))]

/-- Decode a draft. -/
def Draft.decode : Decoder Draft :=
  (Draft.mk <$> required "name" Decoder.text <*> orNone "description" Decoder.text <*>
    orNone "is_active" Decoder.bool <*> required "steps" (Decoder.list Step.decode) <*>
    orElse "transitions" (Decoder.list Rule.decode) []).decode

end Approval
