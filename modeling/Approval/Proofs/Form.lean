import Approval.Audit.Basic
import Approval.Proofs.Directory.Form
import Approval.Proofs.Event.Form
import Approval.Proofs.Json.Text
import Approval.Settings

/-!
# Canonical forms

Whatever is read from JSON text as a value of one of the types, and in whatever way the text spells it, is written
as JSON that reads as the same value and so is written as the same JSON again.
-/

namespace Approval

open Decoder (Settles)
open RecordDecoder (forall_seq_build forall_map_build)

/-! ### Entries and settings -/

lemma AuditAction.settles : Settles AuditAction.decode AuditAction.json 0 := .name fun a => by cases a <;> rfl

lemma AuditEntry.settles : Settles AuditEntry.decode AuditEntry.json 0 :=
  have isObject (e : AuditEntry) : e.json.IsObjectOf ["id", "instance_id", "action", "actor_id", "resource_type",
      "resource_id", "details", "created_at"] :=
    ⟨_, rfl, by simp [AuditNote.members], by simp [AuditNote.members]⟩
  RecordDecoder.settles isObject fun supply _ => by
    simp only [forall_seq_build, forall_map_build]
    intro id h₁ requestId h₂ action h₃ actor h₄ resourceType h₅ resourceId h₆ details h₇ createdAt h₈
    let entry : AuditEntry := { id, requestId, action, actor, resourceType, resourceId, details, createdAt }
    exact (((((((RecordDecoder.Rebuilds.map (v := entry.json) _
      (.required Id.settles supply h₁ rfl)).seq (.maybe Id.settles supply h₂ rfl)).seq
      (.required AuditAction.settles supply h₃ rfl)).seq (.maybe Id.settles supply h₄ rfl)).seq
      (.required .text supply h₅ rfl)).seq (.required .text supply h₆ rfl)).seq (.maybe .json supply h₇ rfl)).seq
      (.required Instant.settles supply h₈ rfl)

lemma ServerSettings.settles : Settles ServerSettings.record.decode ServerSettings.json 0 :=
  RecordDecoder.settles (fun _ => ⟨_, rfl, by simp, by simp [ServerSettings.record]⟩) fun supply _ => by
    simp only [ServerSettings.record, forall_seq_build, forall_map_build]
    intro host h₁ port h₂
    exact .seq (.map _ (.orElse .text supply h₁ rfl rfl (Nat.zero_le _)))
      (.orElse (.natBelow (by decide)) supply h₂ rfl rfl (Nat.zero_le _))

lemma SweepSettings.settles : Settles SweepSettings.record.decode SweepSettings.json 0 :=
  RecordDecoder.settles (fun _ => ⟨_, rfl, by simp, by simp [SweepSettings.record]⟩) fun supply _ => by
    simp only [SweepSettings.record, forall_seq_build, forall_map_build]
    intro interval h₁ escalate h₂
    exact .seq (.map _ (.orElse (.natBelow (Nat.le_refl _)) supply h₁ rfl rfl (Nat.zero_le _)))
      (.orElse .bool supply h₂ rfl rfl (Nat.zero_le _))

lemma AccessSettings.settles : Settles AccessSettings.record.decode AccessSettings.json 0 :=
  RecordDecoder.settles (fun _ => ⟨_, rfl, by simp, by simp [AccessSettings.record]⟩) fun supply _ => by
    simp only [AccessSettings.record, forall_map_build]
    intro adminRole h₁
    exact .map _ (.orElse .text supply h₁ rfl rfl (Nat.zero_le _))

/-- Each of the three parts may be lacking, so that what is written nests deeper than what was read. -/
lemma Settings.settles : Settles Settings.decode Settings.json 2 :=
  RecordDecoder.settles (fun _ => ⟨_, rfl, by simp, by simp⟩) fun supply fits => by
    have room := Nat.le_of_succ_le_succ fits
    simp only [forall_seq_build, forall_map_build]
    intro server h₁ sweep h₂ access h₃
    exact .seq (.seq (.map _
      (.orElse ServerSettings.settles supply h₁ rfl rfl room))
      (.orElse SweepSettings.settles supply h₂ rfl rfl room))
      (.orElse AccessSettings.settles supply h₃ rfl rfl room)

/-! ### All types -/

/-- The types of the values that are exchanged as JSON. -/
inductive Form
  | id (kind : Kind)
  | condition
  | step
  | rule
  | plan
  | workflow
  | draft
  | stepRecord
  | request
  | stepView
  | requestView
  | startForm
  | task
  | breach
  | dashboard
  | user
  | role
  | permission
  | actor
  | userDraft
  | roleDraft
  | permissionDraft
  | auditEntry
  | event
  | settings
  | serverSettings
  | sweepSettings
  | accessSettings

namespace Form

/-- The values of the type. -/
def Value : Form → Type
  | id kind => Id kind
  | condition => Condition
  | step => Step
  | rule => Rule
  | plan => Plan
  | workflow => Workflow
  | draft => Draft
  | stepRecord => StepRecord
  | request => Request
  | stepView => StepView
  | requestView => RequestView
  | startForm => StartForm
  | task => Task
  | breach => Breach
  | dashboard => Dashboard
  | user => User
  | role => Role
  | permission => Permission
  | actor => Actor
  | userDraft => UserDraft
  | roleDraft => RoleDraft
  | permissionDraft => PermissionDraft
  | auditEntry => AuditEntry
  | event => Event
  | settings => Settings
  | serverSettings => ServerSettings
  | sweepSettings => SweepSettings
  | accessSettings => AccessSettings

/-- Decode a value of the type. -/
def decode : (f : Form) → Decoder f.Value
  | id _ => Id.decode
  | condition => Condition.decode
  | step => Step.decode
  | rule => Rule.decode
  | plan => Plan.decode
  | workflow => Workflow.decode
  | draft => Draft.decode
  | stepRecord => StepRecord.decode
  | request => Request.decode
  | stepView => StepView.decode
  | requestView => RequestView.decode
  | startForm => StartForm.decode
  | task => Task.decode
  | breach => Breach.decode
  | dashboard => Dashboard.decode
  | user => User.decode
  | role => Role.decode
  | permission => Permission.decode
  | actor => Actor.decode
  | userDraft => UserDraft.decode
  | roleDraft => RoleDraft.decode
  | permissionDraft => PermissionDraft.decode
  | auditEntry => AuditEntry.decode
  | event => Event.decode
  | settings => Settings.decode
  | serverSettings => ServerSettings.record.decode
  | sweepSettings => SweepSettings.record.decode
  | accessSettings => AccessSettings.record.decode

/-- A value of the type as a JSON value. -/
def json : (f : Form) → f.Value → Json
  | id _ => Id.json
  | condition => Condition.json
  | step => Step.json
  | rule => Rule.json
  | plan => Plan.json
  | workflow => Workflow.json
  | draft => Draft.json
  | stepRecord => StepRecord.json
  | request => Request.json
  | stepView => StepView.json
  | requestView => RequestView.json
  | startForm => StartForm.json
  | task => Task.json
  | breach => Breach.json
  | dashboard => Dashboard.json
  | user => User.json
  | role => Role.json
  | permission => Permission.json
  | actor => Actor.json
  | userDraft => UserDraft.json
  | roleDraft => RoleDraft.json
  | permissionDraft => PermissionDraft.json
  | auditEntry => AuditEntry.json
  | event => Event.json
  | settings => Settings.json
  | serverSettings => ServerSettings.json
  | sweepSettings => SweepSettings.json
  | accessSettings => AccessSettings.json

/-- Read a text as a value of the type and write that value. -/
def rewrite (f : Form) (text : String) : Except DecodeFault String := do
  let a ← f.decode.decodeText text
  .ok (f.json a).compact

lemma settles (f : Form) : Settles f.decode f.json 2 := by
  cases f with
  | id => exact Id.settles.mono (Nat.zero_le _)
  | condition => exact Condition.settles.mono (Nat.zero_le _)
  | step => exact Step.settles.mono (Nat.zero_le _)
  | rule => exact Rule.settles.mono (Nat.zero_le _)
  | plan => exact Plan.settles.mono (Nat.zero_le _)
  | workflow => exact Workflow.settles.mono (Nat.zero_le _)
  | draft => exact Draft.settles
  | stepRecord => exact StepRecord.settles.mono (Nat.zero_le _)
  | request => exact Request.settles.mono (Nat.zero_le _)
  | stepView => exact StepView.settles.mono (Nat.zero_le _)
  | requestView => exact RequestView.settles.mono (Nat.zero_le _)
  | startForm => exact StartForm.settles.mono (Nat.zero_le _)
  | task => exact Task.settles.mono (Nat.zero_le _)
  | breach => exact Breach.settles.mono (Nat.zero_le _)
  | dashboard => exact Dashboard.settles.mono (Nat.zero_le _)
  | user => exact User.settles.mono (Nat.zero_le _)
  | role => exact Role.settles.mono (Nat.zero_le _)
  | permission => exact Permission.settles.mono (Nat.zero_le _)
  | actor => exact Actor.settles.mono (Nat.zero_le _)
  | userDraft => exact UserDraft.settles
  | roleDraft => exact RoleDraft.settles
  | permissionDraft => exact PermissionDraft.settles.mono (Nat.zero_le _)
  | auditEntry => exact AuditEntry.settles.mono (Nat.zero_le _)
  | event => exact Event.settles.mono (Nat.zero_le _)
  | settings => exact Settings.settles
  | serverSettings => exact ServerSettings.settles.mono (Nat.zero_le _)
  | sweepSettings => exact SweepSettings.settles.mono (Nat.zero_le _)
  | accessSettings => exact AccessSettings.settles.mono (Nat.zero_le _)

/-- A value that was read from a text is read again from the JSON that is written for it, as a value and as a text,
and that JSON is written again. The binary64 numbers in it must be read from their own texts. -/
theorem decodes_written (f : Form) {text : String} {a : f.Value} (read : f.decode.decodeText text = .ok a)
    (reals : ∀ x, JsonNumber.real x ∈ (f.json a).numbers → (JsonNumber.real x).ReadsBack) :
    f.decode.ofJson (f.json a) = some a ∧ f.decode.decodeText (f.json a).compact = .ok a ∧
      f.rewrite (f.json a).compact = .ok (f.json a).compact := by
  obtain ⟨d, shape, depth, decoded⟩ := Decoder.exists_json_of_decodeText read
  have again := f.settles.again shape decoded
  have reads : (f.json a).ReadsBack := fun n mem => by
    cases n with
    | whole n => exact n.readsBack
    | real x => exact reals x mem
  have fits : (f.json a).depth ≤ Json.depthLimit :=
    Nat.le_trans (f.settles.depth_le shape decoded) (Nat.max_le.mpr ⟨depth, by decide⟩)
  have readAgain : f.decode.decodeText (f.json a).compact = .ok a :=
    (Decoder.decodeText_compact f.decode reads fits).trans again
  refine ⟨?_, readAgain, ?_⟩
  · rw [Decoder.ofJson, again]
    rfl
  · rw [rewrite, readAgain]
    rfl

end Form

namespace Leave

/-- A task as a list of its fields, with an identifier in braces, a time with an offset, a blank in a time and a
member that stands twice. -/
def spelled : String :=
  "[\"\x7b01890000-0000-7000-8000-00000000000A\x7d\", \"Leave\", 1, \"Manager\", null, " ++
    "\"2024-05-01T10:00:00+02:00\", false, \x7b\"to\": \"Rome\", \"days\": 1, \"days\": 2.50\x7d, " ++
    "\"2024-05-01 08:00:00.5Z\"]"

/-- The task as it is written. -/
def written : String :=
  "\x7b\"created_at\":\"2024-05-01T08:00:00.500Z\",\"deadline\":\"2024-05-01T08:00:00Z\"," ++
    "\"is_sla_breached\":false,\"request_data\":\x7b\"days\":2.5,\"to\":\"Rome\"\x7d," ++
    "\"request_id\":\"01890000-0000-7000-8000-00000000000a\",\"step_description\":null," ++
    "\"step_name\":\"Manager\",\"step_order\":1,\"workflow_name\":\"Leave\"\x7d"

theorem decodes_spelled :
    ∃ a : Task, Form.task.decode.decodeText spelled = .ok a ∧ a.json.ReadsBack ∧ a.json.compact = written ∧
      Form.task.decode.decodeText written = .ok a ∧ Form.task.rewrite written = .ok written := by
  have evaluated : (Task.decode.decodeText spelled).toOption.map (fun a =>
      (a.json.compact, a.json.numbers.all fun n => decide n.ReadsBack)) = some (written, true) := by
    decide +kernel
  rcases read : Task.decode.decodeText spelled with fault | a
  · rw [read] at evaluated
    cases evaluated
  · rw [read] at evaluated
    obtain ⟨compact, reads⟩ := Prod.mk.inj (Option.some.inj evaluated)
    have readsBack : a.json.ReadsBack := fun n mem => of_decide_eq_true (List.all_eq_true.mp reads n mem)
    obtain ⟨-, again, rewritten⟩ := Form.decodes_written .task read fun x mem => readsBack _ mem
    rw [show (Form.task.json a).compact = written from compact] at again rewritten
    exact ⟨a, read, readsBack, compact, again, rewritten⟩

end Leave

end Approval
