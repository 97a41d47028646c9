import Approval.Proofs.Request.Lifecycle
import Approval.Proofs.Workflow.Form
import Approval.Request.Form

/-!
# Requests read back

What is written for requests, their steps and the views of them makes them again.
-/

namespace Approval

open Decoder (Settles)
open RecordDecoder (forall_seq_build forall_map_build)

lemma Status.settles : Settles Status.decode Status.json 0 := .name fun s => by cases s <;> rfl

/-- Every label is read as a status that has this label. -/
lemma StepStatus.settles : Settles StepStatus.decode StepStatus.json 0 :=
  .of_scalar (fun _ => rfl) (fun _ => by simp [StepStatus.json]) fun {d status} _ h => by
    obtain ⟨label, -, rfl⟩ := Except.map_eq_ok_iff.mp h
    have again : StepStatus.ofLabel (StepStatus.ofLabel label).label = StepStatus.ofLabel label := by
      by_cases reserved : label = reservedOutcome
      · subst reserved
        rfl
      · have other : StepStatus.ofLabel label = StepStatus.ofOutcome label := if_neg reserved
        rw [other, StepStatus.ofLabel_ofOutcome reserved]
    exact congrArg Except.ok again

lemma Decoder.Settles.version : Settles decodeVersion Json.ofInt 0 := .int (by decide) (by decide)

lemma Decoder.Settles.tally : Settles decodeTally Json.ofNat 0 := .natBelow (by decide)

/-- An object with the members of a step makes the step, whatever else is in it. -/
lemma StepRecord.rebuilds {get : String → Option Doc} {v : Json} {room : Nat}
    (supply : RecordDecoder.Supplies get room) (s : StepRecord) (built : StepRecord.record.build get = .ok s)
    (same : ∀ name ∈ StepRecord.record.names, v.member? name = s.json.member? name) :
    StepRecord.record.Rebuilds v room s := by
  refine RecordDecoder.Rebuilds.congr ?_ same
  clear same
  revert s
  unfold StepRecord.record
  simp only [forall_seq_build, forall_map_build]
  intro order h₁ name h₂ status h₃ startedAt h₄ deadline h₅ completedAt h₆ outcome h₇ note h₈ actedBy h₉
  exact .seq (.seq (.seq (.seq (.seq (.seq (.seq (.seq (.map _
    (.required .count supply h₁ rfl)) (.required .text supply h₂ rfl))
    (.required StepStatus.settles supply h₃ rfl)) (.required Instant.settles supply h₄ rfl)) (.maybe Instant.settles supply h₅ rfl))
    (.maybe Instant.settles supply h₆ rfl)) (.maybe .text supply h₇ rfl)) (.maybe .json supply h₈ rfl))
    (.maybe Id.settles supply h₉ rfl)

lemma StepRecord.settles : Settles StepRecord.decode StepRecord.json 0 :=
  RecordDecoder.settles (fun _ => ⟨_, rfl, by simp, by simp [StepRecord.record]⟩) fun supply _ s built =>
    s.rebuilds supply built fun _ _ => rfl

lemma Request.settles : Settles Request.decode Request.json 0 :=
  RecordDecoder.settles (fun _ => ⟨_, rfl, by simp, by simp⟩) fun supply _ => by
    simp only [forall_seq_build, forall_map_build]
    intro id h₁ workflowId h₂ workflowName h₃ requester h₄ payload h₅ status h₆ version h₇ plan h₈ steps h₉
      createdAt h₁₀ updatedAt h₁₁ completedAt h₁₂
    exact .seq (.seq (.seq (.seq (.seq (.seq (.seq (.seq (.seq (.seq (.seq (.map _
      (.required Id.settles supply h₁ rfl)) (.required Id.settles supply h₂ rfl)) (.required .text supply h₃ rfl))
      (.required Id.settles supply h₄ rfl)) (.required .json supply h₅ rfl))
      (.required Status.settles supply h₆ rfl)) (.required .version supply h₇ rfl))
      (.required Plan.settles supply h₈ rfl)) (.required (.list StepRecord.settles) supply h₉ rfl))
      (.required Instant.settles supply h₁₀ rfl)) (.required Instant.settles supply h₁₁ rfl))
      (.maybe Instant.settles supply h₁₂ rfl)

lemma StepView.member?_json (v : StepView) {name : String} (ne : name ≠ "is_sla_breached") :
    v.json.member? name = v.step.json.member? name := by
  simp only [StepView.json, StepRecord.json, Json.member?, List.lookup_cons, beq_false_of_ne ne]

lemma StepView.settles : Settles StepView.decode StepView.json 0 :=
  RecordDecoder.settles (fun _ => ⟨_, rfl, by simp, by simp [StepRecord.record]⟩) fun supply _ => by
    simp only [forall_seq_build, forall_map_build]
    intro step h₁ isLate h₂
    have same : ∀ name ∈ StepRecord.record.names,
        (StepView.json ⟨step, isLate⟩).member? name = step.json.member? name := fun name mem =>
      StepView.member?_json _ (by rintro rfl; simp [StepRecord.record] at mem)
    exact .seq (.map _ (step.rebuilds supply h₁ same)) (.required .bool supply h₂ rfl)

lemma RequestView.settles : Settles RequestView.decode RequestView.json 0 :=
  RecordDecoder.settles (fun _ => ⟨_, rfl, by simp, by simp⟩) fun supply _ => by
    simp only [forall_seq_build, forall_map_build]
    intro id h₁ workflowId h₂ workflowName h₃ requester h₄ payload h₅ status h₆ version h₇ currentOrder h₈ steps h₉
      createdAt h₁₀ updatedAt h₁₁ completedAt h₁₂
    exact .seq (.seq (.seq (.seq (.seq (.seq (.seq (.seq (.seq (.seq (.seq (.map _
      (.required Id.settles supply h₁ rfl)) (.required Id.settles supply h₂ rfl)) (.required .text supply h₃ rfl))
      (.required Id.settles supply h₄ rfl)) (.required .json supply h₅ rfl))
      (.required Status.settles supply h₆ rfl)) (.required .version supply h₇ rfl))
      (.maybe .count supply h₈ rfl)) (.required (.list StepView.settles) supply h₉ rfl))
      (.required Instant.settles supply h₁₀ rfl)) (.required Instant.settles supply h₁₁ rfl))
      (.maybe Instant.settles supply h₁₂ rfl)

lemma Task.settles : Settles Task.decode Task.json 0 :=
  RecordDecoder.settles (fun _ => ⟨_, rfl, by simp, by simp⟩) fun supply _ => by
    simp only [forall_seq_build, forall_map_build]
    intro requestId h₁ workflowName h₂ order h₃ stepName h₄ stepDescription h₅ deadline h₆ isLate h₇ payload h₈
      createdAt h₉
    exact .seq (.seq (.seq (.seq (.seq (.seq (.seq (.seq (.map _
      (.required Id.settles supply h₁ rfl)) (.required .text supply h₂ rfl)) (.required .count supply h₃ rfl))
      (.required .text supply h₄ rfl)) (.maybe .text supply h₅ rfl)) (.maybe Instant.settles supply h₆ rfl))
      (.required .bool supply h₇ rfl)) (.required .json supply h₈ rfl)) (.required Instant.settles supply h₉ rfl)

lemma Breach.settles : Settles Breach.decode Breach.json 0 :=
  RecordDecoder.settles (fun _ => ⟨_, rfl, by simp, by simp⟩) fun supply _ => by
    simp only [forall_seq_build, forall_map_build]
    intro requestId h₁ position h₂ order h₃ deadline h₄ detectedAt h₅
    exact .seq (.seq (.seq (.seq (.map _
      (.required Id.settles supply h₁ rfl)) (.required .count supply h₂ rfl)) (.required .count supply h₃ rfl))
      (.required Instant.settles supply h₄ rfl)) (.required Instant.settles supply h₅ rfl)

lemma StartForm.settles : Settles StartForm.decode StartForm.json 0 :=
  RecordDecoder.settles (fun _ => ⟨_, rfl, by simp, by simp⟩) fun supply _ => by
    simp only [forall_seq_build, forall_map_build]
    intro workflowId h₁ payload h₂
    exact .seq (.map _ (.required Id.settles supply h₁ rfl)) (.orNone .json supply h₂ rfl)

lemma Dashboard.settles : Settles Dashboard.decode Dashboard.json 0 :=
  RecordDecoder.settles (fun _ => ⟨_, rfl, by simp, by simp⟩) fun supply _ => by
    simp only [forall_seq_build, forall_map_build]
    intro active h₁ pending h₂ completed h₃ rejected h₄ escalated h₅ overdue h₆
    exact .seq (.seq (.seq (.seq (.seq (.map _
      (.required .tally supply h₁ rfl)) (.required .tally supply h₂ rfl)) (.required .tally supply h₃ rfl))
      (.required .tally supply h₄ rfl)) (.required .tally supply h₅ rfl)) (.required .tally supply h₆ rfl)

end Approval
