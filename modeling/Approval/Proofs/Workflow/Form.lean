import Approval.Proofs.Wire.Record
import Approval.Workflow.Form

/-!
# Workflows read back

What is written for the parts of a workflow makes them again.
-/

namespace Approval

open Decoder (Settles)
open RecordDecoder (forall_seq_build forall_map_build)

lemma Operator.settles : Settles Operator.decode Operator.json 0 := .name fun o => by cases o <;> rfl

lemma Ending.settles : Settles Ending.decode Ending.json 0 := .name fun e => by cases e <;> rfl

lemma Decoder.Settles.count : Settles Decoder.count Json.ofNat 0 := .natBelow (by decide)

lemma Condition.settles : Settles Condition.decode Condition.json 0 :=
  RecordDecoder.settles (fun _ => ⟨_, rfl, by simp, by simp⟩) fun supply _ => by
    simp only [forall_seq_build, forall_map_build]
    intro field h₁ operator h₂ value h₃
    exact .seq (.seq (.map _ (.required .text supply h₁ rfl))
      (.orElse Operator.settles supply h₂ rfl rfl (Nat.zero_le _)))
      (.orElse .json supply h₃ rfl rfl (Nat.zero_le _))

lemma Step.settles : Settles Step.decode Step.json 0 :=
  RecordDecoder.settles (fun _ => ⟨_, rfl, by simp, by simp⟩) fun supply _ => by
    simp only [forall_seq_build, forall_map_build]
    intro order h₁ name h₂ description h₃ role h₄ permission h₅ hours h₆ isConditional h₇
    exact .seq (.seq (.seq (.seq (.seq (.seq (.map _
      (.required .count supply h₁ rfl)) (.required .text supply h₂ rfl)) (.orNone .text supply h₃ rfl))
      (.orNone Id.settles supply h₄ rfl)) (.orNone Id.settles supply h₅ rfl))
      (.orElse .count supply h₆ rfl rfl (Nat.zero_le _))) (.orElse .bool supply h₇ rfl rfl (Nat.zero_le _))

/-- The members of a rule that are left out do not change which the others are. -/
lemma Rule.member?_json (r : Rule) :
    r.json.member? "condition" = r.condition.map Condition.json ∧
      r.json.member? "final_status" = r.ending.map Ending.json ∧
      r.json.member? "from_step_order" = some (Json.ofNat r.fromStep) ∧
      r.json.member? "outcome" = some (.text r.outcome) ∧
      r.json.member? "to_step_order" = some (Json.ofOption Json.ofNat r.toStep) := by
  obtain ⟨fromStep, outcome, toStep, condition, ending⟩ := r
  cases condition <;> cases ending <;> exact ⟨rfl, rfl, rfl, rfl, rfl⟩

lemma Rule.isObjectOf_json (r : Rule) :
    r.json.IsObjectOf ["from_step_order", "outcome", "to_step_order", "condition", "final_status"] := by
  obtain ⟨fromStep, outcome, toStep, condition, ending⟩ := r
  cases condition <;> cases ending <;> exact ⟨_, rfl, by simp [Json.optionalMember], by simp [Json.optionalMember]⟩

lemma Rule.settles : Settles Rule.decode Rule.json 0 :=
  RecordDecoder.settles Rule.isObjectOf_json fun supply _ => by
    simp only [forall_seq_build, forall_map_build]
    intro fromStep h₁ outcome h₂ toStep h₃ condition h₄ ending h₅
    obtain ⟨m₄, m₅, m₁, m₂, m₃⟩ := Rule.member?_json ⟨fromStep, outcome, toStep, condition, ending⟩
    exact .seq (.seq (.seq (.seq (.map _
      (.required .count supply h₁ m₁)) (.required .text supply h₂ m₂)) (.orNone .count supply h₃ m₃))
      (.leftOut Condition.settles supply h₄ m₄)) (.leftOut Ending.settles supply h₅ m₅)

lemma Plan.settles : Settles Plan.decode Plan.json 0 :=
  RecordDecoder.settles (fun _ => ⟨_, rfl, by simp, by simp⟩) fun supply _ => by
    simp only [forall_seq_build, forall_map_build]
    intro steps h₁ rules h₂
    exact .seq (.map _
      (.required (.list Step.settles) supply h₁ rfl)) (.required (.list Rule.settles) supply h₂ rfl)

lemma Workflow.settles : Settles Workflow.decode Workflow.json 0 :=
  RecordDecoder.settles (fun _ => ⟨_, rfl, by simp, by simp⟩) fun supply _ => by
    simp only [forall_seq_build, forall_map_build]
    intro id h₁ name h₂ description h₃ isActive h₄ steps h₅ rules h₆ createdBy h₇ createdAt h₈
    exact .seq (.seq (.seq (.seq (.seq (.seq (.seq (.map _
      (.required Id.settles supply h₁ rfl)) (.required .text supply h₂ rfl)) (.maybe .text supply h₃ rfl))
      (.required .bool supply h₄ rfl)) (.required (.list Step.settles) supply h₅ rfl))
      (.required (.list Rule.settles) supply h₆ rfl)) (.maybe Id.settles supply h₇ rfl))
      (.required Instant.settles supply h₈ rfl)

/-- The rules may be lacking, so that what is written nests deeper than what was read. -/
lemma Draft.settles : Settles Draft.decode Draft.json 2 :=
  RecordDecoder.settles (fun _ => ⟨_, rfl, by simp, by simp⟩) fun supply fits => by
    simp only [forall_seq_build, forall_map_build]
    intro name h₁ description h₂ isActive h₃ steps h₄ rules h₅
    exact .seq (.seq (.seq (.seq (.map _
      (.required .text supply h₁ rfl)) (.orNone .text supply h₂ rfl)) (.orNone .bool supply h₃ rfl))
      (.required (.list Step.settles) supply h₄ rfl))
      (.orElse (.list Rule.settles) supply h₅ rfl rfl (Nat.le_of_succ_le_succ fits))

end Approval
