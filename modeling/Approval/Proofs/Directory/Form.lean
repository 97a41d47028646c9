import Approval.Directory.Form
import Approval.Proofs.Wire.Record

/-!
# The directory read back

What is written for users, roles, permissions and actors makes them again.
-/

namespace Approval

open Decoder (Settles)
open RecordDecoder (forall_seq_build forall_map_build)

lemma Permission.settles : Settles Permission.decode Permission.json 0 :=
  RecordDecoder.settles (fun _ => ⟨_, rfl, by simp, by simp⟩) fun supply _ => by
    simp only [forall_seq_build, forall_map_build]
    intro id h₁ name h₂ resource h₃ action h₄ description h₅ createdAt h₆
    exact .seq (.seq (.seq (.seq (.seq (.map _
      (.required Id.settles supply h₁ rfl)) (.required .text supply h₂ rfl)) (.required .text supply h₃ rfl))
      (.required .text supply h₄ rfl)) (.maybe .text supply h₅ rfl)) (.required Instant.settles supply h₆ rfl)

lemma Role.settles : Settles Role.decode Role.json 0 :=
  RecordDecoder.settles (fun _ => ⟨_, rfl, by simp, by simp⟩) fun supply _ => by
    simp only [forall_seq_build, forall_map_build]
    intro id h₁ name h₂ description h₃ permissionIds h₄ createdAt h₅
    exact .seq (.seq (.seq (.seq (.map _
      (.required Id.settles supply h₁ rfl)) (.required .text supply h₂ rfl)) (.maybe .text supply h₃ rfl))
      (.required (.list Id.settles) supply h₄ rfl)) (.required Instant.settles supply h₅ rfl)

lemma User.settles : Settles User.decode User.json 0 :=
  RecordDecoder.settles (fun _ => ⟨_, rfl, by simp, by simp⟩) fun supply _ => by
    simp only [forall_seq_build, forall_map_build]
    intro id h₁ username h₂ fullName h₃ isActive h₄ roleIds h₅ createdAt h₆
    exact .seq (.seq (.seq (.seq (.seq (.map _
      (.required Id.settles supply h₁ rfl)) (.required .text supply h₂ rfl)) (.required .text supply h₃ rfl))
      (.required .bool supply h₄ rfl)) (.required (.list Id.settles) supply h₅ rfl))
      (.required Instant.settles supply h₆ rfl)

lemma Actor.settles : Settles Actor.decode Actor.json 0 :=
  RecordDecoder.settles (fun _ => ⟨_, rfl, by simp, by simp⟩) fun supply _ => by
    simp only [forall_seq_build, forall_map_build]
    intro userId h₁ username h₂ roleIds h₃ permissionIds h₄ isAdmin h₅
    exact .seq (.seq (.seq (.seq (.map _
      (.required Id.settles supply h₁ rfl)) (.required .text supply h₂ rfl))
      (.required (.list Id.settles) supply h₃ rfl)) (.required (.list Id.settles) supply h₄ rfl))
      (.required .bool supply h₅ rfl)

lemma PermissionDraft.settles : Settles PermissionDraft.decode PermissionDraft.json 0 :=
  RecordDecoder.settles (fun _ => ⟨_, rfl, by simp, by simp⟩) fun supply _ => by
    simp only [forall_seq_build, forall_map_build]
    intro name h₁ resource h₂ action h₃ description h₄
    exact .seq (.seq (.seq (.map _
      (.required .text supply h₁ rfl)) (.required .text supply h₂ rfl)) (.required .text supply h₃ rfl))
      (.maybe .text supply h₄ rfl)

/-- The names of the permissions may be lacking, so that what is written nests deeper than what was read. -/
lemma RoleDraft.settles : Settles RoleDraft.decode RoleDraft.json 2 :=
  RecordDecoder.settles (fun _ => ⟨_, rfl, by simp, by simp⟩) fun supply fits => by
    simp only [forall_seq_build, forall_map_build]
    intro name h₁ description h₂ permissionNames h₃
    exact .seq (.seq (.map _ (.required .text supply h₁ rfl)) (.maybe .text supply h₂ rfl))
      (.orElse (.list .text) supply h₃ rfl rfl (Nat.le_of_succ_le_succ fits))

lemma UserDraft.settles : Settles UserDraft.decode UserDraft.json 2 :=
  RecordDecoder.settles (fun _ => ⟨_, rfl, by simp, by simp⟩) fun supply fits => by
    simp only [forall_seq_build, forall_map_build]
    intro username h₁ fullName h₂ roleNames h₃
    exact .seq (.seq (.map _ (.required .text supply h₁ rfl)) (.maybe .text supply h₂ rfl))
      (.orElse (.list .text) supply h₃ rfl rfl (Nat.le_of_succ_le_succ fits))

end Approval
