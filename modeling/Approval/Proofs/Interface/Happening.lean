import Approval.Proofs.Interface.Use
import Approval.Proofs.Run.Directory

/-!
# What happens to a deployment

The service is used through its interfaces, and its directory is also changed beside them. All that comes
about in this way comes about by calls of the service, so that what holds after all calls holds here.
-/

namespace Approval

/-- The call is one on the directory. -/
def ServiceCall.isOnDirectory : ServiceCall → Bool
  | .createPermission _ | .createRole _ | .createUser _ | .grant _ _ | .assign _ _ | .deactivate _
  | .issueToken _ _ => true
  | _ => false

/-- What happens to a deployment: it is used, or a call on the directory is made beside all uses. -/
inductive Happening
  | used (use : Use)
  | administered (call : ServiceCall) (onDirectory : call.isOnDirectory = true)

namespace Happening

variable [Supply]

/-- The world after a happening. -/
def run (c : Context) (w : World) : Happening → World
  | .used use => (use.run c w).2
  | .administered call _ => call.run c w

/-- The calls of the service that a happening may be. -/
def Makes : Happening → ServiceCall → Prop
  | .used use => use.Makes
  | .administered call _ => (· = call)

/-- The world after happenings, one after the other. -/
def after (happenings : List (Context × Happening)) (w : World) : World :=
  happenings.foldl (fun w h => h.2.run h.1 w) w

/-- The world after a happening is the one before, or the one after a call of the service. Requests are
started and decided by uses only, in the name of those whom they act as. -/
lemma run_calls (h : Happening) (c : Context) (w : World) :
    h.run c w = w ∨ ∃ call, h.Makes call ∧
      call.SignedBy (fun a => ∃ use, h = .used use ∧ use.ActsAs c w a) ∧ h.run c w = call.run c w := by
  cases h with
  | used use =>
    rcases use.run_calls c w with quiet | ⟨call, makes, signed, run⟩
    · exact .inl quiet
    · exact .inr ⟨call, makes, signed.mono fun a acts => ⟨use, rfl, acts⟩, run⟩
  | administered call onDirectory =>
    refine .inr ⟨call, rfl, ⟨?_, ?_⟩, rfl⟩
    all_goals
      rintro _ _ _ rfl
      cases onDirectory

/-- The world after happenings is the one after acts of theirs. -/
lemma exists_acts (happenings : List (Context × Happening)) (w : World) :
    ∃ acts, after happenings w = w.after acts ∧
      ∀ a ∈ acts, ∃ h ∈ happenings, a.context = h.1 ∧ h.2.Makes a.call := by
  refine World.exists_acts_of_steps (fun h w => ?_) happenings w
  rcases h.2.run_calls h.1 w with quiet | ⟨call, makes, -, run⟩
  · exact .inl quiet
  · exact .inr ⟨⟨h.1, call⟩, ⟨rfl, makes⟩, run⟩

end Happening

end Approval
