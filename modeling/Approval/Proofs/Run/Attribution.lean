import Approval.Proofs.Run.Closing

/-!
# Whom changes are attributed to

What a call does that is made in the name of a user is attributed to that user: they are the requester of the
request that it starts, they acted on the step that it closes, and they are the actor of its audit entries.
-/

namespace Approval

/-- The user in whose name the call is made, if it is made in the name of one. -/
def ServiceCall.author? : ServiceCall → Option UserId
  | .createWorkflow _ createdBy => createdBy
  | .switchWorkflow _ _ actor => actor
  | .removeWorkflow _ actor => actor
  | .start _ requester _ => some requester
  | .process _ actor _ => some actor.userId
  | _ => none

/-- All requests, decisions and audit entries that the second world has over the first one name the user. -/
structure World.AttributesTo (w w' : World) (user : UserId) : Prop where
  requests : ∀ r ∈ w'.store.requests, (∀ q ∈ w.store.requests, q.id ≠ r.id) → r.requester = user
  decisions : ∀ r ∈ w'.store.requests, ∀ (i : Nat) (s : StepRecord), r.steps[i]? = some s →
    s.isPending = false → (∀ q ∈ w.store.requests, q.id = r.id → ¬q.ClosedAt i) → s.actedBy = some user
  audit : ∃ entries, w'.store.audit = w.store.audit ++ entries ∧ ∀ e ∈ entries, e.actor = some user

lemma World.AttributesTo.refl (w : World) (user : UserId) : w.AttributesTo w user where
  requests r stored new := absurd rfl (new r stored)
  decisions r stored i s found closed new := absurd ⟨s, found, closed⟩ (new r stored rfl)
  audit := ⟨[], (List.append_nil _).symm, by simp⟩

namespace ServiceCall.Effect

variable [Supply] {c : Context} {w w' : World} {call : ServiceCall} {user : UserId}

/-- Only a call that starts a request adds one. -/
lemma requester_of_new (h : call.Effect c w w') (hk : w.store.Keyed) (named : call.author? = some user)
    {r : Request} (stored : r ∈ w'.store.requests) (new : ∀ q ∈ w.store.requests, q.id ≠ r.id) :
    r.requester = user := by
  cases h with
  | nothing | created | switched | removed => exact absurd rfl (new r stored)
  | directory only =>
    rw [only.1] at stored
    exact absurd rfl (new r stored)
  | started _ _ made =>
    rcases List.mem_append.mp stored with old | last
    · exact absurd rfl (new r old)
    · obtain rfl := List.mem_singleton.mp last
      obtain ⟨_, _, -, -, rfl⟩ := Workflow.request_eq_ok_iff.mp made
      exact Option.some.inj named
  | @decided row _ _ _ _ mem reads decides =>
    rcases (Requests.mem_requests_decided hk mem reads decides).mp stored with ⟨old, -⟩ | rfl
    · exact absurd rfl (new r old)
    · exact absurd rfl (new row mem)
  | swept => cases named

/-- Every entry that a call writes names the user in whose name it is made. -/
lemma actor_of_written (h : call.Effect c w w') (named : call.author? = some user) :
    ∃ entries, w'.store.audit = w.store.audit ++ entries ∧ ∀ e ∈ entries, e.actor = some user := by
  have one {note : AuditNote} (actor : note.actor = some user) :
      ∃ entries, w.store.audit ++ [w.store.entry note] = w.store.audit ++ entries ∧
        ∀ e ∈ entries, e.actor = some user := by
    refine ⟨_, rfl, fun e mem => ?_⟩
    obtain rfl := List.mem_singleton.mp mem
    exact actor
  cases h with
  | nothing => exact ⟨[], (List.append_nil _).symm, by simp⟩
  | directory only =>
    rw [only.1]
    exact ⟨[], (List.append_nil _).symm, by simp⟩
  | created _ made =>
    subst made
    exact one named
  | switched => exact one named
  | removed => exact one named
  | started _ _ made =>
    obtain ⟨_, _, -, -, rfl⟩ := Workflow.request_eq_ok_iff.mp made
    exact one named
  | decided _ _ decides =>
    obtain ⟨_, _, _, _, _, -, -, -, note⟩ := Request.decide_eq_ok_iff.mp decides
    refine one ?_
    rw [note]
    exact named
  | swept => cases named

/-- What a call does in the name of a user is attributed to them. -/
theorem attributesTo (h : call.Effect c w w') (hk : w.store.Keyed) (alive : w.store.Alive)
    (named : call.author? = some user) : w.AttributesTo w' user where
  requests r stored new := h.requester_of_new hk named stored new
  decisions r stored i s found closed new := by
    obtain ⟨row, mem, current, actor, d, x, reads, decides, rfl, -, rfl, read⟩ :=
      h.closes hk alive stored ⟨s, found, closed⟩ new
    obtain ⟨_, _, -, -, acted, -⟩ :=
      Request.closed_of_decide ((alive row mem).readBack reads) decides found closed read
    exact acted.trans named
  audit := h.actor_of_written named

end ServiceCall.Effect

end Approval
