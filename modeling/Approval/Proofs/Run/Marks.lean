import Approval.Proofs.Run.Attribution

/-!
# Where users are named

Users are named as requesters of requests, as those who decided on steps, as creators of workflows and as actors
of audit entries. A call names nobody but the user in whose name it is made.
-/

namespace Approval

open Relation

/-- A place of the store at which a user may be named. -/
inductive Mark
  | requester (id : RequestId)
  | decision (id : RequestId) (i : Nat)
  | creator (id : WorkflowId)
  | entry (n : Nat) (about : Option RequestId)

/-- The place belongs to a request or tells of one. -/
def Mark.isOfRequest : Mark → Bool
  | .requester _ | .decision _ _ => true
  | .creator _ => false
  | .entry _ about => about.isSome

/-- The user is named at a place of the store. -/
def Store.Names (s : Store) (user : UserId) : Mark → Prop
  | .requester id => ∃ r ∈ s.requests, r.id = id ∧ r.requester = user
  | .decision id i => ∃ r ∈ s.requests, r.id = id ∧ ∃ t, r.steps[i]? = some t ∧ t.actedBy = some user
  | .creator id => ∃ wf ∈ s.workflows, wf.id = id ∧ wf.createdBy = some user
  | .entry n about => ∃ e, s.audit[n]? = some e ∧ e.requestId = about ∧ e.actor = some user

/-- The call starts or decides a request. -/
def ServiceCall.isOnRequest : ServiceCall → Bool
  | .start _ _ _ | .process _ _ _ => true
  | _ => false

/-! ### Steps -/

namespace Request

variable {r row current : Request} {i : Nat} {t : StepRecord} {user : UserId}

/-- Whoever acted on a step after a decision has decided or had acted on it before. -/
lemma actedBy_of_decide (hr : r.Lifecycle) {actor : Actor} {d : Decision} {now : Instant} {x : Decided}
    (decides : r.decide actor d now = .ok x) (found : x.request.steps[i]? = some t)
    (acted : t.actedBy = some user) :
    actor.userId = user ∨ ∃ s, r.steps[i]? = some s ∧ s.actedBy = some user := by
  obtain ⟨before, record, step, overridden, outcome, rule, hs, -, -, -, advanced, -⟩ :=
    hr.decide_eq_ok decides
  have among_closed (found : (before ++ [record.close outcome d.context actor.userId now])[i]? = some t) :
      actor.userId = user ∨ ∃ s, r.steps[i]? = some s ∧ s.actedBy = some user := by
    rw [List.getElem?_append] at found
    split_ifs at found with below
    · refine .inr ⟨t, ?_, acted⟩
      rw [hs, List.getElem?_append_left below, found]
    · obtain rfl := List.mem_singleton.mp (List.mem_of_getElem? found)
      exact .inl (Option.some.inj acted)
  rcases advanced.next_eq with ⟨order, target, deadline, -, -, -, next⟩ | ⟨status, -, next⟩
  · rw [next, onward, List.getElem?_append] at found
    split_ifs at found with below
    · exact among_closed found
    · -- Nobody has acted on the step that was reached.
      obtain rfl := List.mem_singleton.mp (List.mem_of_getElem? found)
      cases acted
  · rw [next] at found
    exact among_closed found

/-- Whoever acted on a step that is read acted on it in the row. -/
lemma actedBy_of_readBack? (reads : row.readBack? = some r)
    (h : ∃ s, r.steps[i]? = some s ∧ s.actedBy = some user) :
    ∃ s, row.steps[i]? = some s ∧ s.actedBy = some user := by
  obtain ⟨s, found, acted⟩ := h
  obtain ⟨s, stored, rfl⟩ := (getElem?_steps_of_readBack? reads).mp found
  exact ⟨s, stored, by rwa [StepRecord.asRead_actedBy] at acted⟩

end Request

/-! ### Calls -/

section Calls

variable [Supply] {c : Context} {w w' : World} {user : UserId} {m : Mark}

/-- A further entry names its actor, where it tells of the request that it is about. -/
lemma Store.names_entry_of_append {s t : Store} {note : AuditNote} {n : Nat} {about : Option RequestId}
    (added : t.audit = s.audit ++ [s.entry note]) (named : t.Names user (.entry n about)) :
    s.Names user (.entry n about) ∨ note.actor = some user ∧ note.requestId = about := by
  obtain ⟨e, found, tells, acted⟩ := named
  rw [added, List.getElem?_append] at found
  split_ifs at found with below
  · exact .inl ⟨e, found, tells, acted⟩
  · obtain rfl := List.mem_singleton.mp (List.mem_of_getElem? found)
    exact .inr ⟨acted, tells⟩

namespace Workflows

/-- A workflow that is created names its creator. -/
lemma names_created {wf : Workflow} (named : (created wf w).store.Names user m) :
    w.store.Names user m ∨ wf.createdBy = some user ∧ m.isOfRequest = false := by
  cases m with
  | requester | decision => exact .inl named
  | creator id =>
    obtain ⟨x, mem, same, creator⟩ := named
    rcases List.mem_append.mp mem with old | last
    · exact .inl ⟨x, old, same, creator⟩
    · obtain rfl := List.mem_singleton.mp last
      exact .inr ⟨creator, rfl⟩
  | entry n about =>
    refine (Store.names_entry_of_append rfl named).imp_right fun ⟨actor, tells⟩ => ⟨actor, ?_⟩
    rw [Mark.isOfRequest, ← tells]
    rfl

/-- Switching a workflow names who switches it. -/
lemma names_switched {id : WorkflowId} {isActive : Bool} {actor : Option UserId} {now : Instant}
    (named : (switched id isActive actor now w).store.Names user m) :
    w.store.Names user m ∨ actor = some user ∧ m.isOfRequest = false := by
  cases m with
  | requester | decision => exact .inl named
  | creator =>
    obtain ⟨x, mem, same, creator⟩ := named
    obtain ⟨row, stored, rfl⟩ := List.mem_map.mp mem
    refine .inl ⟨row, stored, ?_⟩
    split at same
    · rename_i switches
      exact ⟨same, by rwa [if_pos switches] at creator⟩
    · rename_i other
      exact ⟨same, by rwa [if_neg other] at creator⟩
  | entry n about =>
    refine (Store.names_entry_of_append rfl named).imp_right fun ⟨actor, tells⟩ => ⟨actor, ?_⟩
    rw [Mark.isOfRequest, ← tells]
    rfl

/-- Removing a workflow names who removes it. -/
lemma names_removed {id : WorkflowId} {actor : Option UserId} {now : Instant}
    (named : (removed id actor now w).store.Names user m) :
    w.store.Names user m ∨ actor = some user ∧ m.isOfRequest = false := by
  cases m with
  | requester | decision => exact .inl named
  | creator =>
    obtain ⟨x, mem, same, creator⟩ := named
    exact .inl ⟨x, List.mem_of_mem_filter mem, same, creator⟩
  | entry n about =>
    refine (Store.names_entry_of_append rfl named).imp_right fun ⟨actor, tells⟩ => ⟨actor, ?_⟩
    rw [Mark.isOfRequest, ← tells]
    rfl

end Workflows

namespace Requests

/-- A request that is started names its requester. -/
lemma names_started {wf : Workflow} {r : Request} {first : Step} {requester : UserId} {payload : Json}
    (made : wf.request w.store.nextRequestId requester payload c.now = .ok r)
    (named : (started wf r first w).store.Names user m) :
    w.store.Names user m ∨ requester = user ∧ m.isOfRequest = true := by
  obtain ⟨_, _, -, -, rfl⟩ := Workflow.request_eq_ok_iff.mp made
  cases m with
  | requester id =>
    obtain ⟨r, mem, same, requested⟩ := named
    rcases List.mem_append.mp mem with old | last
    · exact .inl ⟨r, old, same, requested⟩
    · obtain rfl := List.mem_singleton.mp last
      exact .inr ⟨requested, rfl⟩
  | decision id i =>
    obtain ⟨r, mem, same, t, found, acted⟩ := named
    rcases List.mem_append.mp mem with old | last
    · exact .inl ⟨r, old, same, t, found, acted⟩
    · -- A request starts with a step on which nobody has acted.
      obtain rfl := List.mem_singleton.mp last
      obtain rfl := List.mem_singleton.mp (List.mem_of_getElem? found)
      cases acted
  | creator => exact .inl named
  | entry n about =>
    refine (Store.names_entry_of_append rfl named).imp_right fun ⟨actor, tells⟩ =>
      ⟨Option.some.inj actor, ?_⟩
    rw [Mark.isOfRequest, ← tells]
    rfl

/-- A request that is decided names who decides. -/
lemma names_decided (hk : w.store.Keyed) (alive : w.store.Alive) {row current : Request} {actor : Actor}
    {d : Decision} {x : Decided} (stored : row ∈ w.store.requests) (reads : row.readBack? = some current)
    (decides : current.decide actor d c.now = .ok x) (named : (decided x w).store.Names user m) :
    w.store.Names user m ∨ actor.userId = user ∧ m.isOfRequest = true := by
  cases m with
  | requester id =>
    obtain ⟨r, mem, same, requested⟩ := named
    rcases (mem_requests_decided hk stored reads decides).mp mem with ⟨old, -⟩ | rfl
    · exact .inl ⟨r, old, same, requested⟩
    · exact .inl ⟨row, stored, same, requested⟩
  | decision id i =>
    obtain ⟨r, mem, same, t, found, acted⟩ := named
    rcases (mem_requests_decided hk stored reads decides).mp mem with ⟨old, -⟩ | rfl
    · exact .inl ⟨r, old, same, t, found, acted⟩
    · rcases Request.actedBy_of_decide ((alive row stored).readBack reads) decides found acted with
        decider | before
      · exact .inr ⟨decider, rfl⟩
      · exact .inl ⟨row, stored, same, Request.actedBy_of_readBack? reads before⟩
  | creator => exact .inl named
  | entry n about =>
    obtain ⟨_, _, _, _, _, -, -, -, note⟩ := Request.decide_eq_ok_iff.mp decides
    refine (Store.names_entry_of_append rfl named).imp_right fun ⟨acted, tells⟩ => ?_
    rw [note] at acted tells
    exact ⟨Option.some.inj acted, by rw [Mark.isOfRequest, ← tells]; rfl⟩

end Requests

/-- A sweep names nobody. -/
lemma Sweep.names_of_breached (hk : w.store.Keyed) (alive : w.store.Alive)
    (h : ReflTransGen (Sweep.Breached c) w w') (named : w'.store.Names user m) : w.store.Names user m := by
  induction h using ReflTransGen.head_induction_on with
  | refl => exact named
  | head breached _ ih =>
    have change := Change.stepLate breached
    have named := ih (change.keyed hk) (change.alive hk alive)
    cases breached with
    | @intro escalate f row stored reads =>
      cases m with
      | requester id =>
        obtain ⟨r, mem, same, requested⟩ := named
        rcases mem_escalatedBy_of_reads hk (fun _ => ⟨row, stored, reads⟩) mem with
          old | ⟨found, old, -, marked, -, rfl⟩
        · exact ⟨r, old, same, requested⟩
        · exact ⟨found, old, same, requested⟩
      | decision id i =>
        obtain ⟨r, mem, same, acted⟩ := named
        rcases mem_escalatedBy_of_reads hk (fun _ => ⟨row, stored, reads⟩) mem with
          old | ⟨found, old, read, marked, marks, rfl⟩
        · exact ⟨r, old, same, acted⟩
        · obtain ⟨-, -, rfl⟩ := escalated_eq_some.mp marks
          exact ⟨found, old, same, Request.actedBy_of_readBack? read acted⟩
      | creator id => exact named
      | entry n about =>
        rcases Store.names_entry_of_append rfl named with old | ⟨nobody, -⟩
        · exact old
        · cases nobody

/-- A call names nobody but the user in whose name it is made. -/
theorem ServiceCall.Effect.names {call : ServiceCall} (h : call.Effect c w w') (hk : w.store.Keyed)
    (alive : w.store.Alive) (named : w'.store.Names user m) :
    w.store.Names user m ∨ call.author? = some user ∧ m.isOfRequest = call.isOnRequest := by
  cases h with
  | nothing => exact .inl named
  | directory only =>
    rw [only.1] at named
    exact .inl named
  | created _ made =>
    subst made
    exact Workflows.names_created named
  | switched => exact Workflows.names_switched named
  | removed => exact Workflows.names_removed named
  | started _ _ made =>
    exact (Requests.names_started made named).imp_right fun ⟨same, kind⟩ => ⟨congrArg some same, kind⟩
  | decided stored reads decides =>
    exact (Requests.names_decided hk alive stored reads decides named).imp_right fun ⟨same, kind⟩ =>
      ⟨congrArg some same, kind⟩
  | swept breached => exact .inl (Sweep.names_of_breached hk alive breached named)

end Calls

end Approval
