import Approval.Proofs.Run.Lifecycle
import Approval.Proofs.Store.Verbatim

/-!
# What holds of every row

Something that holds of each workflow when it is created and of each request when it is started, and that
switching, decisions and escalation keep, holds of all rows after every run. The runs may be those of
certain calls only, for instance of those whose JSON values are read as they were handed in.
-/

namespace Approval

open Relation

/-- The JSON values that a call hands in: those of conditions, the payload of a request or the context of
a decision. -/
def ServiceCall.values : ServiceCall → List Json
  | .createWorkflow d _ => d.rules.filterMap Rule.value?
  | .start _ _ payload => [payload]
  | .process _ _ d => d.context.toList
  | _ => []

/-- The context of the decision that a call is for. -/
def ServiceCall.context? : ServiceCall → Option Json
  | .process _ _ d => d.context
  | _ => none

/-- All workflows of a store have one property and all requests another one. -/
structure Store.Holds (W : Workflow → Prop) (P : Request → Prop) (s : Store) : Prop where
  workflows : ∀ wf ∈ s.workflows, W wf
  requests : ∀ r ∈ s.requests, P r

/-- A property of workflows and one of requests that acts of some kind bring about and keep. -/
structure RowInvariant (A : Act → Prop) (W : Workflow → Prop) (P : Request → Prop) : Prop where
  created {c : Context} {d : Draft} {createdBy : Option UserId} (id : WorkflowId)
    (act : A ⟨c, .createWorkflow d createdBy⟩) (accepted : d.normalize.verify = .ok ()) :
    W (Workflows.ofDraft d.normalize id createdBy c.now)
  switched {wf : Workflow} (isActive : Bool) (before : W wf) : W { wf with isActive }
  started {c : Context} {workflowId : WorkflowId} {requester : UserId} {payload : Json}
    {row wf : Workflow} {id : RequestId} {r : Request} (act : A ⟨c, .start workflowId requester payload⟩)
    (stored : W row) (reads : row.readBack? = some wf)
    (made : wf.request id requester payload c.now = .ok r) : P r
  decided {c : Context} {actor : Actor} {d : Decision} {row r : Request} {x : Decided}
    (act : A ⟨c, .process row.id actor d⟩) (alive : row.Lifecycle) (before : P row)
    (reads : row.readBack? = some r) (decides : r.decide actor d c.now = .ok x) :
    P (Store.updateRow row x.request)
  escalated {c : Context} {escalate : Bool} {row r marked : Request} (act : A ⟨c, .sweep⟩)
    (alive : row.Lifecycle) (before : P row) (reads : row.readBack? = some r)
    (marks : Sweep.escalated escalate c.now r = some marked) : P (Store.updateRow row marked)

namespace RowInvariant

variable [Supply] {A : Act → Prop} {W : Workflow → Prop} {P : Request → Prop} {c : Context} {w w' : World}

/-- Recording a late step keeps what holds of all rows. -/
lemma holds_breached (inv : RowInvariant A W P) (act : A ⟨c, .sweep⟩) (hk : w.store.Keyed)
    (alive : w.store.Alive) (holds : w.store.Holds W P) (h : Sweep.Breached c w w') :
    w'.store.Holds W P := by
  cases h with
  | @intro escalate f row stored reads =>
    refine ⟨holds.workflows, ?_⟩
    intro r hr
    rcases Sweep.mem_escalatedBy_of_reads hk (fun _ => ⟨row, stored, reads⟩) hr with
      old | ⟨found, mem, reads, marked, marks, rfl⟩
    · exact holds.requests r old
    · exact inv.escalated act (alive found mem) (holds.requests found mem) reads marks

lemma holds_swept (inv : RowInvariant A W P) (act : A ⟨c, .sweep⟩) (hk : w.store.Keyed)
    (alive : w.store.Alive) (holds : w.store.Holds W P) (h : ReflTransGen (Sweep.Breached c) w w') :
    w'.store.Holds W P := by
  have all : w'.store.Keyed ∧ w'.store.Alive ∧ w'.store.Holds W P := by
    induction h with
    | refl => exact ⟨hk, alive, holds⟩
    | tail _ breached ih =>
      obtain ⟨hk, alive, holds⟩ := ih
      have change := Change.stepLate breached
      exact ⟨change.keyed hk, change.alive hk alive, inv.holds_breached act hk alive holds breached⟩
  exact all.2.2

/-- Every act of the kind keeps what holds of all rows. -/
lemma holds_effect (inv : RowInvariant A W P) {call : ServiceCall} (act : A ⟨c, call⟩)
    (hk : w.store.Keyed) (alive : w.store.Alive) (holds : w.store.Holds W P)
    (h : call.Effect c w w') : w'.store.Holds W P := by
  cases h with
  | nothing => exact holds
  | directory only =>
    rw [only.1]
    exact ⟨holds.workflows, holds.requests⟩
  | created accepted made =>
    refine ⟨?_, holds.requests⟩
    intro wf hwf
    rcases List.mem_append.mp hwf with old | new
    · exact holds.workflows wf old
    · obtain rfl := (List.mem_singleton.mp new).trans made
      exact inv.created _ act accepted
  | switched isActive =>
    refine ⟨?_, holds.requests⟩
    intro wf hwf
    obtain ⟨x, hx, rfl⟩ := List.mem_map.mp hwf
    split
    · exact inv.switched isActive (holds.workflows x hx)
    · exact holds.workflows x hx
  | removed => exact ⟨fun wf hwf => holds.workflows wf (List.mem_of_mem_filter hwf), holds.requests⟩
  | started found active made =>
    refine ⟨holds.workflows, ?_⟩
    intro r hr
    rcases List.mem_append.mp hr with old | new
    · exact holds.requests r old
    · obtain rfl := List.mem_singleton.mp new
      obtain ⟨row, hf, reads⟩ := Store.readOption_eq_ok_some.mp found
      exact inv.started act (holds.workflows row (List.mem_of_find?_eq_some hf)) reads made
  | @decided row _ _ _ _ stored reads decides =>
    refine ⟨holds.workflows, ?_⟩
    intro r hr
    rcases (Requests.mem_requests_decided hk stored reads decides).mp hr with ⟨old, -⟩ | rfl
    · exact holds.requests r old
    · exact inv.decided act (alive row stored) (holds.requests row stored) reads decides
  | swept breached => exact inv.holds_swept act hk alive holds breached

/-- Acts of the kind keep what holds of all rows. -/
theorem holds_after (inv : RowInvariant A W P) (hk : w.store.Keyed) (alive : w.store.Alive)
    (holds : w.store.Holds W P) (acts : List Act) (allowed : ∀ a ∈ acts, A a) :
    (w.after acts).store.Holds W P := by
  induction acts generalizing w with
  | nil => exact holds
  | cons a acts ih =>
    have act := allowed a List.mem_cons_self
    obtain ⟨hk', alive'⟩ := World.preserved_of_changes (P := fun w => w.store.Alive) hk alive
      (fun _ _ hk ha change => change.alive hk ha) (a.call.run_changes hk)
    have holds' := inv.holds_effect act hk alive holds (a.call.run_effect hk)
    exact ih hk' alive' holds' fun b hb => allowed b (List.mem_cons_of_mem a hb)

/-- What acts bring about and keep holds of all rows after every run of such acts. -/
theorem after_empty (inv : RowInvariant A W P) (acts : List Act) (allowed : ∀ a ∈ acts, A a) :
    (World.after {} acts).store.Holds W P :=
  inv.holds_after World.keyed_empty (World.alive_after []) ⟨by simp, by simp⟩ acts allowed

end RowInvariant

/-! ### Values -/

/-- The call hands in values whose numbers are what their texts read as. -/
def Act.Verbatim (a : Act) : Prop := ∀ v ∈ a.call.values, v.Verbatim

lemma Workflows.values_ofDraft (d : Draft) (id : WorkflowId) (createdBy : Option UserId)
    (now : Instant) : (ofDraft d.normalize id createdBy now).plan.values = d.rules.filterMap Rule.value? := by
  simp only [Plan.values, Workflow.plan, ofDraft, Draft.normalize, List.filterMap_map]
  rfl

lemma Workflow.parts_of_request {wf : Workflow} {id : RequestId} {requester : UserId} {payload : Json}
    {now : Instant} {r : Request} (h : wf.request id requester payload now = .ok r) :
    r.plan = wf.plan ∧ r.payload = payload ∧ r.notes = [] := by
  obtain ⟨first, deadline, -, -, rfl⟩ := Workflow.request_eq_ok_iff.mp h
  exact ⟨rfl, rfl, rfl⟩

/-- Values that are handed in with numbers as their texts read stay so in the rows. -/
lemma rowInvariant_verbatim :
    RowInvariant Act.Verbatim (fun wf => ∀ v ∈ wf.plan.values, v.Verbatim) Request.Verbatim where
  created id act _ := by
    rw [Workflows.values_ofDraft]
    exact act
  switched _ before := before
  started act stored reads made := by
    obtain ⟨plan, payload, notes⟩ := Workflow.parts_of_request made
    obtain ⟨-, -, rfl⟩ := (Workflow.readBack?_eq_some_iff stored).mp reads
    rw [Request.verbatim_iff, plan, payload, notes]
    exact ⟨act _ (by simp [ServiceCall.values]), stored, by simp⟩
  decided act alive before reads decides := by
    rw [before.updateRow_decide alive reads decides]
    obtain rfl := before.eq_tidy_of_readBack? alive reads
    refine before.tidy.decide (alive.readBack reads) decides ?_
    intro v hv
    exact act v (by simp [ServiceCall.values, hv])
  escalated _ alive before reads marks := by
    rw [before.updateRow_escalated alive reads marks]
    obtain rfl := before.eq_tidy_of_readBack? alive reads
    obtain ⟨-, -, rfl⟩ := Sweep.escalated_eq_some.mp marks
    exact before.tidy

/-! ### Rows that are read as they were written -/

/-- A property of workflows and one of requests that acts of some kind bring about and keep, as long as
rows are read as they were written, with or without their null notes. -/
structure ReadInvariant (A : Act → Prop) (W : Workflow → Prop) (P : Request → Prop) : Prop where
  created {c : Context} {d : Draft} {createdBy : Option UserId} (id : WorkflowId)
    (act : A ⟨c, .createWorkflow d createdBy⟩) : W (Workflows.ofDraft d.normalize id createdBy c.now)
  switched {wf : Workflow} (isActive : Bool) (before : W wf) : W { wf with isActive }
  started {c : Context} {workflowId : WorkflowId} {requester : UserId} {payload : Json} {wf : Workflow}
    {id : RequestId} {r : Request} (act : A ⟨c, .start workflowId requester payload⟩) (stored : W wf)
    (made : wf.request id requester payload c.now = .ok r) : P r
  tidy {r : Request} (before : P r) : P r.tidy
  decided {c : Context} {actor : Actor} {d : Decision} {r : Request} {x : Decided}
    (act : A ⟨c, .process r.id actor d⟩) (alive : r.Lifecycle) (before : P r)
    (decides : r.decide actor d c.now = .ok x) : P x.request
  escalated {c : Context} {escalate : Bool} {r marked : Request} (act : A ⟨c, .sweep⟩)
    (alive : r.Lifecycle) (before : P r) (marks : Sweep.escalated escalate c.now r = some marked) : P marked

/-- Acts that hand in values with numbers as their texts read leave rows that are read as they were
written, so that what is decided on is what was written. -/
lemma ReadInvariant.rowInvariant {A : Act → Prop} {W : Workflow → Prop} {P : Request → Prop}
    (inv : ReadInvariant A W P) :
    RowInvariant (fun a => A a ∧ a.Verbatim) (fun wf => (∀ v ∈ wf.plan.values, v.Verbatim) ∧ W wf)
      (fun r => r.Verbatim ∧ P r) where
  created id act accepted := ⟨rowInvariant_verbatim.created id act.2 accepted, inv.created id act.1⟩
  switched isActive before := ⟨before.1, inv.switched isActive before.2⟩
  started act stored reads made := by
    refine ⟨rowInvariant_verbatim.started act.2 stored.1 reads made, ?_⟩
    obtain ⟨-, -, rfl⟩ := (Workflow.readBack?_eq_some_iff stored.1).mp reads
    exact inv.started act.1 stored.2 made
  decided act alive before reads decides := by
    obtain ⟨verbatim, holds⟩ := before
    refine ⟨rowInvariant_verbatim.decided act.2 alive verbatim reads decides, ?_⟩
    rw [verbatim.updateRow_decide alive reads decides]
    obtain rfl := verbatim.eq_tidy_of_readBack? alive reads
    refine inv.decided ?_ (alive.readBack reads) (inv.tidy holds) decides
    exact act.1
  escalated act alive before reads marks := by
    obtain ⟨verbatim, holds⟩ := before
    refine ⟨rowInvariant_verbatim.escalated act.2 alive verbatim reads marks, ?_⟩
    rw [verbatim.updateRow_escalated alive reads marks]
    obtain rfl := verbatim.eq_tidy_of_readBack? alive reads
    exact inv.escalated act.1 (alive.readBack reads) (inv.tidy holds) marks

/-- The call hands in values whose numbers are what their texts read as, and no null context. -/
structure Act.Faithful (a : Act) : Prop where
  verbatim : a.Verbatim
  context : a.call.context? ≠ some .null

/-- A property of requests that acts of some kind bring about and keep, as long as requests are read as
they were written. -/
structure RequestInvariant (A : Act → Prop) (P : Request → Prop) : Prop where
  started {c : Context} {workflowId : WorkflowId} {requester : UserId} {payload : Json} {wf : Workflow}
    {id : RequestId} {r : Request} (act : A ⟨c, .start workflowId requester payload⟩)
    (made : wf.request id requester payload c.now = .ok r) : P r
  decided {c : Context} {actor : Actor} {d : Decision} {r : Request} {x : Decided}
    (act : A ⟨c, .process r.id actor d⟩) (alive : r.Lifecycle) (before : P r)
    (decides : r.decide actor d c.now = .ok x) : P x.request
  escalated {c : Context} {escalate : Bool} {r marked : Request} (act : A ⟨c, .sweep⟩)
    (alive : r.Lifecycle) (before : P r) (marks : Sweep.escalated escalate c.now r = some marked) :
    P marked

namespace RequestInvariant

variable {A : Act → Prop} {P : Request → Prop}

/-- Without null contexts there are no null notes that are lost. -/
lemma readInvariant (inv : RequestInvariant A P) :
    ReadInvariant (fun a => A a ∧ a.Faithful) (fun _ => True)
      (fun r => (∀ v ∈ r.notes, v ≠ .null) ∧ P r) where
  created _ _ := trivial
  switched _ _ := trivial
  started act _ made := by
    obtain ⟨-, -, notes⟩ := Workflow.parts_of_request made
    exact ⟨by simp [notes], inv.started act.1 made⟩
  tidy before := by
    rw [Request.tidy_of_ne_null before.1]
    exact before
  decided act alive before decides := by
    refine ⟨?_, inv.decided act.1 alive before.2 decides⟩
    rintro v hv rfl
    exact (Request.mem_notes_of_decide alive decides hv).elim (fun old => before.1 _ old rfl) act.2.context
  escalated act alive before marks := by
    refine ⟨?_, inv.escalated act.1 alive before.2 marks⟩
    obtain ⟨-, -, rfl⟩ := Sweep.escalated_eq_some.mp marks
    exact before.1

variable [Supply] in
/-- What faithful acts bring about and keep holds of all requests after every run of such acts. -/
theorem after_empty (inv : RequestInvariant A P) (acts : List Act) (allowed : ∀ a ∈ acts, A a)
    (faithful : ∀ a ∈ acts, a.Faithful) {r : Request}
    (h : r ∈ (World.after {} acts).store.requests) : r.Faithful ∧ P r := by
  obtain ⟨verbatim, notes, holds⟩ := (inv.readInvariant.rowInvariant.after_empty acts fun a ha =>
    ⟨⟨allowed a ha, faithful a ha⟩, (faithful a ha).verbatim⟩).requests r h
  exact ⟨⟨verbatim, notes⟩, holds⟩

end RequestInvariant

end Approval
