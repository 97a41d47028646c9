import Approval.Proofs.Run.Basic
import Approval.Proofs.Service.Directory
import Approval.Proofs.Service.Requests
import Approval.Proofs.Service.Sweep
import Approval.Proofs.Service.Workflows

/-!
# What calls do

A call leaves the world as it was or does the one thing that it is for. This is said once for every call;
what calls keep and bring about is read off it by cases.
-/

namespace Approval

open Relation

variable [Supply]

/-- What a call does to the world under a context. A call that is refused does nothing. -/
inductive ServiceCall.Effect (c : Context) (w : World) : ServiceCall → World → Prop
  | nothing (call : ServiceCall) : Effect c w call w
  | directory {call : ServiceCall} {w' : World} (only : Directory.Only c w w') : Effect c w call w'
  | created {d : Draft} {createdBy : Option UserId} {wf : Workflow}
      (accepted : d.normalize.verify = .ok ())
      (made : wf = Workflows.ofDraft d.normalize w.store.nextWorkflowId createdBy c.now)
      (new : ∀ x ∈ w.store.workflows, x.name ≠ wf.name)
      (fresh : ∀ e ∈ w.store.audit, e.id ≠ w.store.nextAuditId) :
      Effect c w (.createWorkflow d createdBy) (Workflows.created wf w)
  | switched {id : WorkflowId} (isActive : Bool) (actor : Option UserId)
      (known : ∃ x ∈ w.store.workflows, x.id = id)
      (fresh : ∀ e ∈ w.store.audit, e.id ≠ w.store.nextAuditId) :
      Effect c w (.switchWorkflow id isActive actor) (Workflows.switched id isActive actor c.now w)
  | removed {id : WorkflowId} (actor : Option UserId) (idle : w.store.openCount id = 0)
      (known : ∃ x ∈ w.store.workflows, x.id = id)
      (fresh : ∀ e ∈ w.store.audit, e.id ≠ w.store.nextAuditId) :
      Effect c w (.removeWorkflow id actor) (Workflows.removed id actor c.now w)
  | started {id : WorkflowId} {wf : Workflow} {requester : UserId} {payload : Json} {r : Request}
      {first : Step} (found : w.store.workflow? id = .ok (some wf)) (active : wf.isActive = true)
      (made : wf.request w.store.nextRequestId requester payload c.now = .ok r)
      (new : ∀ row ∈ w.store.requests, row.id ≠ r.id)
      (fresh : ∀ e ∈ w.store.audit, e.id ≠ w.store.nextAuditId) (begins : r.plan.step? 1 = some first) :
      Effect c w (.start id requester payload) (Requests.started wf r first w)
  | decided {row current : Request} {actor : Actor} {d : Decision} {x : Decided}
      (stored : row ∈ w.store.requests) (reads : row.readBack? = some current)
      (decides : current.decide actor d c.now = .ok x)
      (fresh : ∀ e ∈ w.store.audit, e.id ≠ w.store.nextAuditId) :
      Effect c w (.process row.id actor d) (Requests.decided x w)
  | swept {w' : World} (breached : ReflTransGen (Sweep.Breached c) w w') : Effect c w .sweep w'

namespace ServiceCall

variable {c : Context} {w : World}

lemma Effect.of_within {α : Type} {x : Operation α} (h : x.Within Directory.Only) (call : ServiceCall) :
    call.Effect c w (x c w).2 :=
  .directory (h c w)

/-- Work that changes nothing when it fails does what it does when it answers. -/
lemma Effect.of_atomic {α : Type} {x : Operation α} (h : x.Atomic) {call : ServiceCall}
    (answers : ∀ a w', x c w = (.ok a, w') → call.Effect c w w') : call.Effect c w (x c w).2 := by
  rcases run : x c w with ⟨e | a, w'⟩
  · obtain rfl := h c w e w' run
    exact .nothing call
  · exact answers a w' run

/-- Every call has the effect that is described for it. -/
theorem run_effect (hk : w.store.Keyed) (call : ServiceCall) : call.Effect c w (call.run c w) := by
  cases call with
  | createPermission d => exact .of_within (Directory.createPermission_writes d).within _
  | createRole d => exact .of_within (Directory.createRole_writes d).within _
  | createUser d => exact .of_within (Directory.createUser_writes d).within _
  | grant role permission => exact .of_within (Directory.grant_writes role permission).within _
  | assign username role => exact .of_within (Directory.assign_writes username role).within _
  | deactivate username => exact .of_within (Directory.deactivate_writes username).within _
  | issueToken username label => exact .of_within (Directory.issueToken_writes username label).within _
  | createWorkflow d createdBy =>
    apply Effect.of_atomic (Workflows.create_atomic d createdBy)
    intro wf w' answers
    obtain ⟨accepted, made, new, fresh, rfl⟩ := Workflows.create_eq_ok_iff.mp answers
    exact .created accepted made (fun x stored => (new x stored).2) fresh
  | switchWorkflow id isActive actor =>
    rcases Workflows.setActive_cases id isActive actor with same | ⟨known, fresh, changed⟩
    · rw [run, same]
      exact .nothing _
    · rw [run, changed]
      exact .switched isActive actor known fresh
  | removeWorkflow id actor =>
    apply Effect.of_atomic (Workflows.remove_atomic id actor)
    intro _ w' answers
    obtain ⟨idle, known, fresh, rfl⟩ := Workflows.remove_eq_ok_iff.mp answers
    exact .removed actor idle known fresh
  | start id requester payload =>
    apply Effect.of_atomic (Requests.start_atomic id requester payload)
    intro r w' answers
    obtain ⟨wf, found, active, entered⟩ := Requests.start_eq_ok_iff.mp answers
    obtain ⟨made, -, new, fresh, first, begins, rfl⟩ := Requests.enter_eq_ok_iff.mp entered
    exact .started found active made new fresh begins
  | process id actor d =>
    apply Effect.of_atomic (Requests.process_atomic id actor d)
    intro r w' answers
    obtain ⟨row, stored, current, x, rfl, reads, decides, fresh, -, rfl⟩ :=
      (Requests.process_eq_ok_iff hk).mp answers
    exact .decided stored reads decides fresh
  | sweep => exact .swept (Sweep.once_spec hk)

end ServiceCall

end Approval
