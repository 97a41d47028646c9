import Approval.Proofs.Store.Rows
import Approval.Proofs.Work
import Approval.Service.Workflows

/-!
# What operations on workflows do

A workflow is stored as it was checked, switched on and off, and removed when no request of it is open.
Each of the three writes one audit entry, which is about no request.
-/

namespace Approval.Workflows

open Work Operation

variable {c : Context} {w w' : World}

/-! ### Creating -/

/-- The audit note about a new workflow. -/
def creationNote (wf : Workflow) : AuditNote :=
  note .workflowCreated wf.id wf.createdBy (some (details wf)) wf.createdAt

variable [Supply]

/-- The world after a workflow was created. -/
def created (wf : Workflow) (w : World) : World :=
  { w with store := { w.store with
      workflows := w.store.workflows ++ [wf]
      workflowsStored := w.store.workflowsStored + 1
      audit := w.store.audit ++ [w.store.entry (creationNote wf)] } }

/-- A workflow is created exactly if its draft is accepted and its identifier and name are new. -/
lemma create_eq_ok_iff {d : Draft} {createdBy : Option UserId} {wf : Workflow} :
    create d createdBy c w = (.ok wf, w') ↔
      d.normalize.verify = .ok () ∧ wf = ofDraft d.normalize w.store.nextWorkflowId createdBy c.now ∧
        (∀ x ∈ w.store.workflows, x.id ≠ wf.id ∧ x.name ≠ wf.name) ∧
        (∀ e ∈ w.store.audit, e.id ≠ w.store.nextAuditId) ∧ w' = created wf w := by
  simp only [create, bind_eq_ok_iff, ofResult_run, now_run, ask_run, pure_run, change, write_eq_ok_iff,
    Store.addWorkflow_eq_ok_iff, Prod.mk.injEq, Except.ok.injEq]
  constructor
  · rintro ⟨_, _, ⟨accepted, rfl⟩, _, _, ⟨rfl, rfl⟩, _, _, ⟨rfl, rfl⟩, _, _,
      ⟨_, ⟨new, fresh, rfl⟩, rfl⟩, rfl, rfl⟩
    exact ⟨accepted, rfl, new, fresh, rfl⟩
  · rintro ⟨accepted, rfl, new, fresh, rfl⟩
    exact ⟨_, _, ⟨accepted, rfl⟩, _, _, ⟨rfl, rfl⟩, _, _, ⟨rfl, rfl⟩, (), _,
      ⟨_, ⟨new, fresh, rfl⟩, rfl⟩, rfl, rfl⟩

lemma create_atomic (d : Draft) (createdBy : Option UserId) : (create d createdBy).Atomic := by
  apply Atomic.of_inert_bind (.ofResult _)
  intro _
  apply Atomic.of_inert_bind .now
  intro now
  apply Atomic.of_inert_bind (ask_inert _)
  intro id
  exact (write_atomic _ _).bind_sure fun _ => .pure _

/-! ### Switching -/

/-- The audit note about a workflow that was switched on or off. -/
def switchNote (id : WorkflowId) (isActive : Bool) (actor : Option UserId) (now : Instant) : AuditNote :=
  note (if isActive then .workflowActivated else .workflowDeactivated) id actor none now

/-- The world after a workflow was switched on or off. -/
def switched (id : WorkflowId) (isActive : Bool) (actor : Option UserId) (now : Instant) (w : World) :
    World :=
  { w with store := { w.store with
      workflows := w.store.workflows.map fun x => if x.id = id then { x with isActive } else x
      audit := w.store.audit ++ [w.store.entry (switchNote id isActive actor now)] } }

/-- Switching a workflow changes it or nothing, also when the workflow then does not read back. -/
lemma setActive_cases (id : WorkflowId) (isActive : Bool) (actor : Option UserId) :
    (setActive id isActive actor c w).2 = w ∨
      ((∃ x ∈ w.store.workflows, x.id = id) ∧ (∀ e ∈ w.store.audit, e.id ≠ w.store.nextAuditId) ∧
        (setActive id isActive actor c w).2 = switched id isActive actor c.now w) := by
  unfold setActive
  rw [bind_of_ok now_run]
  cases written : w.store.setActive id isActive (w.store.entry (switchNote id isActive actor c.now)) with
  | error e => exact .inl (by rw [bind_of_error (write_eq_error_iff.mpr ⟨e, written, rfl, rfl⟩)])
  | ok s =>
    rw [bind_of_ok ((write_eq_ok_iff (u := ())).mpr ⟨s, written, rfl⟩)]
    obtain ⟨known, fresh, rfl⟩ := Store.setActive_eq_ok_iff.mp written
    exact .inr ⟨known, fresh, readOr_inert _ _ c _⟩

/-- A workflow after one was switched is one of before, perhaps active or not. -/
lemma mem_workflows_switched {id : WorkflowId} {isActive : Bool} {actor : Option UserId} {now : Instant}
    {x : Workflow} (h : x ∈ (switched id isActive actor now w).store.workflows) :
    ∃ row ∈ w.store.workflows, x = { row with isActive := x.isActive } := by
  obtain ⟨row, stored, rfl⟩ := List.mem_map.mp h
  refine ⟨row, stored, ?_⟩
  split <;> rfl

/-- If rows of workflows read back, a workflow is switched or nothing is changed: the one that was switched
is there to be read. -/
lemma setActive_refused {id : WorkflowId} {isActive : Bool} {actor : Option UserId} {e : Failure}
    (reads : ∀ row ∈ w.store.workflows, ∃ wf, row.readBack? = some wf)
    (h : setActive id isActive actor c w = (.error e, w')) : w' = w := by
  unfold setActive at h
  rw [bind_of_ok now_run] at h
  rcases bind_eq_error_iff.mp h with refused | ⟨_, v, written, fails⟩
  · exact write_atomic _ _ c w e w' refused
  · obtain ⟨s, accepted, rfl⟩ := write_eq_ok_iff.mp written
    obtain ⟨⟨x, stored, same⟩, -, rfl⟩ := Store.setActive_eq_ok_iff.mp accepted
    have known : ∃ y ∈ (switched id isActive actor c.now w).store.workflows, y.id = id := by
      refine ⟨{ x with isActive }, List.mem_map.mpr ⟨x, stored, ?_⟩, same⟩
      simp [same]
    obtain ⟨wf, found⟩ := Store.exists_workflow? known fun row switched => by
      obtain ⟨old, stored, same⟩ := mem_workflows_switched switched
      obtain ⟨wf, read⟩ := reads old stored
      exact ⟨_, by rw [same, Workflow.readBack?_isActive, read]; rfl⟩
    have answers : get id c (switched id isActive actor c.now w) =
        (.ok wf, switched id isActive actor c.now w) := readOr_eq_ok_iff.mpr ⟨found, rfl⟩
    exact absurd (fails.symm.trans answers) (by simp)

/-! ### Removing -/

/-- The audit note about a workflow that was removed. -/
def removalNote (id : WorkflowId) (actor : Option UserId) (now : Instant) : AuditNote :=
  note .workflowDeleted id actor none now

/-- The world after a workflow was removed. -/
def removed (id : WorkflowId) (actor : Option UserId) (now : Instant) (w : World) : World :=
  { w with store := { w.store with
      workflows := w.store.workflows.filter (·.id ≠ id)
      audit := w.store.audit ++ [w.store.entry (removalNote id actor now)] } }

/-- A workflow is removed exactly if it exists and no request of it is open. -/
lemma remove_eq_ok_iff {id : WorkflowId} {actor : Option UserId} {u : Unit} :
    remove id actor c w = (.ok u, w') ↔
      w.store.openCount id = 0 ∧ (∃ x ∈ w.store.workflows, x.id = id) ∧
        (∀ e ∈ w.store.audit, e.id ≠ w.store.nextAuditId) ∧ w' = removed id actor c.now w := by
  simp only [remove, bind_eq_ok_iff, now_run, write_eq_ok_iff, Store.removeWorkflow_eq_ok_iff,
    Prod.mk.injEq, Except.ok.injEq]
  constructor
  · rintro ⟨_, _, ⟨rfl, rfl⟩, _, ⟨none_open, known, fresh, rfl⟩, rfl⟩
    exact ⟨none_open, known, fresh, rfl⟩
  · rintro ⟨none_open, known, fresh, rfl⟩
    exact ⟨_, _, ⟨rfl, rfl⟩, _, ⟨none_open, known, fresh, rfl⟩, rfl⟩

lemma remove_atomic (id : WorkflowId) (actor : Option UserId) : (remove id actor).Atomic :=
  .of_inert_bind .now fun _ => write_atomic _ _

end Approval.Workflows
