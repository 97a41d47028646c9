import Approval.Proofs.Run.Change
import Approval.Proofs.Store.Verbatim

/-!
# Requests and their workflows

A workflow is never changed but for being active or not, and is not removed while a request of it is open.
So every open request has its workflow, and the plan of the request is the one that is read from it.
-/

namespace Approval

open Relation

/-- The row is that of the workflow of the request, and the plan of the request is the one that is read from
it. -/
structure Workflow.Anchors (row : Workflow) (r : Request) : Prop where
  id : row.id = r.workflowId
  plan : ∃ wf, row.readBack? = some wf ∧ r.plan = wf.plan

namespace Workflow.Anchors

variable {row : Workflow} {r q : Request}

/-- A request is that of the row that its workflow was read from. -/
lemma of_request {wf : Workflow} {id : RequestId} {requester : UserId} {payload : Json} {now : Instant}
    (read : row.readBack? = some wf) (made : wf.request id requester payload now = .ok r) : row.Anchors r := by
  obtain ⟨_, _, -, -, rfl⟩ := request_eq_ok_iff.mp made
  refine ⟨?_, wf, read, rfl⟩
  rw [eq_of_readBack? read]

/-- Whether the workflow is active does not matter. -/
lemma of_isActive (h : row.Anchors r) (isActive : Bool) : Workflow.Anchors { row with isActive } r where
  id := h.id
  plan := by
    obtain ⟨wf, read, plan⟩ := h.plan
    exact ⟨{ wf with isActive }, by rw [readBack?_isActive, read]; rfl, plan⟩

lemma of_same (h : row.Anchors r) (id : r.workflowId = q.workflowId) (plan : r.plan = q.plan) : row.Anchors q where
  id := h.id.trans id
  plan := plan ▸ h.plan

lemma steps (h : row.Anchors r) : r.plan.steps = row.steps := by
  obtain ⟨wf, read, plan⟩ := h.plan
  rw [plan, eq_of_readBack? read]
  rfl

/-- If the numbers in the conditions are what their texts read as, the plan is that of the row. -/
lemma plan_eq (h : row.Anchors r) (verbatim : ∀ v ∈ row.plan.values, v.Verbatim) : r.plan = row.plan := by
  obtain ⟨wf, read, plan⟩ := h.plan
  rw [plan, ((readBack?_eq_some_iff verbatim).mp read).2.2]

end Workflow.Anchors

/-! ### Stores -/

variable [Supply]

namespace Store

variable {s t : Store}

/-- Every open request has its workflow. -/
def Anchored (s : Store) : Prop :=
  ∀ r ∈ s.requests, r.isOpen = true → ∃ row ∈ s.workflows, row.Anchors r

/-- The second store has no workflow but those of the first one, active or not, and ones with new numbers. -/
structure Retains (s t : Store) : Prop where
  stored : s.workflowsStored ≤ t.workflowsStored
  rows : ∀ x ∈ t.workflows, (∃ row ∈ s.workflows, x = { row with isActive := x.isActive }) ∨
    ∃ n, s.workflowsStored ≤ n ∧ x.id = Supply.id .workflow (n + 1)

lemma Retains.of_same (workflows : t.workflows = s.workflows) (stored : t.workflowsStored = s.workflowsStored) :
    s.Retains t where
  stored := stored.ge
  rows := by
    rw [workflows]
    exact fun x hx => .inl ⟨x, hx, rfl⟩

lemma Retains.trans {u : Store} (h : s.Retains t) (h' : t.Retains u) : s.Retains u where
  stored := h.stored.trans h'.stored
  rows := by
    intro x hx
    rcases h'.rows x hx with ⟨row, hr, same⟩ | ⟨n, le, id⟩
    · rcases h.rows row hr with ⟨old, ho, before⟩ | ⟨n, le, id⟩
      · exact .inl ⟨old, ho, by rw [same, before]⟩
      · exact .inr ⟨n, le, by rw [same]; exact id⟩
    · exact .inr ⟨n, h.stored.trans le, id⟩

omit [Supply] in
/-- Open requests keep their workflows if these stay, active or not. -/
lemma Anchored.of_rows (h : s.Anchored)
    (requests : ∀ q ∈ t.requests, q.isOpen = true →
      ∃ r ∈ s.requests, r.isOpen = true ∧ r.workflowId = q.workflowId ∧ r.plan = q.plan)
    (workflows : ∀ r ∈ s.requests, r.isOpen = true → ∀ row ∈ s.workflows, row.id = r.workflowId →
      ∃ isActive, { row with isActive } ∈ t.workflows) : t.Anchored := by
  intro q hq isOpen
  obtain ⟨r, hr, is_open, id, plan⟩ := requests q hq isOpen
  obtain ⟨row, stored, anchors⟩ := h r hr is_open
  obtain ⟨isActive, kept⟩ := workflows r hr is_open row stored anchors.id
  exact ⟨_, kept, (anchors.of_isActive isActive).of_same id plan⟩

omit [Supply] in
@[simp] lemma openCount_eq_zero {id : WorkflowId} :
    s.openCount id = 0 ↔ ∀ r ∈ s.requests, r.workflowId = id → r.isOpen = false := by
  simp [openCount, List.countP_eq_zero]

end Store

/-! ### Changes -/

section Changes

variable {c : Context} {w w' : World}

/-- Recording a finding about what a row reads back as leaves open requests their workflows. -/
lemma Sweep.anchored_breached {escalate : Bool} {now : Instant} {f : Finding} (hk : w.store.Keyed)
    (current : (escalated escalate now f.request).isSome = true →
      ∃ row ∈ w.store.requests, row.readBack? = some f.request)
    (h : w.store.Anchored) : (breached escalate now f w).store.Anchored := by
  refine h.of_rows ?_ fun _ _ _ row stored _ => ⟨row.isActive, stored⟩
  intro q hq isOpen
  rcases mem_escalatedBy_of_reads hk current hq with old | ⟨row, stored, reads, marked, marks, rfl⟩
  · exact ⟨q, old, isOpen, rfl, rfl⟩
  · refine ⟨row, stored, ?_, rfl, rfl⟩
    obtain ⟨-, inProgress, -⟩ := escalated_eq_some.mp marks
    rw [Request.isOpen, ← Request.status_of_readBack? reads, inProgress]
    rfl

namespace Change

/-- Every change leaves open requests their workflows. -/
lemma anchored (h : Change c w w') (hk : w.store.Keyed) (ha : w.store.Anchored) : w'.store.Anchored := by
  cases h with
  | directory only =>
    rw [Store.Anchored, only.1]
    exact ha
  | workflowCreated =>
    refine ha.of_rows (fun q hq isOpen => ⟨q, hq, isOpen, rfl, rfl⟩) fun _ _ _ row stored _ => ?_
    exact ⟨row.isActive, List.mem_append_left _ stored⟩
  | @workflowSwitched id isActive =>
    refine ha.of_rows (fun q hq isOpen => ⟨q, hq, isOpen, rfl, rfl⟩) fun _ _ _ row stored _ => ?_
    refine ⟨if row.id = id then isActive else row.isActive, List.mem_map.mpr ⟨row, stored, ?_⟩⟩
    split <;> rfl
  | @workflowRemoved id actor idle =>
    refine ha.of_rows (fun q hq isOpen => ⟨q, hq, isOpen, rfl, rfl⟩) fun r hr isOpen row stored same => ?_
    refine ⟨row.isActive, List.mem_filter.mpr ⟨stored, ?_⟩⟩
    have other : row.id ≠ id := by
      rintro rfl
      rw [Store.openCount_eq_zero.mp idle r hr same.symm] at isOpen
      exact Bool.noConfusion isOpen
    simpa using other
  | requestStarted found _ made =>
    intro q hq isOpen
    rcases List.mem_append.mp hq with old | new
    · exact ha q old isOpen
    · obtain rfl := List.mem_singleton.mp new
      obtain ⟨row, at_id, read⟩ := Store.readOption_eq_ok_some.mp found
      exact ⟨row, List.mem_of_find?_eq_some at_id, .of_request read made⟩
  | requestDecided stored reads decides =>
    refine ha.of_rows (fun q hq isOpen => ?_) fun _ _ _ row stored _ => ⟨row.isActive, stored⟩
    rcases (Requests.mem_requests_decided hk stored reads decides).mp hq with ⟨old, -⟩ | rfl
    · exact ⟨q, old, isOpen, rfl, rfl⟩
    · refine ⟨_, stored, ?_, rfl, rfl⟩
      obtain ⟨_, _, _, _, _, grounds, -⟩ := Request.decide_eq_ok_iff.mp decides
      rw [Request.isOpen, ← Request.status_of_readBack? reads, grounds.isOpen]
      rfl
  | stepLate breached =>
    cases breached with
    | intro escalate stored reads => exact Sweep.anchored_breached hk (fun _ => ⟨_, stored, reads⟩) ha

/-- No change alters a workflow but for being active or not. -/
lemma retains (h : Change c w w') : w.store.Retains w'.store := by
  cases h with
  | directory only =>
    rw [only.1]
    exact .of_same rfl rfl
  | workflowCreated _ made =>
    refine ⟨Nat.le_succ _, fun x hx => ?_⟩
    rcases List.mem_append.mp hx with old | new
    · exact .inl ⟨x, old, rfl⟩
    · rw [List.mem_singleton.mp new, made]
      exact .inr ⟨_, le_rfl, rfl⟩
  | workflowSwitched => exact ⟨le_rfl, fun x hx => .inl (Workflows.mem_workflows_switched hx)⟩
  | workflowRemoved => exact ⟨le_rfl, fun x hx => .inl ⟨x, List.mem_of_mem_filter hx, rfl⟩⟩
  | requestStarted => exact .of_same rfl rfl
  | requestDecided => exact .of_same rfl rfl
  | stepLate breached =>
    cases breached with
    | intro => exact .of_same rfl rfl

end Change

/-- After any calls, every open request has its workflow. -/
theorem World.anchored_after (acts : List Act) : (World.after {} acts).store.Anchored :=
  after_empty (P := (·.store.Anchored)) (by simp [Store.Anchored]) (fun _ _ _ hk ha h => h.anchored hk ha) acts

end Changes

end Approval
