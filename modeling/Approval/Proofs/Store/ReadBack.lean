import Approval.Proofs.Result
import Approval.Store.Basic

/-!
# What reading a row keeps

A row that reads back is the same row but for the JSON values in it, whose numbers are read again, and
for the labels of its steps. In particular no row is read as one of another identity, version or time.
-/

namespace Approval

/-! ### Parts of rows -/

@[grind →] lemma Instant.eq_of_readBack? {t u : Instant} (h : t.readBack? = some u) : u = t := by
  simp only [Instant.readBack?, Option.ite_none_right_eq_some, Option.some.injEq] at h
  exact h.2.symm

lemma eq_of_readTime? {t u : Option Instant} (h : readTime? t = some u) : u = t := by
  cases t with
  | none => simpa [readTime?] using h.symm
  | some t =>
    simp only [readTime?, Option.map_eq_some_iff] at h
    obtain ⟨v, hv, rfl⟩ := h
    rw [Instant.eq_of_readBack? hv]

/-- The record of a step as it is read; one that does not read back stays as it is. -/
def StepRecord.asRead (s : StepRecord) : StepRecord := s.readBack?.getD s

section Fields

variable (s : StepRecord)

lemma StepRecord.asRead_eq :
    s.asRead = { s with status := s.asRead.status, note := s.asRead.note } := by
  simp only [StepRecord.asRead, StepRecord.readBack?, Option.bind_eq_bind]
  cases readNote? 2 s.note <;> rfl

@[simp] lemma StepRecord.asRead_order : s.asRead.order = s.order := by rw [asRead_eq]

@[simp] lemma StepRecord.asRead_name : s.asRead.name = s.name := by rw [asRead_eq]

@[simp] lemma StepRecord.asRead_startedAt : s.asRead.startedAt = s.startedAt := by rw [asRead_eq]

@[simp] lemma StepRecord.asRead_deadline : s.asRead.deadline = s.deadline := by rw [asRead_eq]

@[simp] lemma StepRecord.asRead_completedAt : s.asRead.completedAt = s.completedAt := by
  rw [asRead_eq]

@[simp] lemma StepRecord.asRead_outcome : s.asRead.outcome = s.outcome := by rw [asRead_eq]

@[simp] lemma StepRecord.asRead_actedBy : s.asRead.actedBy = s.actedBy := by rw [asRead_eq]

/-- A status is read as it is if its label tells it. -/
lemma StepRecord.asRead_status {s : StepRecord} (h : StepStatus.ofLabel s.status.label = s.status) :
    s.asRead.status = s.status := by
  simp only [StepRecord.asRead, StepRecord.readBack?, Option.bind_eq_bind]
  cases readNote? 2 s.note with
  | none => rfl
  | some note => exact h

end Fields

/-- What is read of a list is what is read of its members. -/
lemma eq_map_of_mapM {α : Type} {f : α → Option α} {as bs : List α} (h : as.mapM f = some bs) :
    bs = as.map fun a => (f a).getD a := by
  induction as generalizing bs with
  | nil => simpa using h.symm
  | cons a as ih =>
    simp only [List.mapM_cons, Option.bind_eq_bind, Option.bind_eq_some_iff, Option.pure_def,
      Option.some.injEq] at h
    obtain ⟨b, hb, bs', hbs, rfl⟩ := h
    simp [hb, ih hbs]

@[grind →]
lemma Plan.steps_of_readBack? {p q : Plan} (h : p.readBack? = some q) : q.steps = p.steps := by
  simp only [Plan.readBack?, Option.bind_eq_bind, Option.bind_eq_some_iff, Option.some.injEq] at h
  obtain ⟨rules, -, rfl⟩ := h
  rfl

/-! ### Workflows -/

/-- The workflow that a row reads back as differs in its rules at most. -/
lemma Workflow.eq_of_readBack? {row wf : Workflow} (h : row.readBack? = some wf) :
    wf = { row with rules := wf.rules } := by
  simp only [Workflow.readBack?, Option.bind_eq_bind, Option.bind_eq_some_iff, Option.some.injEq] at h
  obtain ⟨rules, -, created, hc, rfl⟩ := h
  rw [Instant.eq_of_readBack? hc]

/-- Whether a workflow is active does not matter to how its row reads. -/
@[simp] lemma Workflow.readBack?_isActive (row : Workflow) (isActive : Bool) :
    Workflow.readBack? { row with isActive } = row.readBack?.map fun wf => { wf with isActive } := by
  simp only [Workflow.readBack?, Option.bind_eq_bind]
  cases row.rules.mapM (Rule.readBack? 3) with
  | none => rfl
  | some rules => cases row.createdAt.readBack? <;> rfl

/-! ### Requests -/

/-- The request that a row reads back as differs in payload, plan and steps at most. -/
lemma Request.eq_of_readBack? {row r : Request} (h : row.readBack? = some r) :
    r = { row with payload := r.payload, plan := r.plan, steps := r.steps } := by
  simp only [Request.readBack?, Option.bind_eq_bind, Option.bind_eq_some_iff, Option.some.injEq] at h
  obtain ⟨payload, -, plan, -, steps, -, created, hc, updated, hu, completed, he, rfl⟩ := h
  rw [Instant.eq_of_readBack? hc, Instant.eq_of_readBack? hu, eq_of_readTime? he]

lemma Request.plan_readBack? {row r : Request} (h : row.readBack? = some r) :
    row.plan.readBack? = some r.plan := by
  simp only [Request.readBack?, Option.bind_eq_bind, Option.bind_eq_some_iff, Option.some.injEq] at h
  obtain ⟨payload, -, plan, hp, steps, -, created, -, updated, -, completed, -, rfl⟩ := h
  exact hp

@[grind →] lemma Request.plan_of_readBack? {row r : Request} (h : row.readBack? = some r) :
    r.plan.steps = row.plan.steps :=
  Plan.steps_of_readBack? (Request.plan_readBack? h)

@[grind →] lemma Request.steps_of_readBack? {row r : Request} (h : row.readBack? = some r) :
    r.steps = row.steps.map StepRecord.asRead := by
  simp only [Request.readBack?, Option.bind_eq_bind, Option.bind_eq_some_iff, Option.some.injEq] at h
  obtain ⟨payload, -, plan, -, steps, hs, created, -, updated, -, completed, -, rfl⟩ := h
  exact eq_map_of_mapM hs

section Fields

variable {row r : Request} (h : row.readBack? = some r)
include h

@[grind →] lemma Request.id_of_readBack? : r.id = row.id := by rw [Request.eq_of_readBack? h]

@[grind →] lemma Request.workflowName_of_readBack? : r.workflowName = row.workflowName := by
  rw [Request.eq_of_readBack? h]

@[grind →]
lemma Request.status_of_readBack? : r.status = row.status := by rw [Request.eq_of_readBack? h]

@[grind →]
lemma Request.version_of_readBack? : r.version = row.version := by rw [Request.eq_of_readBack? h]

@[grind →] lemma Request.createdAt_of_readBack? : r.createdAt = row.createdAt := by
  rw [Request.eq_of_readBack? h]

@[grind →] lemma Request.completedAt_of_readBack? : r.completedAt = row.completedAt := by
  rw [Request.eq_of_readBack? h]

/-- The steps that are read are those of the row, each as it is read. -/
lemma Request.getElem?_steps_of_readBack? {i : Nat} {s : StepRecord} :
    r.steps[i]? = some s ↔ ∃ t, row.steps[i]? = some t ∧ t.asRead = s := by
  rw [Request.steps_of_readBack? h, List.getElem?_map, Option.map_eq_some_iff]

end Fields

end Approval
