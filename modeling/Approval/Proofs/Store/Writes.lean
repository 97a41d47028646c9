import Approval.Proofs.Store.Rows
import Approval.Proofs.Work

/-!
# Writes do all or nothing

Whatever is stored and whatever is handed in, a write that belongs to an audit entry makes all its changes
and appends the entry, or it changes nothing. When it does which, and what the changes are, is said apart
from how it is done: some of the reasons to give up show only after the first change.
-/

namespace Approval

open Work Operation

namespace Store

/-- The writes that belong to an audit entry. -/
inductive Write
  | addRequest (r : Request)
  | saveRequest (r : Request) (expected : Int)
  | addBreach (b : Breach) (escalated : Option (Request × Int))
  | addWorkflow (wf : Workflow)
  | setActive (id : WorkflowId) (isActive : Bool)
  | removeWorkflow (id : WorkflowId)

/-- No entry of the audit log has the identifier of the given one. -/
def IsNewEntry (s : Store) (e : AuditEntry) : Prop := ∀ x ∈ s.audit, x.id ≠ e.id

namespace Write

/-- Record a late step, and answer whether it was new. -/
def record (b : Breach) (e : AuditEntry) (escalated : Option (Request × Int)) : Operation Bool := fun _ w =>
  match w.store.addBreach b e escalated with
  | .ok (new, s) => (.ok new, { w with store := s })
  | .error fault => (.error (.ofStore fault), w)

/-- The write with its entry as an operation. Only a breach may be none that is new. -/
def operation (e : AuditEntry) : Write → Operation Bool
  | .addRequest r => do change (·.addRequest r e); return true
  | .saveRequest r expected => do change (·.saveRequest r expected e); return true
  | .addBreach b escalated => record b e escalated
  | .addWorkflow wf => do change (·.addWorkflow wf e); return true
  | .setActive id isActive => do change (·.setActive id isActive e); return true
  | .removeWorkflow id => do change (·.removeWorkflow id e); return true

/-- The request that is changed, and the version that it is expected to have. -/
def target? : Write → Option (Request × Int)
  | .saveRequest r expected => some (r, expected)
  | .addBreach _ escalated => escalated
  | _ => none

/-- The breach to be recorded. -/
def breach? : Write → Option Breach
  | .addBreach b _ => some b
  | _ => none

/-- The breach to be recorded is stored already. -/
def IsRecorded (s : Store) (x : Write) : Prop := ∃ b, x.breach? = some b ∧ ∃ y ∈ s.breaches, b.isSame y = true

/-- What the write asks of the rows. -/
def Admissible (s : Store) : Write → Prop
  | .addRequest r =>
    (∃ wf, s.workflows.find? (·.id = r.workflowId) = some wf ∧ wf.isActive = true) ∧
      ∀ row ∈ s.requests, row.id ≠ r.id
  | .saveRequest r expected => s.HasAt r.id expected
  | .addBreach b escalated =>
    (∀ y ∈ s.breaches, b.isSame y = false) ∧ (∃ row ∈ s.requests, row.id = b.requestId) ∧
      ∀ r expected, escalated = some (r, expected) → s.HasAt r.id expected
  | .addWorkflow wf => ∀ row ∈ s.workflows, row.id ≠ wf.id ∧ row.name ≠ wf.name
  | .setActive id _ => ∃ row ∈ s.workflows, row.id = id
  | .removeWorkflow id => s.openCount id = 0 ∧ ∃ row ∈ s.workflows, row.id = id

/-- The store with all changes of rows that the write is for. -/
def made (s : Store) : Write → Store
  | .addRequest r => { s with requests := s.requests ++ [r] }
  | .saveRequest r expected => { s with requests := s.replacedAt r expected }
  | .addBreach b escalated =>
    { s with requests := s.escalatedAt escalated, breaches := s.breaches ++ [b] }
  | .addWorkflow wf =>
    { s with workflows := s.workflows ++ [wf], workflowsStored := s.workflowsStored + 1 }
  | .setActive id isActive =>
    { s with workflows := s.workflows.map fun row => if row.id = id then { row with isActive } else row }
  | .removeWorkflow id => { s with workflows := s.workflows.filter (·.id ≠ id) }

/-- The store after the write and its entry. -/
def written (s : Store) (e : AuditEntry) (x : Write) : Store :=
  { x.made s with audit := s.audit ++ [e] }

/-! ### How a write ends -/

/-- All of the write is done, it was done before, or nothing is done. -/
inductive Ends (x : Write) (e : AuditEntry) (w : World) : Except Failure Bool × World → Prop
  | done (rows : x.Admissible w.store) (entry : w.store.IsNewEntry e) :
      Ends x e w (.ok true, { w with store := x.written w.store e })
  | known (recorded : x.IsRecorded w.store) : Ends x e w (.ok false, w)
  | refused (cause : Failure) (unmet : ¬(x.Admissible w.store ∧ w.store.IsNewEntry e))
      (new : ¬x.IsRecorded w.store) : Ends x e w (.error cause, w)

variable {c : Context} {w : World} {x : Write} {e : AuditEntry}

/-- A change that answers exactly if the write is admissible and its entry is new ends as the write does. -/
lemma Ends.of_change {f : Store → Access Store} (unrecorded : x.breach? = none)
    (h : ∀ t, f w.store = .ok t ↔
      x.Admissible w.store ∧ w.store.IsNewEntry e ∧ t = x.written w.store e) :
    x.Ends e w ((do change f; return true : Operation Bool) c w) := by
  cases ran : f w.store with
  | ok t =>
    obtain ⟨rows, entry, rfl⟩ := (h t).mp ran
    have run : change f c w = (.ok (), { w with store := x.written w.store e }) :=
      write_eq_ok_iff.mpr ⟨_, ran, rfl⟩
    rw [bind_of_ok run]
    exact .done rows entry
  | error fault =>
    have run : change f c w = (.error (.ofStore fault), w) :=
      write_eq_error_iff.mpr ⟨_, ran, rfl, rfl⟩
    rw [bind_of_error run]
    refine .refused _ ?_ (by simp [IsRecorded, unrecorded])
    rintro ⟨rows, entry⟩
    have answers := (h _).mpr ⟨rows, entry, rfl⟩
    simp [ran] at answers

/-- However a write ends, it does so in one of three ways. -/
lemma ends (x : Write) (e : AuditEntry) (c : Context) (w : World) : x.Ends e w (x.operation e c w) := by
  cases x with
  | addRequest r =>
    refine .of_change rfl fun t => ?_
    rw [addRequest_eq_ok_iff, Admissible, and_assoc]
    rfl
  | saveRequest r expected => exact .of_change rfl fun t => saveRequest_eq_ok_iff
  | addWorkflow wf => exact .of_change rfl fun t => addWorkflow_eq_ok_iff
  | setActive id isActive => exact .of_change rfl fun t => setActive_eq_ok_iff
  | removeWorkflow id =>
    refine .of_change rfl fun t => ?_
    rw [removeWorkflow_eq_ok_iff, Admissible, and_assoc]
    rfl
  | addBreach b escalated =>
    have recorded_iff : IsRecorded w.store (.addBreach b escalated) ↔
        ∃ y ∈ w.store.breaches, b.isSame y = true := by simp [IsRecorded, breach?]
    simp only [operation, record]
    cases ran : w.store.addBreach b e escalated with
    | ok answer =>
      rcases answer with ⟨_ | _, t⟩
      · obtain ⟨there, rfl⟩ := addBreach_eq_ok_false_iff.mp ran
        exact .known (recorded_iff.mpr there)
      · obtain ⟨new, known, current, entry, rfl⟩ := addBreach_eq_ok_iff.mp ran
        exact .done ⟨new, known, current⟩ entry
    | error fault =>
      refine .refused _ ?_ ?_
      · rintro ⟨⟨new, known, current⟩, entry⟩
        have answers := addBreach_eq_ok_iff.mpr ⟨new, known, current, entry, rfl⟩
        simp [ran] at answers
      · rw [recorded_iff]
        intro there
        have answers : w.store.addBreach b e escalated = .ok (false, w.store) :=
          addBreach_eq_ok_false_iff.mpr ⟨there, rfl⟩
        simp [ran] at answers

/-! ### What is done, and what is not -/

/-- A row after a change of the requests at a version: only there, and only in what may change. -/
def Follows (r : Request) (expected : Int) (row after : Request) : Prop :=
  after =
    if row.id = r.id ∧ row.version = expected then
      { row with
        status := r.status
        version := r.version
        steps := r.steps
        updatedAt := r.updatedAt
        completedAt := r.completedAt }
    else row

lemma follows_replacedAt (s : Store) (r : Request) (expected : Int) :
    List.Forall₂ (Follows r expected) s.requests (s.replacedAt r expected) := by
  rw [replacedAt, List.forall₂_map_right_iff, List.forall₂_same]
  intro row _
  rfl

/-- A change of a request that is done found it at the expected version and changed nothing else. -/
lemma Ends.follows {r : Request} {expected : Int} {w' : World} (h : x.Ends e w (.ok true, w'))
    (target : x.target? = some (r, expected)) :
    w.store.HasAt r.id expected ∧
      List.Forall₂ (Follows r expected) w.store.requests w'.store.requests := by
  cases h with
  | done rows entry =>
    cases x with
    | saveRequest q v =>
      obtain ⟨rfl, rfl⟩ : q = r ∧ v = expected := by simpa [target?] using target
      exact ⟨rows, follows_replacedAt ..⟩
    | addBreach b escalated =>
      obtain rfl : escalated = some (r, expected) := target
      exact ⟨rows.2.2 r expected rfl, follows_replacedAt ..⟩
    | _ => simp [target?] at target

/-- A breach of a request that is not stored changes nothing. -/
lemma Ends.unchanged {b : Breach} {answer : Except Failure Bool × World} (h : x.Ends e w answer)
    (breach : x.breach? = some b) (unknown : ∀ row ∈ w.store.requests, row.id ≠ b.requestId) :
    answer.2 = w := by
  cases h with
  | known | refused => rfl
  | done rows entry =>
    cases x with
    | addBreach b' escalated =>
      obtain rfl : b' = b := by simpa [breach?] using breach
      obtain ⟨row, stored, id⟩ := rows.2.1
      exact absurd id (unknown row stored)
    | _ => simp [breach?] at breach

/-- Every write does all that it is for or nothing, whatever is stored and whatever is handed in. If it
changes a request, that one was stored at the expected version, and only what may change does. A breach of
a request that is not stored is never recorded. -/
theorem all_or_nothing (x : Write) (e : AuditEntry) (c : Context) (w : World) :
    x.Ends e w (x.operation e c w) ∧
      (∀ r expected w', x.target? = some (r, expected) → x.operation e c w = (.ok true, w') →
        w.store.HasAt r.id expected ∧
          List.Forall₂ (Follows r expected) w.store.requests w'.store.requests) ∧
      ∀ b, x.breach? = some b → (∀ row ∈ w.store.requests, row.id ≠ b.requestId) →
        (x.operation e c w).2 = w := by
  have ended := x.ends e c w
  refine ⟨ended, ?_, ?_⟩
  · intro r expected w' target run
    rw [run] at ended
    exact ended.follows target
  · intro b breach unknown
    exact ended.unchanged breach unknown

end Write

end Store

end Approval
