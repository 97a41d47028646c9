import Approval.Proofs.Request.Lifecycle
import Approval.Proofs.Run.Change

/-!
# The life of stored requests

Whatever is asked of the service and in which order, every stored request has the properties of the life
of a request, and so has what is read of it.
-/

namespace Approval

variable {c : Context} {w w' : World}

/-- Every stored request has the properties of the life of a request. -/
def Store.Alive (s : Store) : Prop := ∀ r ∈ s.requests, r.Lifecycle

/-- The row that takes over a decision on what it reads back as has the properties that it had before. -/
lemma Request.Lifecycle.updateRow_decide {row r : Request} {actor : Actor} {d : Decision}
    {now : Instant} {x : Decided} (hr : row.Lifecycle) (reads : row.readBack? = some r)
    (decides : r.decide actor d now = .ok x) : (Store.updateRow row x.request).Lifecycle := by
  refine ((hr.readBack reads).decide decides).updateRow ?_ ?_
  all_goals grind

/-- The row that is marked as escalated has the properties that it had before. -/
lemma Request.Lifecycle.updateRow_escalated {row r marked : Request} {escalate : Bool} {now : Instant}
    (hr : row.Lifecycle) (reads : row.readBack? = some r)
    (marks : Sweep.escalated escalate now r = some marked) :
    (Store.updateRow row marked).Lifecycle := by
  refine ((hr.readBack reads).escalated marks).updateRow ?_ ?_
  all_goals
    obtain ⟨-, -, rfl⟩ := Sweep.escalated_eq_some.mp marks
    grind

section Supplied

variable [Supply]

/-- Recording a finding about what a row reads back as keeps the properties of the stored requests. -/
lemma Sweep.alive_breached {escalate : Bool} {now : Instant} {f : Finding} (hk : w.store.Keyed)
    (ha : w.store.Alive)
    (current : (escalated escalate now f.request).isSome = true →
      ∃ row ∈ w.store.requests, row.readBack? = some f.request) :
    (breached escalate now f w).store.Alive := by
  intro r hr
  rcases mem_escalatedBy_of_reads hk current hr with old | ⟨row, stored, reads, marked, marks, rfl⟩
  · exact ha r old
  · exact (ha row stored).updateRow_escalated reads marks

/-- Every change keeps the properties of the stored requests. -/
lemma Change.alive (h : Change c w w') (hk : w.store.Keyed) (ha : w.store.Alive) : w'.store.Alive := by
  cases h with
  | directory only =>
    rw [Store.Alive, only.1]
    exact ha
  | workflowCreated => exact ha
  | workflowSwitched => exact ha
  | workflowRemoved => exact ha
  | requestStarted _ _ made =>
    intro r hr
    rcases List.mem_append.mp hr with old | new
    · exact ha r old
    · obtain rfl := List.mem_singleton.mp new
      exact .of_request made
  | @requestDecided row _ _ _ _ stored reads decides =>
    intro r hr
    rcases Store.mem_replaced.mp hr with ⟨old, -⟩ | ⟨found, mem, same, rfl⟩
    · exact ha r old
    · rw [Request.id_of_decide decides, Request.id_of_readBack? reads] at same
      obtain rfl := hk.eq_of_id mem stored same
      exact (ha found mem).updateRow_decide reads decides
  | stepLate breached =>
    cases breached with
    | intro escalate stored reads => exact Sweep.alive_breached hk ha fun _ => ⟨_, stored, reads⟩

lemma World.alive_after (acts : List Act) : (World.after {} acts).store.Alive :=
  after_empty (P := (·.store.Alive)) (fun _ h => absurd h (by simp))
    (fun _ _ _ hk ha h => h.alive hk ha) acts

/-- After any calls, a stored request and what is read of it have the properties of the life of a
request. -/
theorem World.lifecycle_after (acts : List Act) {r : Request}
    (h : r ∈ (World.after {} acts).store.requests) :
    r.Lifecycle ∧ ∀ read, r.readBack? = some read → read.Lifecycle := by
  have hr := alive_after acts r h
  refine ⟨hr, ?_⟩
  intro read reads
  exact hr.readBack reads

end Supplied

/-- A request that was late, taken again and approved is one of them. -/
theorem Leave.lifecycle_of_completed :
    ∃ r ∈ (World.after {} Leave.run).store.requests, r.status = .completed ∧ r.Lifecycle := by
  have ends : ∃ r ∈ (World.after {} Leave.run).store.requests, r.status = .completed := by decide +kernel
  obtain ⟨r, stored, completed⟩ := ends
  exact ⟨r, stored, completed, (World.lifecycle_after Leave.run stored).1⟩

end Approval
