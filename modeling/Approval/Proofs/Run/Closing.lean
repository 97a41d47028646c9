import Approval.Proofs.Run.History

/-!
# How steps are closed

A step that is closed was closed by a decision. Whatever else is called of the service, no step that waited
is closed after it.
-/

namespace Approval

open Relation

namespace Request

/-- The request has a closed step at the position. -/
def ClosedAt (r : Request) (i : Nat) : Prop := ∃ s, r.steps[i]? = some s ∧ s.isPending = false

variable {r row current : Request} {i : Nat}

/-- What is read of a request has closed steps where the row has some. -/
lemma closedAt_of_readBack? (hr : row.Lifecycle) (reads : row.readBack? = some r) (h : r.ClosedAt i) :
    row.ClosedAt i := by
  obtain ⟨s, found, closed⟩ := h
  obtain ⟨t, found', -, -, same⟩ := (Continues.of_stored hr reads).steps i s found
  exact ⟨t, found', (same closed).1⟩

/-- A step that a decision closes is the pending one: the actor was let through the gate that the plan has
for it, and the note tells of it. -/
lemma closed_of_decide (hr : r.Lifecycle) {actor : Actor} {d : Decision} {now : Instant} {x : Decided}
    (decides : r.decide actor d now = .ok x) {s : StepRecord} (found : x.request.steps[i]? = some s)
    (closed : s.isPending = false) (new : ¬r.ClosedAt i) :
    ∃ step overridden, r.plan.step? s.order = some step ∧ step.letThrough actor = .ok overridden ∧
      s.actedBy = some actor.userId ∧ x.note.TellsDecision x.request i s ∧
      x.note.detail? "admin_override" = some (.bool overridden) := by
  obtain ⟨t, last, -, tells⟩ := tellsDecision_of_decide hr decides
  obtain ⟨before, record, step, overridden, outcome, rule, hs, pending, earlier, grounds, advanced, note⟩ :=
    hr.decide_eq_ok decides
  have count := closedCount_of_steps hs pending earlier
  rcases Nat.lt_trichotomy i before.length with below | at_end | above
  · -- The steps before the pending one were closed already.
    refine absurd ⟨before[i], ?_, earlier _ (List.getElem_mem below)⟩ new
    rw [hs, List.getElem?_append_left below, List.getElem?_eq_getElem below]
  · have position : i = r.closedCount := at_end.trans count.symm
    obtain rfl : t = s := by
      rw [position] at found
      exact Option.some.inj (last.symm.trans found)
    obtain ⟨rest, steps⟩ := advanced.exists_steps
    have same : t = record.close outcome d.context actor.userId now := by
      rw [steps, at_end, List.append_assoc, List.getElem?_append_right (Nat.le_refl _)] at found
      simpa using found.symm
    refine ⟨step, overridden, ?_, grounds.admitted, ?_, position ▸ tells, ?_⟩
    · rw [same]
      exact grounds.planned
    · rw [same]
      rfl
    · rw [note]
      rfl
  · -- A step after it has just been reached.
    exfalso
    rcases advanced.next_eq with ⟨order, target, deadline, -, -, -, next⟩ | ⟨status, -, next⟩
    · rw [next, onward, List.getElem?_append_right (by simpa [Nat.succ_le_iff] using above)] at found
      obtain rfl := List.mem_singleton.mp (List.mem_of_getElem? found)
      exact Bool.noConfusion closed
    · have inside := (List.getElem?_eq_some_iff.mp found).1
      simp only [next, ended, List.length_append, List.length_singleton] at inside
      omega

end Request

/-- What a note tells of a decision it tells of the row that takes the decision over. -/
lemma AuditNote.TellsDecision.updateRow {n : AuditNote} {row r : Request} {i : Nat} {s : StepRecord}
    (h : n.TellsDecision r i s) : n.TellsDecision (Store.updateRow row r) i s :=
  ⟨h.action, h.actor, h.time, h.order, h.name, h.outcome, h.next, h.final⟩

section Calls

variable [Supply] {c : Context} {w w' : World}

/-- A sweep closes no step. -/
lemma Sweep.closedAt_of_breached (hk : w.store.Keyed) (alive : w.store.Alive)
    (h : ReflTransGen (Sweep.Breached c) w w') {r : Request} (stored : r ∈ w'.store.requests) {i : Nat}
    (closed : r.ClosedAt i) : ∃ q ∈ w.store.requests, q.id = r.id ∧ q.ClosedAt i := by
  induction h using ReflTransGen.head_induction_on with
  | refl => exact ⟨r, stored, rfl, closed⟩
  | head breached _ ih =>
    have change := Change.stepLate breached
    obtain ⟨q, mem, same, closed⟩ := ih (change.keyed hk) (change.alive hk alive)
    cases breached with
    | @intro escalate f row stored reads =>
      rcases mem_escalatedBy_of_reads hk (fun _ => ⟨row, stored, reads⟩) mem with
        old | ⟨found, old, reads, marked, marks, rfl⟩
      · exact ⟨q, old, same, closed⟩
      · obtain ⟨-, -, rfl⟩ := escalated_eq_some.mp marks
        have read : f.request.ClosedAt i := closed
        exact ⟨found, old, same, Request.closedAt_of_readBack? (alive found old) reads read⟩

/-- A step that a call closes is closed by the decision that the call is for. -/
lemma ServiceCall.Effect.closes {call : ServiceCall} (h : call.Effect c w w') (hk : w.store.Keyed)
    (alive : w.store.Alive) {r : Request} (stored : r ∈ w'.store.requests) {i : Nat} (closed : r.ClosedAt i)
    (new : ∀ q ∈ w.store.requests, q.id = r.id → ¬q.ClosedAt i) :
    ∃ row ∈ w.store.requests, ∃ current actor d x, row.readBack? = some current ∧
      current.decide actor d c.now = .ok x ∧ call = .process row.id actor d ∧
      w' = Requests.decided x w ∧ r = Store.updateRow row x.request ∧ ¬current.ClosedAt i := by
  have not_old (old : r ∈ w.store.requests) : False := new r old rfl closed
  cases h with
  | nothing | created | switched | removed => exact (not_old stored).elim
  | directory only =>
    rw [only.1] at stored
    exact (not_old stored).elim
  | started found active made =>
    rcases List.mem_append.mp stored with old | last
    · exact (not_old old).elim
    · obtain rfl := List.mem_singleton.mp last
      obtain ⟨_, _, -, -, rfl⟩ := Workflow.request_eq_ok_iff.mp made
      obtain ⟨s, found, closed⟩ := closed
      obtain rfl := List.mem_singleton.mp (List.mem_of_getElem? found)
      exact Bool.noConfusion closed
  | @decided row current actor d x mem reads decides =>
    rcases (Requests.mem_requests_decided hk mem reads decides).mp stored with ⟨old, -⟩ | rfl
    · exact (not_old old).elim
    · refine ⟨row, mem, current, actor, d, x, reads, decides, rfl, rfl, rfl, fun read => ?_⟩
      exact new row mem rfl (Request.closedAt_of_readBack? (alive row mem) reads read)
  | swept breached =>
    obtain ⟨q, mem, same, old⟩ := Sweep.closedAt_of_breached hk alive breached stored closed
    exact (new q mem same old).elim

end Calls

end Approval
