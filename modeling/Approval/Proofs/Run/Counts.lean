import Approval.Http.Interface
import Approval.Proofs.Run.Sweeping
import Approval.Proofs.Service.Counts

/-!
# Counts after a run

Counts, tasks, views and sweeps each look at the stored requests in a way of their own. After every run they
agree with each other and with the number of requests that were started.
-/

namespace Approval

open Relation Work Operation

/-! ### How many requests were started -/

section Supplied

variable [Supply]

/-- The call starts a request. -/
def ServiceCall.starts (c : Context) (w : World) : ServiceCall → Bool
  | .start id requester payload => (Requests.start id requester payload c w).1.isOk
  | _ => false

/-- How many of the acts start a request, when they come one after the other. -/
def World.startedBy (w : World) : List Act → Nat
  | [] => 0
  | a :: acts => (if a.call.starts a.context w then 1 else 0) + (a.run w).startedBy acts

section Started

variable {c : Context} {w w' : World} {call : ServiceCall}

/-- Only starting adds a request. -/
lemma ServiceCall.Effect.length_requests (h : call.Effect c w w')
    (other : ∀ id requester payload, call ≠ .start id requester payload) :
    w'.store.requests.length = w.store.requests.length := by
  cases h with
  | nothing | created | switched | removed => rfl
  | directory only => rw [only.1]
  | started => exact absurd rfl (other _ _ _)
  | decided => simp [Requests.decided, Store.replaced]
  | swept breached =>
    induction breached with
    | refl => rfl
    | tail _ last ih =>
      cases last with
      | intro escalate =>
        rw [← ih]
        simpa only [List.length_map] using congrArg List.length (Sweep.map_id_breached _)

lemma ServiceCall.length_run (hk : w.store.Keyed) (call : ServiceCall) :
    (call.run c w).store.requests.length =
      w.store.requests.length + if call.starts c w then 1 else 0 := by
  cases call with
  | start id requester payload =>
    rcases answer : Requests.start id requester payload c w with ⟨e | r, w'⟩
    · obtain rfl := Requests.start_atomic id requester payload c w e w' answer
      simp [run, starts, answer, Except.isOk, Except.toBool]
    · obtain ⟨wf, -, -, entered⟩ := Requests.start_eq_ok_iff.mp answer
      obtain ⟨-, -, -, -, first, -, rfl⟩ := Requests.enter_eq_ok_iff.mp entered
      simp [run, starts, answer, Requests.started, Except.isOk, Except.toBool]
  | _ => exact (run_effect hk _).length_requests (by simp)

/-- After acts there are as many more requests as were started. -/
lemma World.length_after (hk : w.store.Keyed) (acts : List Act) :
    (w.after acts).store.requests.length = w.store.requests.length + w.startedBy acts := by
  induction acts generalizing w with
  | nil => rfl
  | cons a acts ih =>
    have kept : (a.run w).store.Keyed :=
      (World.preserved_of_changes (P := fun _ => True) hk trivial (fun _ _ _ _ _ => trivial)
        (a.call.run_changes hk)).1
    have step := a.call.length_run (c := a.context) hk
    change ((a.run w).after acts).store.requests.length = _
    rw [ih kept, startedBy, ← Nat.add_assoc]
    congr 1

end Started

/-! ### What is counted -/

/-- The total of all requests that a reply about totals tells. -/
def Http.Reply.total? (reply : Http.Reply) : Option Json := do
  let data ← (← reply.body).member? "data"
  let requests ← data.member? "requests"
  requests.member? "total"

omit [Supply] in
/-- Administrators are told the totals. -/
lemma Http.showTotals_of_dashboard {call : Call} {actor : Actor} {c : Context} {w : World} {d : Dashboard}
    (known : call.actor c w = (.ok actor, w)) (admin : actor.isAdmin = true)
    (counted : Tasks.dashboard c w = (.ok d, w)) :
    ∃ reply, showTotals call c w = (.ok reply, w) ∧
      reply.total? = some (Json.ofNat (d.active + d.completed + d.rejected)) := by
  have admitted : requireAdmin actor c w = (.ok (), w) := by
    rw [requireAdmin, admin]
    rfl
  have asked : (liftM Tasks.dashboard : Handling Dashboard) c w = (.ok d, w) := mapError_of_ok counted
  unfold showTotals
  rw [bind_of_ok known, bind_of_ok admitted, bind_of_ok asked]
  exact ⟨_, rfl, rfl⟩

/-- The counts over all requests agree with the tasks of administrators, with the views of requests and with
what a sweep records, at a point of time and after so many requests were started. -/
structure World.Counted (w : World) (c : Context) (started : Nat) (d : Dashboard) : Prop where
  active : d.active = w.store.requests.countP (!·.status.isTerminal)
  pending : d.pending = d.active
  tasks : ∀ actor : Actor, actor.isAdmin = true → ∃ tasks, Tasks.of actor c w = (.ok tasks, w) ∧
    tasks.length = d.active ∧ tasks.countP (·.isLate) = d.overdue
  total : d.active + d.completed + d.rejected = started
  totals : ∀ (call : Http.Call) (actor : Actor), call.actor c w = (.ok actor, w) → actor.isAdmin = true →
    ∃ reply, Http.showTotals call c w = (.ok reply, w) ∧ reply.total? = some (Json.ofNat started)
  escalated : d.escalated = w.store.requests.countP (·.status = .escalated)
  flagged : ∀ row ∈ w.store.requests, ∀ r, row.readBack? = some r →
    ((r.view c.now).steps.filter (·.isLate)).length ≤ 1 ∧
      ∀ s ∈ (r.view c.now).steps, s.isLate = true → (r.view c.now).currentOrder = some s.step.order
  overdue : d.overdue = (w.store.requests.filterMap Request.readBack?).countP (·.isFlagged c.now)
  swept : ∃ report w', Sweep.once c w = (.ok report, w') ∧
    ∀ row, row ∈ w.store.requests ∨ row ∈ w'.store.requests → ∀ r, row.readBack? = some r →
      ∀ (n : Nat) (s : StepView), (r.view c.now).steps[n]? = some s → s.isLate = true →
        ∃ b ∈ w'.store.breaches, b.requestId = row.id ∧ b.position = n

/-- After a sweep every step that a view flags at its time is recorded. -/
lemma Sweep.flagged_of_once {c : Context} {w : World} (decodes : w.store.Decodes) (hk : w.store.Keyed)
    (numbered : w.store.Numbered) (alive : w.store.Alive) :
    ∃ report w', once c w = (.ok report, w') ∧
      ∀ row, row ∈ w.store.requests ∨ row ∈ w'.store.requests → ∀ r, row.readBack? = some r →
        ∀ (n : Nat) (s : StepView), (r.view c.now).steps[n]? = some s → s.isLate = true →
          ∃ b ∈ w'.store.breaches, b.requestId = row.id ∧ b.position = n := by
  have swept := once_eq decodes hk numbered alive c
  have alive' := (sound_once (c := c) hk numbered alive).2.2
  rw [swept] at alive'
  refine ⟨_, _, swept, fun row either r reads n s found late => ?_⟩
  have hr : row.Lifecycle := either.elim (alive row) (alive' row)
  obtain ⟨step, at_n, rfl⟩ : ∃ step, r.steps[n]? = some step ∧ ⟨step, step.isLate c.now⟩ = s := by
    simpa [Request.view] using found
  have row_late := (hr.late_readBack_iff reads c.now n).mp ⟨step, at_n, late⟩
  exact exists_breach_of_late decodes hk numbered alive c
    (either.imp (⟨row, ·, rfl, row_late⟩) (⟨row, ·, rfl, row_late⟩))

/-- After every run whose rows read back, all that is told about the requests agrees. -/
theorem World.counted_after (acts : List Act) (decodes : (World.after {} acts).store.Decodes) (c : Context) :
    ∃ d, Tasks.dashboard c (World.after {} acts) = (.ok d, World.after {} acts) ∧
      (World.after {} acts).Counted c (World.startedBy {} acts) d := by
  have hk := World.keyed_after acts
  have alive := World.alive_after acts
  have numbered := World.numbered_after acts
  have started := World.length_after World.keyed_empty acts
  generalize World.startedBy {} acts = count at *
  generalize World.after {} acts = w at *
  obtain ⟨counted, all⟩ := alive.countStatus
  have listed := alive.length_openRequests decodes
  obtain ⟨d, answers, active, completed, rejected, escalated, pending, overdue⟩ :=
    Tasks.exists_dashboard (c := c) alive decodes
  have total : d.active + d.completed + d.rejected = count := by
    rw [active, completed, rejected, all, started]
    exact Nat.zero_add count
  refine ⟨d, answers, ?_⟩
  refine
    { active := active.trans counted
      pending := by rw [pending, listed, active, counted]
      tasks := ?_
      total := total
      totals := ?_
      escalated := escalated
      flagged := ?_
      overdue := ?_
      swept := Sweep.flagged_of_once decodes hk numbered alive }
  · intro actor admin
    obtain ⟨tasks, answered, length, late⟩ := Tasks.exists_of_isAdmin (c := c) alive decodes admin
    exact ⟨tasks, answered, by rw [length, listed, active, counted], late.trans overdue.symm⟩
  · intro call actor known admin
    rw [← total]
    exact Http.showTotals_of_dashboard known admin answers
  · intro row stored r reads
    obtain ⟨one, last⟩ := ((alive row stored).readBack reads).flagged c.now
    exact ⟨one, fun s mem late => (last s mem late).1⟩
  · simp only [Request.isFlagged_eq, alive.countP_isLate, overdue]

end Supplied

/-- After a run that ends one request, two were started, and the other one is active and late. -/
theorem Leave.counted_of_run :
    (World.after {} Leave.run).store.Decodes ∧ World.startedBy {} Leave.run = 2 ∧
      ∃ d, (d.active, d.completed, d.overdue) = (1, 1, 1) ∧
        Tasks.dashboard (Leave.clock 16) (World.after {} Leave.run) = (.ok d, World.after {} Leave.run) ∧
        (World.after {} Leave.run).Counted (Leave.clock 16) (World.startedBy {} Leave.run) d := by
  have decodes : (World.after {} Leave.run).store.Decodes := by decide +kernel
  obtain ⟨d, answers, counted⟩ := World.counted_after Leave.run decodes (Leave.clock 16)
  have counts : (Tasks.dashboard (Leave.clock 16) (World.after {} Leave.run)).1.toOption.map
      (fun d => (d.active, d.completed, d.overdue)) = some (1, 1, 1) := by decide +kernel
  rw [answers] at counts
  exact ⟨decodes, by decide +kernel, d, Option.some.inj counts, answers, counted⟩

end Approval
