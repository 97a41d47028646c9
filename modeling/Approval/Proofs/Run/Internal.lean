import Approval.Proofs.Request.Refusal
import Approval.Proofs.Run.Refinement
import Approval.Proofs.Service.Counts
import Approval.Proofs.Workflow.WayOut

/-!
# Failures that do not happen

Some failures would tell that what is stored is not in order: an open request that waits at no step, a plan
without the step that is meant, a deadline that cannot be reckoned. After every run calls do not fail for
these, as drafts are checked before they are stored and requests keep their plans.
-/

namespace Approval

open Work Operation

/-- The failure tells that what is stored is not in order. -/
inductive Failure.IsInternal : Failure → Prop
  | nothingPending : IsInternal (.clash .nothingPending)
  | stepMissing (order : Nat) : IsInternal (.clash (.stepMissing order))
  | hoursOutOfRange (hours order : Nat) : IsInternal (.invalid (.hoursOutOfRange hours order))

/-! ### Plans of requests -/

/-- Workflows and requests have plans in which no way is lost. -/
lemma rowInvariant_passable :
    RowInvariant (fun _ => True) (fun wf => wf.plan.Passable) (fun r => r.plan.Passable) where
  created id _ accepted := (Workflows.valid_ofDraft accepted id _ _).passable
  switched _ before := before
  started _ stored reads made := by
    obtain ⟨plan, -⟩ := Workflow.parts_of_request made
    rw [plan]
    exact Workflow.passable_readBack stored reads
  decided _ _ before _ _ := before
  escalated _ _ before _ _ := before

/-! ### Decisions -/

namespace Request

variable {r : Request} {actor : Actor} {d : Decision} {now : Instant} {e : Failure}

/-- A decision on a request in order is not refused for an internal reason. -/
lemma Lifecycle.not_isInternal (hr : r.Lifecycle) (passable : r.plan.Passable)
    (plain : now.hasPlainYear = true) (h : r.decide actor d now = .error e) : ¬e.IsInternal := by
  intro internal
  cases refuses_of_decide h with
  | stale => cases internal
  | unreached pending =>
    rcases pendingStep_eq_error pending with ⟨-, rfl⟩ | ⟨isOpen, -⟩
    · cases internal
    · obtain ⟨_, _, -, -, -, found⟩ := hr.exists_pending (isOpen_of_not_isTerminal isOpen)
      cases found.symm.trans pending
  | @gate step _ _ lacks =>
    rcases step.letThrough_cases actor with ⟨-, _, admitted⟩ | ⟨-, cause, denied⟩
    · cases admitted.symm.trans lacks
    · obtain rfl := Except.error.inj (denied.symm.trans lacks)
      cases internal
  | unnamed outcome =>
    rcases outcomeOf_eq_error outcome with rfl | ⟨_, rfl⟩ <;> cases internal
  | ruleless _ undefined =>
    obtain rfl := ruleOf_eq_error undefined
    cases internal
  | wayless _ taken lost =>
    obtain ⟨order, way, ⟨missing, -⟩ | ⟨target, found, unreached⟩⟩ := advance_eq_error lost
    · obtain ⟨mem, -⟩ := rule_of_ruleOf taken
      obtain ⟨step, planned⟩ :=
        Plan.exists_step? (passable.targets _ mem order (Rule.resolution_eq_proceed way))
      cases planned.symm.trans missing
    · obtain ⟨deadline, due⟩ := passable.exists_isDue (Plan.mem_of_step? found).1 plain
      cases (Step.start_eq_ok_iff.mpr ⟨deadline, due, rfl⟩).symm.trans unreached

end Request

section Supplied

variable [Supply]

/-- A request that is not read is not decided, for the same reason. -/
lemma Requests.process_of_get_error {c : Context} {w : World} {id : RequestId} {e : Failure}
    (fails : get id c w = (.error e, w)) (actor : Actor) (d : Decision) :
    process id actor d c w = (.error e, w) := by
  cases named : d.expectedVersion with
  | none =>
    refine bind_of_error ?_
    simp only [versionFor, named]
    exact bind_of_error fails
  | some v =>
    have observed : versionFor id d c w = (.ok v, w) := by
      simp only [versionFor, named]
      rfl
    rw [process, bind_of_ok observed]
    exact bind_of_error fails

omit [Supply] in
/-- A request is read from its row, or not found, or its row does not read back. -/
lemma Requests.get_cases (id : RequestId) (c : Context) (w : World) :
    (∃ row ∈ w.store.requests, ∃ r, row.id = id ∧ row.readBack? = some r ∧ get id c w = (.ok r, w)) ∨
      get id c w = (.error (.missing (.request id)), w) ∨
      get id c w = (.error (.ofStore Store.unreadable), w) := by
  simp only [get, readOr, Store.request?]
  cases found : w.store.requests.find? (·.id = id) with
  | none => exact .inr (.inl rfl)
  | some row =>
    cases reads : row.readBack? with
    | none =>
      refine .inr (.inr ?_)
      simp only [Store.readOption, Store.read, reads]
      rfl
    | some r =>
      refine .inl ⟨row, List.mem_of_find?_eq_some found, r, by simpa using List.find?_some found, reads, ?_⟩
      simp only [Store.readOption, Store.read, reads]
      rfl

/-! ### Runs -/

/-- At a point of time nothing internal fails in a world: no decision is refused for an internal reason, every
active workflow that reads back can be started, and the store refuses nothing that a sweep records. -/
structure World.InOrder (w : World) (c : Context) : Prop where
  process : ∀ (id : RequestId) (actor : Actor) (d : Decision) (e : Failure) (w' : World),
    Requests.process id actor d c w = (.error e, w') → ¬e.IsInternal
  start : ∀ row ∈ w.store.workflows, row.isActive = true → row.readBack?.isSome = true →
    ∀ (requester : UserId) (payload : Json),
      ∃ r w', Requests.start row.id requester payload c w = (.ok r, w')
  sweep : Sweep.refusalsOfOnce c w = []

/-- After every run nothing internal fails in a year of four digits. -/
theorem World.inOrder_after (acts : List Act) {c : Context} (plain : c.now.hasPlainYear = true) :
    (World.after {} acts).InOrder c := by
  have hk := World.keyed_after acts
  have alive := World.alive_after acts
  have numbered := World.numbered_after acts
  have passable := (rowInvariant_passable.after_empty acts fun _ _ => trivial).requests
  refine ⟨?_, ?_, Sweep.refusalsOfOnce_eq_nil hk numbered alive⟩
  · intro id actor d e w' fails internal
    rcases Requests.get_cases id c (World.after {} acts) with
      ⟨row, stored, r, rfl, reads, -⟩ | unknown | unreadable
    · have hr := (alive row stored).readBack reads
      have passable := (passable row stored).readBack (Request.plan_readBack? reads)
      cases decides : r.decide actor d c.now with
      | error e' =>
        have refused := Requests.process_of_decide_error hk stored reads decides
        obtain rfl : e' = e := Except.error.inj (congrArg Prod.fst (refused.symm.trans fails))
        exact hr.not_isInternal passable plain decides internal
      | ok x =>
        have answers := (Requests.process_eq_ok_iff hk).mpr
          ⟨row, stored, r, x, rfl, reads, decides, numbered.fresh, rfl, rfl⟩
        cases congrArg Prod.fst (answers.symm.trans fails)
    · cases congrArg Prod.fst ((Requests.process_of_get_error unknown actor d).symm.trans fails)
      cases internal
    · cases congrArg Prod.fst ((Requests.process_of_get_error unreadable actor d).symm.trans fails)
      cases internal
  · intro row stored active reads requester payload
    obtain ⟨wf, reads⟩ := Option.isSome_iff_exists.mp reads
    obtain ⟨r, first, -, starts⟩ := World.start_eq_ok rfl stored active reads plain requester payload
    exact ⟨r, _, starts⟩

end Supplied

/-- After a run that leaves an active workflow and a late request nothing internal fails. -/
theorem Leave.inOrder_of_run :
    (Leave.clock 16).now.hasPlainYear = true ∧
      (∃ row ∈ (World.after {} Leave.run).store.workflows, row.isActive = true ∧ row.readBack?.isSome = true) ∧
      (∃ row ∈ (World.after {} Leave.run).store.requests, row.isLate (Leave.clock 16).now = true) ∧
      (World.after {} Leave.run).InOrder (Leave.clock 16) := by
  have plain : (Leave.clock 16).now.hasPlainYear = true := by decide +kernel
  exact ⟨plain, by decide +kernel, by decide +kernel, World.inOrder_after Leave.run plain⟩

end Approval
