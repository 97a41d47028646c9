import Approval.Proofs.Request.Lifecycle

/-!
# How a decision is refused

A decision is refused at the version it names, at the pending step, at the gate of the step, at the outcome,
at the rule or on the way that the rule leads. Only the gate answers that somebody lacks something.
-/

namespace Approval

/-- The decision is meant for the request as it is: it names no version or the current one. -/
def Decision.IsFor (d : Decision) (r : Request) : Prop := ∀ v, d.expectedVersion = some v → v = r.version

/-! ### What each part is refused for -/

/-- A step is not reached if its deadline would be out of range. -/
lemma Step.start_eq_error {s : Step} {now : Instant} {e : Failure} (h : s.start now = .error e) :
    0 < s.hours ∧ now.addHours? s.hours = none ∧ e = .invalid (.hoursOutOfRange s.hours s.order) := by
  unfold Step.start Step.hasDeadline at h
  by_cases timed : 0 < s.hours
  · cases due : now.addHours? s.hours with
    | some t => simp [timed, due, bind, Except.bind, pure, Except.pure] at h
    | none =>
      simp only [timed, due, decide_true, if_true, bind, Except.bind, Except.error.injEq] at h
      exact ⟨timed, rfl, h.symm⟩
  · simp [timed, bind, Except.bind, pure, Except.pure] at h

/-- Only who does not pass the gate of a step lacks something. -/
lemma Step.letThrough_cases (s : Step) (actor : Actor) :
    ((s.passage actor).isOpen = true ∧ ∃ overridden, s.letThrough actor = .ok overridden) ∨
      ((s.passage actor).isOpen = false ∧ ∃ cause, s.letThrough actor = .error (.denied cause)) := by
  unfold letThrough
  cases s.passage actor with
  | allowed => exact .inl ⟨rfl, _, rfl⟩
  | overridden => exact .inl ⟨rfl, _, rfl⟩
  | lacksRole role => exact .inr ⟨rfl, _, rfl⟩
  | lacksPermission permission => exact .inr ⟨rfl, _, rfl⟩

/-- Administrators pass every gate. -/
lemma Step.isOpen_passage_of_isAdmin (step : Step) {actor : Actor} (admin : actor.isAdmin = true) :
    (step.passage actor).isOpen = true := by
  unfold passage
  cases step.membership actor <;> simp [admin, Passage.isOpen]

lemma Step.letThrough_of_isAdmin (step : Step) {actor : Actor} (admin : actor.isAdmin = true) :
    ∃ overridden, step.letThrough actor = .ok overridden := by
  rcases step.letThrough_cases actor with ⟨-, admitted⟩ | ⟨closed, -⟩
  · exact admitted
  · simp [step.isOpen_passage_of_isAdmin admin] at closed

namespace Request

variable {r : Request} {actor : Actor} {d : Decision} {now : Instant} {e : Failure}

lemma pendingStep_eq_error (h : r.pendingStep = .error e) :
    r.status.isTerminal = true ∧ e = .clash (.over r.status) ∨
      r.status.isTerminal = false ∧ (r.current? = none ∧ e = .clash .nothingPending ∨
        ∃ record, r.current? = some record ∧ r.plan.step? record.order = none ∧
          e = .clash (.stepMissing record.order)) := by
  unfold pendingStep at h
  cases ended : r.status.isTerminal with
  | true =>
    simp only [ended, if_true, Except.error.injEq] at h
    exact .inl ⟨rfl, h.symm⟩
  | false =>
    simp only [ended, Bool.false_eq_true, if_false] at h
    cases current : r.current? with
    | none =>
      simp only [current, Except.error.injEq] at h
      exact .inr ⟨rfl, .inl ⟨rfl, h.symm⟩⟩
    | some record =>
      cases planned : r.plan.step? record.order with
      | none =>
        simp only [current, planned, Except.error.injEq] at h
        exact .inr ⟨rfl, .inr ⟨record, rfl, planned, h.symm⟩⟩
      | some step => simp [current, planned] at h

lemma outcomeOf_eq_error (h : outcomeOf d = .error e) :
    e = .invalid .emptyOutcome ∨ ∃ outcome, e = .invalid (.reservedOutcome outcome) := by
  simp only [outcomeOf] at h
  split_ifs at h with empty reserved
  · exact .inl (Except.error.inj h).symm
  · exact .inr ⟨_, (Except.error.inj h).symm⟩

lemma ruleOf_eq_error {step : Step} {outcome : String} {context : Option Json}
    (h : r.ruleOf step outcome context = .error e) :
    e = .clash (.undefinedOutcome outcome step.order (r.plan.outcomesFor step.order)) := by
  unfold ruleOf at h
  split at h
  · cases h
  · exact (Except.error.inj h).symm

/-- The way is lost if the plan has no such step, or if the step cannot be reached at the time. -/
lemma advance_eq_error {closed : List StepRecord} {way : Resolution}
    (h : r.advance closed way now = .error e) :
    ∃ order, way = .proceed order ∧ (r.plan.step? order = none ∧ e = .clash (.stepMissing order) ∨
      ∃ target, r.plan.step? order = some target ∧ target.start now = .error e) := by
  cases way with
  | finish status => cases h
  | proceed order =>
    refine ⟨order, rfl, ?_⟩
    simp only [advance] at h
    cases planned : r.plan.step? order with
    | none =>
      simp only [planned, Except.error.injEq] at h
      exact .inl ⟨rfl, h.symm⟩
    | some target =>
      simp only [planned, Except.bind_eq_error_iff, pure, Except.pure, reduceCtorEq, and_false,
        exists_false, or_false] at h
      exact .inr ⟨target, rfl, h⟩

/-! ### What a decision is refused for -/

/-- Where a decision on a request is refused, and for what reason. -/
inductive Refuses (r : Request) (actor : Actor) (d : Decision) (now : Instant) : Failure → Prop
  | stale {v : Int} (expected : d.expectedVersion = some v) (other : v ≠ r.version) :
      Refuses r actor d now (.clash .stale)
  | unreached {e : Failure} (pending : r.pendingStep = .error e) : Refuses r actor d now e
  | gate {step : Step} {e : Failure} (pending : r.pendingStep = .ok step)
      (lacks : step.letThrough actor = .error e) : Refuses r actor d now e
  | unnamed {e : Failure} (outcome : outcomeOf d = .error e) : Refuses r actor d now e
  | ruleless {step : Step} {outcome : String} {e : Failure} (pending : r.pendingStep = .ok step)
      (undefined : r.ruleOf step outcome d.context = .error e) : Refuses r actor d now e
  | wayless {step : Step} {outcome : String} {rule : Rule} {e : Failure} (pending : r.pendingStep = .ok step)
      (taken : r.ruleOf step outcome d.context = .ok rule)
      (lost : r.advance (r.closedSteps outcome d.context actor.userId now) rule.resolution now = .error e) :
      Refuses r actor d now e

lemma refuses_of_decide (h : r.decide actor d now = .error e) : r.Refuses actor d now e := by
  unfold decide at h
  by_cases stale : d.expectedVersion.any (· ≠ r.version) = true
  · obtain ⟨v, expected, other⟩ : ∃ v, d.expectedVersion = some v ∧ v ≠ r.version := by
      simpa [Option.any_eq_true] using stale
    simp only [stale, if_true] at h
    obtain rfl : .clash .stale = e := Except.error.inj h
    exact .stale expected other
  · simp only [stale, Bool.false_eq_true, if_false, Except.bind_eq_error_iff, pure, Except.pure,
      reduceCtorEq, and_false, exists_false, or_false] at h
    rcases h with pending | ⟨step, pending, lacks | ⟨overridden, -, outcome | ⟨outcome, -,
      undefined | ⟨rule, taken, lost⟩⟩⟩⟩
    · exact .unreached pending
    · exact .gate pending lacks
    · exact .unnamed outcome
    · exact .ruleless pending undefined
    · exact .wayless pending taken lost

/-- What refuses a decision for the lack of something is the gate of the pending step. -/
lemma Refuses.gate_of_denied {cause : Denial} (h : r.Refuses actor d now (.denied cause)) :
    ∃ step, r.pendingStep = .ok step ∧ step.letThrough actor = .error (.denied cause) := by
  cases h with
  | gate pending lacks => exact ⟨_, pending, lacks⟩
  | unreached pending =>
    rcases pendingStep_eq_error pending with ⟨-, ended⟩ | ⟨-, ⟨-, nothing⟩ | ⟨_, -, -, missing⟩⟩
    · cases ended
    · cases nothing
    · cases missing
  | unnamed outcome =>
    rcases outcomeOf_eq_error outcome with empty | ⟨_, reserved⟩
    · cases empty
    · cases reserved
  | ruleless _ undefined => cases ruleOf_eq_error undefined
  | wayless _ _ lost =>
    obtain ⟨_, -, ⟨-, ⟨⟩⟩ | ⟨_, -, unreached⟩⟩ := advance_eq_error lost
    cases (Step.start_eq_error unreached).2.2

/-- A decision on a request that waits at a step is refused for the lack of something exactly if the actor
does not pass the gate of the step. -/
lemma decide_denied_iff {step : Step} (pending : r.pendingStep = .ok step) (current : d.IsFor r) :
    (∃ cause, r.decide actor d now = .error (.denied cause)) ↔ (step.passage actor).isOpen = false := by
  rcases step.letThrough_cases actor with ⟨passes, overridden, admitted⟩ | ⟨fails, cause, lacks⟩
  · simp only [passes, Bool.true_eq_false, iff_false, not_exists]
    intro cause denied
    obtain ⟨step', pending', lacks⟩ := (refuses_of_decide denied).gate_of_denied
    obtain rfl : step' = step := Except.ok.inj (pending'.symm.trans pending)
    cases admitted.symm.trans lacks
  · simp only [fails, iff_true]
    refine ⟨cause, ?_⟩
    have fresh : ¬d.expectedVersion.any (· ≠ r.version) = true := by
      simp only [Option.any_eq_true, decide_eq_true_eq, not_exists, not_and, not_not]
      exact current
    simp only [decide, fresh]
    exact Except.bind_eq_error_iff.mpr
      (.inr ⟨step, pending, Except.bind_eq_error_iff.mpr (.inl lacks)⟩)

end Request

end Approval
