import Approval.Proofs.Result
import Approval.Request.Decision

/-!
# How a decision comes about

A request is decided exactly when its pending step, the gate of the step, the outcome and a rule for it
are found one after the other, and the way of the rule can be taken. The lemmas here say so once; what
decisions keep or bring about is read off them.
-/

namespace Approval

/-! ### Reaching a step -/

lemma Plan.mem_of_step? {p : Plan} {order : Nat} {s : Step} (h : p.step? order = some s) :
    s ∈ p.steps ∧ s.order = order :=
  ⟨List.mem_of_find?_eq_some h, by simpa using List.find?_some h⟩

/-- When a step that was reached at `start` is due: never if it has no hours, else so much later. -/
def Step.IsDue (s : Step) (start : Instant) : Option Instant → Prop
  | none => s.hours = 0
  | some t => 0 < s.hours ∧ start.addHours? s.hours = some t

/-- The record of a step that has just been reached. -/
def Step.waiting (s : Step) (now : Instant) (deadline : Option Instant) : StepRecord :=
  { order := s.order
    name := s.name
    status := .pending
    startedAt := now
    deadline
    completedAt := none
    outcome := none
    note := none
    actedBy := none }

@[simp] lemma Step.start_eq_ok_iff {s : Step} {now : Instant} {record : StepRecord} :
    s.start now = .ok record ↔ ∃ deadline, s.IsDue now deadline ∧ record = s.waiting now deadline := by
  unfold Step.start Step.hasDeadline
  by_cases h : 0 < s.hours
  · cases ht : now.addHours? s.hours with
    | none =>
      simp only [h, decide_true, if_true, Except.bind_eq_ok_iff, reduceCtorEq, false_and, exists_false,
        false_iff, not_exists, not_and]
      rintro (_ | t) due
      · exact absurd due (Nat.ne_of_gt h)
      · exact absurd (ht.symm.trans due.2) (by simp)
    | some t =>
      simp only [h, decide_true, if_true, Except.bind_eq_ok_iff, Except.ok.injEq, pure, Except.pure]
      constructor
      · rintro ⟨_, rfl, rfl⟩
        exact ⟨some t, ⟨h, ht⟩, rfl⟩
      · rintro ⟨_ | u, due, rfl⟩
        · exact absurd due (Nat.ne_of_gt h)
        · exact ⟨some t, rfl, by rw [Option.some.inj (ht.symm.trans due.2)]; rfl⟩
  · simp only [h, decide_false, Bool.false_eq_true, if_false, Except.bind_eq_ok_iff, Except.ok.injEq,
      pure, Except.pure]
    constructor
    · rintro ⟨_, rfl, rfl⟩
      exact ⟨none, Nat.eq_zero_of_not_pos h, rfl⟩
    · rintro ⟨_ | t, due, rfl⟩
      · exact ⟨none, rfl, rfl⟩
      · exact absurd due.1 h

/-- A request starts with the record of the first step of the plan of its workflow. -/
lemma Workflow.request_eq_ok_iff {w : Workflow} {id : RequestId} {requester : UserId} {payload : Json}
    {now : Instant} {r : Request} :
    w.request id requester payload now = .ok r ↔
      ∃ first deadline, w.plan.step? 1 = some first ∧ first.IsDue now deadline ∧
        r = { id
              workflowId := w.id
              workflowName := w.name
              requester
              payload
              status := .inProgress
              version := 1
              plan := w.plan
              steps := [first.waiting now deadline]
              createdAt := now
              updatedAt := now
              completedAt := none } := by
  unfold Workflow.request
  cases hf : w.plan.step? 1 with
  | none => simp
  | some first =>
    simp only [Except.bind_eq_ok_iff, Step.start_eq_ok_iff, pure, Except.pure, Except.ok.injEq,
      Option.some.injEq]
    constructor
    · rintro ⟨_, ⟨deadline, due, rfl⟩, rfl⟩
      exact ⟨first, deadline, rfl, due, rfl⟩
    · rintro ⟨_, deadline, rfl, due, rfl⟩
      exact ⟨_, ⟨deadline, due, rfl⟩, rfl⟩

/-! ### Deciding -/

lemma Rule.resolution_eq_finish {rule : Rule} {status : Status} (h : rule.resolution = .finish status) :
    rule.toStep = none ∧ rule.finalStatus = status := by
  unfold Rule.resolution at h
  cases ht : rule.toStep <;> simp_all

lemma Rule.resolution_eq_proceed {rule : Rule} {order : Nat} (h : rule.resolution = .proceed order) :
    rule.toStep = some order := by
  unfold Rule.resolution at h
  cases ht : rule.toStep <;> simp_all

lemma Rule.finalStatus_cases (rule : Rule) :
    rule.finalStatus = .completed ∨ rule.finalStatus = .rejected := by
  unfold Rule.finalStatus
  rcases rule.ending with _ | _ | _
  · by_cases h : rule.outcome = successOutcome <;> simp [h]
  · exact .inl rfl
  · exact .inr rfl

lemma Rule.isTerminal_of_resolution {rule : Rule} {status : Status}
    (h : rule.resolution = .finish status) : status.isTerminal = true := by
  rw [← (resolution_eq_finish h).2]
  rcases rule.finalStatus_cases with h | h <;> rw [h] <;> rfl

namespace Request

/-- What a decision on a request rests on. -/
structure Grounds (r : Request) (actor : Actor) (d : Decision) (record : StepRecord) (step : Step)
    (overridden : Bool) (outcome : String) (rule : Rule) : Prop where
  expected : ∀ v, d.expectedVersion = some v → v = r.version
  isOpen : r.status.isTerminal = false
  pending : r.current? = some record
  planned : r.plan.step? record.order = some step
  admitted : step.letThrough actor = .ok overridden
  named : outcomeOf d = .ok outcome
  taken : r.ruleOf step outcome d.context = .ok rule

/-- The steps of a request after the pending one was closed. -/
def closedSteps (r : Request) (outcome : String) (context : Option Json) (user : UserId)
    (now : Instant) : List StepRecord :=
  changeLast (·.isPending) (·.close outcome context user now) r.steps

/-- The request on its way to the next step. -/
def onward (r : Request) (closed : List StepRecord) (next : StepRecord) (now : Instant) : Request :=
  { r with
    status := .inProgress
    version := r.version + 1
    steps := closed ++ [next]
    updatedAt := now }

/-- The request at its end. -/
def ended (r : Request) (closed : List StepRecord) (status : Status) (now : Instant) : Request :=
  { r with
    status
    version := r.version + 1
    steps := closed
    updatedAt := now
    completedAt := some now }

/-- The two ways to go on once the pending step is closed. -/
inductive Advances (r : Request) (closed : List StepRecord) (now : Instant) :
    Resolution → Request → Event → Prop
  | proceed {order : Nat} {target : Step} {deadline : Option Instant}
      (found : r.plan.step? order = some target) (due : target.IsDue now deadline) :
      Advances r closed now (.proceed order) (r.onward closed (target.waiting now deadline) now)
        ((r.onward closed (target.waiting now deadline) now).assigned target)
  | finish (status : Status) :
      Advances r closed now (.finish status) (r.ended closed status now)
        (r.ended closed status now).finished

/-- Either a step of the plan comes next, or the request is at its end. -/
lemma Advances.next_eq {r next : Request} {closed : List StepRecord} {now : Instant} {way : Resolution}
    {event : Event} (h : r.Advances closed now way next event) :
    (∃ order target deadline, way = .proceed order ∧ r.plan.step? order = some target ∧
      target.IsDue now deadline ∧ next = r.onward closed (target.waiting now deadline) now) ∨
    ∃ status, way = .finish status ∧ next = r.ended closed status now := by
  cases h with
  | proceed found due => exact .inl ⟨_, _, _, rfl, found, due, rfl⟩
  | finish status => exact .inr ⟨status, rfl, rfl⟩

/-- What was closed stays, and at most one more step is reached. -/
lemma Advances.exists_steps {r next : Request} {closed : List StepRecord} {now : Instant}
    {way : Resolution} {event : Event} (h : r.Advances closed now way next event) :
    ∃ rest, next.steps = closed ++ rest := by
  rcases h.next_eq with ⟨order, target, deadline, -, -, -, rfl⟩ | ⟨status, -, rfl⟩
  · exact ⟨_, rfl⟩
  · exact ⟨[], (List.append_nil _).symm⟩

lemma advance_eq_ok_iff {r next : Request} {closed : List StepRecord} {resolution : Resolution}
    {now : Instant} {event : Event} :
    r.advance closed resolution now = .ok (next, event) ↔ r.Advances closed now resolution next event := by
  constructor
  · intro h
    cases resolution with
    | proceed order =>
      simp only [advance] at h
      cases hf : r.plan.step? order with
      | none => simp [hf] at h
      | some target =>
        simp only [hf, Except.bind_eq_ok_iff, Step.start_eq_ok_iff, pure, Except.pure,
          Except.ok.injEq, Prod.mk.injEq] at h
        obtain ⟨_, ⟨deadline, due, rfl⟩, rfl, rfl⟩ := h
        exact .proceed hf due
    | finish status =>
      simp only [advance, Except.ok.injEq, Prod.mk.injEq] at h
      obtain ⟨rfl, rfl⟩ := h
      exact .finish status
  · intro h
    cases h with
    | @proceed order target deadline found due =>
      simp only [advance, found, Except.bind_eq_ok_iff, Step.start_eq_ok_iff]
      exact ⟨_, ⟨deadline, due, rfl⟩, rfl⟩
    | finish status => rfl

/-- The audit note about a decision. -/
def decisionNote (r next : Request) (actor : Actor) (d : Decision) (step : Step) (overridden : Bool)
    (outcome : String) (rule : Rule) (now : Instant) : AuditNote :=
  { requestId := some r.id
    action := .stepDecided
    actor := some actor.userId
    resourceType := "request"
    resourceId := r.id.text
    details := some
      (decisionDetails step step.order outcome d.context overridden r.status next.status rule.resolution)
    createdAt := now }

lemma pendingStep_eq_ok_iff {r : Request} {step : Step} :
    r.pendingStep = .ok step ↔
      r.status.isTerminal = false ∧
        ∃ record, r.current? = some record ∧ r.plan.step? record.order = some step := by
  unfold pendingStep
  cases ht : r.status.isTerminal with
  | true => simp
  | false =>
    cases hc : r.current? with
    | none => simp
    | some record => cases hs : r.plan.step? record.order <;> simp [hs]

theorem decide_eq_ok_iff {r : Request} {actor : Actor} {d : Decision} {now : Instant} {x : Decided} :
    r.decide actor d now = .ok x ↔
      ∃ record step overridden outcome rule,
        r.Grounds actor d record step overridden outcome rule ∧
        r.Advances (r.closedSteps outcome d.context actor.userId now) now rule.resolution x.request
          x.event ∧
        x.resolution = rule.resolution ∧
        x.note = r.decisionNote x.request actor d step overridden outcome rule now := by
  have expected : (¬ d.expectedVersion.any (· ≠ r.version) = true) ↔
      ∀ v, d.expectedVersion = some v → v = r.version := by
    cases d.expectedVersion <;> simp
  unfold decide
  by_cases stale : d.expectedVersion.any (· ≠ r.version) = true
  · simp only [stale, if_true, bind, Except.bind, reduceCtorEq, false_iff]
    rintro ⟨record, step, overridden, outcome, rule, grounds, -⟩
    exact absurd stale (expected.mpr grounds.expected)
  · simp only [stale, if_false, Except.bind_eq_ok_iff, pendingStep_eq_ok_iff, pure, Except.pure,
      Except.ok.injEq, Bool.false_eq_true]
    constructor
    · rintro ⟨step, ⟨isOpen, record, pending, planned⟩, overridden, admitted, outcome, named, rule,
        taken, ⟨next, event⟩, advanced, rfl⟩
      exact ⟨record, step, overridden, outcome, rule,
        ⟨expected.mp stale, isOpen, pending, planned, admitted, named, taken⟩,
        advance_eq_ok_iff.mp advanced, rfl, rfl⟩
    · rintro ⟨record, step, overridden, outcome, rule, grounds, advanced, resolution, note⟩
      refine ⟨step, ⟨grounds.isOpen, record, grounds.pending, grounds.planned⟩, overridden,
        grounds.admitted, outcome, grounds.named, rule, grounds.taken, (x.request, x.event),
        advance_eq_ok_iff.mpr advanced, ?_⟩
      cases x
      simp only at resolution note
      rw [resolution, note]
      rfl

/-- A decision that is meant for another version is refused before anything else. -/
lemma decide_of_stale {r : Request} {actor : Actor} {d : Decision} {now : Instant} {v : Int}
    (expected : d.expectedVersion = some v) (stale : r.version ≠ v) :
    r.decide actor d now = .error (.clash .stale) := by
  have differs : (some v).any (· ≠ r.version) = true := by simpa using stale.symm
  simp only [decide, expected, differs, if_true]
  rfl

/-! ### What a decision leaves as it was -/

section Same

variable {r : Request} {actor : Actor} {d : Decision} {now : Instant} {x : Decided}

lemma eq_of_decide (h : r.decide actor d now = .ok x) :
    x.request = { r with
      status := x.request.status
      version := r.version + 1
      steps := x.request.steps
      updatedAt := now
      completedAt := x.request.completedAt } := by
  obtain ⟨record, step, overridden, outcome, rule, -, advanced, -, -⟩ := decide_eq_ok_iff.mp h
  rcases advanced.next_eq with ⟨order, target, deadline, -, -, -, next⟩ | ⟨status, -, next⟩
  · rw [next]
    rfl
  · rw [next]
    rfl

@[grind →] lemma id_of_decide (h : r.decide actor d now = .ok x) : x.request.id = r.id := by
  rw [eq_of_decide h]

@[grind →] lemma plan_of_decide (h : r.decide actor d now = .ok x) : x.request.plan = r.plan := by
  rw [eq_of_decide h]

@[grind →]
lemma payload_of_decide (h : r.decide actor d now = .ok x) : x.request.payload = r.payload := by
  rw [eq_of_decide h]

@[grind →]
lemma version_of_decide (h : r.decide actor d now = .ok x) : x.request.version = r.version + 1 := by
  rw [eq_of_decide h]

@[grind →]
lemma createdAt_of_decide (h : r.decide actor d now = .ok x) : x.request.createdAt = r.createdAt := by
  rw [eq_of_decide h]

/-- A request that was not over before ends at the time of the decision or not at all. -/
lemma completedAt_of_decide (h : r.decide actor d now = .ok x) :
    x.request.completedAt = r.completedAt ∨ x.request.completedAt = some now := by
  obtain ⟨record, step, overridden, outcome, rule, -, advanced, -, -⟩ := decide_eq_ok_iff.mp h
  rcases advanced.next_eq with ⟨order, target, deadline, -, -, -, next⟩ | ⟨status, -, next⟩
  · exact .inl (by rw [next]; rfl)
  · exact .inr (by rw [next]; rfl)

@[grind →]
lemma updatedAt_of_decide (h : r.decide actor d now = .ok x) : x.request.updatedAt = now := by
  rw [eq_of_decide h]

@[grind →]
lemma requestId_of_decide (h : r.decide actor d now = .ok x) : x.note.requestId = some r.id := by
  obtain ⟨record, step, overridden, outcome, rule, -, -, -, note⟩ := decide_eq_ok_iff.mp h
  rw [note]
  rfl

lemma status_ne_escalated_of_decide (h : r.decide actor d now = .ok x) :
    x.request.status ≠ .escalated := by
  obtain ⟨record, step, overridden, outcome, rule, -, advanced, -, -⟩ := decide_eq_ok_iff.mp h
  rcases advanced.next_eq with ⟨order, target, deadline, -, -, -, next⟩ | ⟨status, way, next⟩
  · rw [next]
    simp [onward]
  · rw [next]
    rintro rfl
    exact Bool.noConfusion (Rule.isTerminal_of_resolution way)

/-- A decision announces the next step or the end, and not that a step is late. -/
lemma ne_stepLate_of_decide (h : r.decide actor d now = .ok x) (id : RequestId) (name : String)
    (order : Nat) (stepName : String) (deadline : Instant) :
    x.event ≠ .stepLate id name order stepName deadline := by
  obtain ⟨record, step, overridden, outcome, rule, -, advanced, -, -⟩ := decide_eq_ok_iff.mp h
  generalize rule.resolution = way, x.request = next, x.event = event at advanced
  cases advanced with
  | proceed => simp [assigned]
  | finish => simp [finished]

end Same

end Request

end Approval
