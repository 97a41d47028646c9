import Approval.Proofs.Request.Alike
import Mathlib.Data.List.Find

/-!
# What the data of a decision can change

Conditions look at the data of the request and of the decision. Where they look at those of the request only,
whoever decides cannot choose the way by what goes with the decision: two decisions that differ in it are
refused for the same reason or lead to the same place.
-/

namespace Approval

/-! ### Paths into the data of the request -/

/-- The path of the condition starts at the data of the request. -/
def Condition.AsksRequest (c : Condition) : Prop := (Text.split '.' c.field).head? = some "request_data"

/-- All conditions of the plan start at the data of the request. -/
def Plan.AsksRequest (p : Plan) : Prop := ∀ rule ∈ p.rules, ∀ c, rule.condition = some c → c.AsksRequest

section Paths

variable (payload : Json) (a b : Option Json)

/-- A path into the data of the request is followed into the payload. -/
@[simp] lemma Condition.follow?_data (rest : List String) :
    (Condition.data payload a).follow? ("request_data" :: rest) = payload.follow? rest := rfl

variable {a b}

lemma Condition.AsksRequest.holds_eq {c : Condition} (h : c.AsksRequest) :
    c.holds (data payload a) = c.holds (data payload b) := by
  obtain ⟨rest, path⟩ := List.head?_eq_some_iff.mp h
  simp only [holds, Json.at?, path, follow?_data]

lemma Plan.AsksRequest.ruleFor?_eq {p : Plan} (h : p.AsksRequest) (order : Nat) (outcome : String) :
    p.ruleFor? order outcome (Condition.data payload a) = p.ruleFor? order outcome (Condition.data payload b) := by
  unfold ruleFor?
  refine List.find?_congr fun rule mem => ?_
  have stored : rule ∈ p.rules := (List.mem_filter.mp mem).1
  unfold Rule.applies
  cases named : rule.condition with
  | none => rfl
  | some c => exact (h rule stored c named).holds_eq payload

end Paths

lemma Request.ruleOf_context_eq {r : Request} (h : r.plan.AsksRequest) (step : Step) (outcome : String)
    (a b : Option Json) : r.ruleOf step outcome a = r.ruleOf step outcome b := by
  rw [ruleOf, ruleOf, h.ruleFor?_eq]

/-! ### Steps that are closed -/

/-- Changing the last member that satisfies something changes one member, at a place that does not depend on
the change. -/
lemma exists_changeLast {α : Type} {p : α → Bool} {as : List α} (h : as.any p = true) :
    ∃ before a after, as = before ++ a :: after ∧ p a = true ∧
      ∀ f, changeLast p f as = before ++ f a :: after := by
  induction as with
  | nil => exact Bool.noConfusion h
  | cons first rest ih =>
    cases later : rest.any p with
    | true =>
      obtain ⟨before, a, after, rfl, satisfied, changed⟩ := ih later
      refine ⟨first :: before, a, after, rfl, satisfied, fun f => ?_⟩
      rw [changeLast, if_pos later, changed, List.cons_append]
    | false =>
      rw [List.any_cons, later, Bool.or_false] at h
      exact ⟨[], first, rest, rfl, h, fun f => by simp [changeLast, later, h]⟩

/-- The step that a decision closes is closed with what goes with the decision as its note, and is otherwise
the same. -/
lemma Request.exists_closedSteps {r : Request} {record : StepRecord} (pending : r.current? = some record)
    (outcome : String) (user : UserId) (now : Instant) :
    ∃ (before : List StepRecord) (closed : StepRecord) (after : List StepRecord), closed.isPending = false ∧
      ∀ context : Option Json, r.closedSteps outcome context user now = before ++ { closed with note := context } :: after := by
  have waits : r.steps.any (·.isPending) = true := by
    refine List.any_eq_true.mpr ⟨record, ?_, List.find?_some pending⟩
    exact List.mem_reverse.mp (List.mem_of_find?_eq_some pending)
  obtain ⟨before, s, after, -, -, changed⟩ := exists_changeLast waits
  refine ⟨before, s.close outcome none user now, after, StepStatus.isPending_ofOutcome outcome, fun context => ?_⟩
  exact changed _

/-! ### Decisions -/

/-- The decisions came to the same, but for the note of the step that they closed and the context that the
audit log tells: the one has the first context there, and the other one the second. -/
structure Decided.DiffersInContext (a b : Option Json) (x y : Decided) : Prop where
  resolution : y.resolution = x.resolution
  event : y.event = x.event
  request : y.request = { x.request with steps := y.request.steps }
  steps : ∃ (before : List StepRecord) (closed : StepRecord) (after : List StepRecord),
    closed.isPending = false ∧ x.request.steps = before ++ { closed with note := a } :: after ∧
      y.request.steps = before ++ { closed with note := b } :: after
  /-- The same step is the next one. -/
  next : y.request.current? = x.request.current?
  note : ∃ before after,
    x.note = { x.note with details := some (.object (before ++ ("context", Json.ofOption id a) :: after)) } ∧
      y.note = { x.note with details := some (.object (before ++ ("context", Json.ofOption id b) :: after)) }

namespace Request

/-- A way is taken with different steps behind, or is refused for the same reason. -/
lemma advance_agree (r : Request) (cs ds : List StepRecord) (way : Resolution) (now : Instant) :
    Agree (fun x y => y.1 = { x.1 with steps := y.1.steps } ∧ y.2 = x.2 ∧
        ∃ rest, x.1.steps = cs ++ rest ∧ y.1.steps = ds ++ rest)
      (r.advance cs way now) (r.advance ds way now) := by
  cases way with
  | proceed order =>
    simp only [advance]
    cases r.plan.step? order with
    | none => exact .error _
    | some target =>
      refine Agree.bind (Agree.self fun record => Step.start_eq_ok_iff.mp) ?_
      rintro _ _ ⟨rfl, deadline, -, rfl⟩
      have current (behind : List StepRecord) :
          (r.onward behind (target.waiting now deadline) now).current? = some (target.waiting now deadline) :=
        current?_eq_of_steps rfl rfl
      refine .ok ⟨rfl, ?_, [target.waiting now deadline], rfl, rfl⟩
      exact congrArg (fun due => Event.stepAssigned r.id r.workflowName target.order target.name target.role
        target.permission (due.bind (·.deadline))) ((current ds).trans (current cs).symm)
  | finish status => exact .ok ⟨rfl, rfl, [], (List.append_nil cs).symm, (List.append_nil ds).symm⟩

/-- What was noted with a step that is closed does not matter to which step is the current one. -/
lemma current?_note_eq {x y : Request} {before after : List StepRecord} {closed : StepRecord} {a b : Option Json}
    (notPending : closed.isPending = false) (left : x.steps = before ++ { closed with note := a } :: after)
    (right : y.steps = before ++ { closed with note := b } :: after) : y.current? = x.current? := by
  have skipped (context : Option Json) : ({ closed with note := context } : StepRecord).isPending = false :=
    notPending
  simp [current?, left, right, List.find?_append, skipped]

/-- Where all conditions look at the data of the request, two decisions that differ in what goes with them are
refused for the same reason, or come to the same but for where this is written down. -/
theorem decide_context_agree {r : Request} (asks : r.plan.AsksRequest) (actor : Actor) (outcome : String)
    (expected : Option Int) (now : Instant) (a b : Option Json) :
    Agree (Decided.DiffersInContext a b)
      (r.decide actor { outcome, context := a, expectedVersion := expected } now)
      (r.decide actor { outcome, context := b, expectedVersion := expected } now) := by
  simp only [decide]
  by_cases stale : expected.any (· ≠ r.version) = true
  · simp only [stale, if_true]
    exact .error _
  simp only [stale, if_false, Bool.false_eq_true]
  refine Agree.bind (Agree.self fun step => pendingStep_eq_ok_iff.mp) ?_
  rintro step _ ⟨rfl, -, record, pending, -⟩
  refine Agree.bind (.rfl_eq _) ?_
  rintro overridden _ rfl
  -- The outcome is read off the decision without its context.
  refine Agree.bind (.rfl_eq (outcomeOf { outcome })) ?_
  rintro outcome _ rfl
  refine Agree.bind (.of_eq (ruleOf_context_eq asks step outcome a b)) ?_
  rintro rule _ rfl
  obtain ⟨before, closed, after, notPending, steps⟩ := exists_closedSteps pending outcome actor.userId now
  refine Agree.bind (r.advance_agree (r.closedSteps outcome a actor.userId now)
    (r.closedSteps outcome b actor.userId now) rule.resolution now) ?_
  rintro ⟨next, event⟩ ⟨next', _⟩ ⟨same, rfl, rest, left, right⟩
  rw [steps, List.append_assoc, List.cons_append] at left right
  have status : next'.status = next.status := (congrArg Request.status same :)
  refine .ok
    { resolution := rfl
      event := rfl
      request := same
      steps := ⟨before, closed, after ++ rest, notPending, left, right⟩
      next := current?_note_eq notPending left right
      note := ⟨[("admin_override", .bool overridden)], _, rfl, ?_⟩ }
  simp only [status]
  rfl

end Request

/-! ### A request for an amount -/

namespace Spending

/-- A request for an amount, which is approved at once if it is small and is looked at again if not. -/
def request : Request where
  id := .serial .request 1
  workflowId := .serial .workflow 1
  workflowName := "spending"
  requester := .serial .user 1
  payload := .object [("amount", Json.ofNat 500)]
  status := .inProgress
  version := 1
  plan :=
    { steps :=
        [{ order := 1, name := "lead", description := none, role := none, permission := none, hours := 0
           isConditional := false }]
      rules :=
        [{ fromStep := 1, outcome := "APPROVED", toStep := none, ending := none
           condition := some ⟨"request_data.amount", .lessEqual, Json.ofNat 1000⟩ },
         { fromStep := 1, outcome := "APPROVED", toStep := some 1, condition := none, ending := none }] }
  steps :=
    [{ order := 1, name := "lead", status := .pending, startedAt := default, deadline := none
       completedAt := none, outcome := none, note := none, actedBy := none }]
  createdAt := default
  updatedAt := default
  completedAt := none

/-- Whoever may decide everything. -/
def admin : Actor where
  userId := .serial .user 2
  username := "root"
  roleIds := []
  permissionIds := []
  isAdmin := true

/-- Data that claim another amount. -/
def claim : Json := .object [("request_data", .object [("amount", Json.ofNat 5000)])]

/-- The small amount is approved, also by a decision with data that claim a larger one. -/
theorem approved_despite_claim :
    request.plan.AsksRequest ∧ ∃ x y,
      request.decide admin { outcome := " APPROVED " } default = .ok x ∧
      request.decide admin { outcome := " APPROVED ", context := some claim } default = .ok y ∧
      x.resolution = .finish .completed ∧ Decided.DiffersInContext none (some claim) x y := by
  have asks : request.plan.AsksRequest := by
    intro rule mem c named
    have paths : ∀ rule ∈ request.plan.rules, ∀ c ∈ rule.condition.toList,
        (Text.split '.' c.field).head? = some "request_data" := by decide +kernel
    exact paths rule mem c (by simp [named])
  have approves : ((request.decide admin { outcome := " APPROVED " } default).toOption.map (·.resolution)) =
      some (.finish .completed) := by decide +kernel
  have agree := Request.decide_context_agree asks admin " APPROVED " none default none (some claim)
  refine ⟨asks, ?_⟩
  generalize request.decide admin { outcome := " APPROVED " } default = first at approves agree ⊢
  generalize request.decide admin { outcome := " APPROVED ", context := some claim } default = second at agree ⊢
  cases agree with
  | error e => simp [Except.toOption] at approves
  | @ok x y differs => exact ⟨x, y, rfl, rfl, Option.some.inj approves, differs⟩

end Spending

end Approval
