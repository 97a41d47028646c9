import Approval.Proofs.Request.Lifecycle
import Approval.Proofs.Service.Sweep

/-!
# Why a request went the way it did

A request keeps enough to tell why it is where it is. For each step that it left, the outcome, the note
and the payload single out a rule of its plan, and this rule leads to the step that it reached next or,
from the last one, to the status that it ended with.
-/

namespace Approval

/-! ### The rule for an outcome -/

/-- The rule is one for an outcome of a step, and its condition holds if it has one. -/
def Rule.Matches (rule : Rule) (order : Nat) (outcome : String) (data : Json) : Prop :=
  rule.fromStep = order ∧ rule.outcome = outcome ∧
    ∀ condition, rule.condition = some condition → condition.holds data = true

/-- The rule is the first one of a plan that matches an outcome of a step. -/
def Plan.FirstMatch (p : Plan) (order : Nat) (outcome : String) (data : Json) (rule : Rule) : Prop :=
  ∃ before after, p.rules = before ++ rule :: after ∧ rule.Matches order outcome data ∧
    ∀ other ∈ before, ¬other.Matches order outcome data

@[simp] lemma Rule.applies_eq_true_iff {rule : Rule} {data : Json} :
    rule.applies data = true ↔
      ∀ condition, rule.condition = some condition → condition.holds data = true := by
  unfold applies
  cases rule.condition <;> simp

/-- The rule that is looked up for an outcome is the first one that matches. -/
@[simp]
lemma Plan.ruleFor?_eq_some_iff {p : Plan} {order : Nat} {outcome : String} {data : Json} {rule : Rule} :
    p.ruleFor? order outcome data = some rule ↔ p.FirstMatch order outcome data rule := by
  have matches_iff (r : Rule) :
      decide (decide (r.fromStep = order ∧ r.outcome = outcome) = true ∧ r.applies data = true) = true ↔
        r.Matches order outcome data := by
    simp only [decide_eq_true_eq, Rule.applies_eq_true_iff, Rule.Matches, and_assoc]
  simp only [ruleFor?, rulesFor, List.find?_filter, List.find?_eq_some_iff_append, FirstMatch,
    Bool.not_eq_true', Bool.eq_false_iff, ne_eq, matches_iff]
  constructor
  · rintro ⟨fits, before, after, split, first⟩
    exact ⟨before, after, split, fits, first⟩
  · rintro ⟨before, after, split, fits, first⟩
    exact ⟨fits, before, after, split, first⟩

namespace Request

/-- A rule that a decision takes is the first one that matches. -/
lemma firstMatch_of_ruleOf {r : Request} {step : Step} {outcome : String} {context : Option Json}
    {rule : Rule} (h : r.ruleOf step outcome context = .ok rule) :
    r.plan.FirstMatch step.order outcome (Condition.data r.payload context) rule := by
  unfold ruleOf at h
  split at h
  · rename_i found
    obtain rfl := Except.ok.inj h
    exact Plan.ruleFor?_eq_some_iff.mp found
  · cases h

/-! ### Justified requests -/

/-- The status that a rule ends a request with: the one that it names, or else completed for the outcome
of success and rejected for all others. -/
def EndsWith (rule : Rule) (outcome : String) (status : Status) : Prop :=
  (∀ ending, rule.ending = some ending → status = .ofEnding ending) ∧
    (rule.ending = none → status = if outcome = "APPROVED" then .completed else .rejected)

/-- A rule of the plan accounts for a closed step and the order of the step that came next, or for the end
if none did. -/
def Accounts (r : Request) (s : StepRecord) (next : Option Nat) : Prop :=
  ∃ outcome rule, s.outcome = some outcome ∧
    r.plan.FirstMatch s.order outcome (Condition.data r.payload s.note) rule ∧
    rule.toStep = next ∧ (next = none → EndsWith rule outcome r.status)

/-- Rules of its plan account for all steps that a request left. -/
def Justified (r : Request) : Prop :=
  ∀ i s, r.steps[i]? = some s → s.isPending = false → r.Accounts s (r.steps[i + 1]?.map (·.order))

lemma endsWith_finalStatus (rule : Rule) : EndsWith rule rule.outcome rule.finalStatus := by
  unfold EndsWith Rule.finalStatus successOutcome
  cases rule.ending <;> simp

/-- What accounts for a step that another one followed does so whatever the status is. -/
lemma Accounts.of_same {r q : Request} {s : StepRecord} {order : Nat} (h : r.Accounts s (some order))
    (plan : q.plan = r.plan) (payload : q.payload = r.payload) : q.Accounts s (some order) := by
  obtain ⟨outcome, rule, named, first, leads, -⟩ := h
  exact ⟨outcome, rule, named, by rwa [plan, payload], leads, by simp⟩

namespace Justified

variable {r q : Request}

lemma of_request {wf : Workflow} {id : RequestId} {requester : UserId} {payload : Json} {now : Instant}
    (h : wf.request id requester payload now = .ok r) : r.Justified := by
  obtain ⟨first, deadline, -, -, rfl⟩ := Workflow.request_eq_ok_iff.mp h
  intro i s found closed
  obtain rfl := List.mem_singleton.mp (List.mem_of_getElem? found)
  exact Bool.noConfusion closed

/-- A request that changes from its last step on stays justified if this step is accounted for. -/
lemma of_last (h : r.Justified) (plan : q.plan = r.plan) (payload : q.payload = r.payload)
    {before : List StepRecord} {record last : StepRecord} (rest : List StepRecord)
    (hr : r.steps = before ++ [record]) (hq : q.steps = before ++ last :: rest) (order : last.order = record.order)
    (waiting : ∀ s ∈ rest, s.isPending = true)
    (accounts : last.isPending = false → q.Accounts last (rest.head?.map (·.order))) : q.Justified := by
  intro i s found closed
  rcases Nat.lt_trichotomy i before.length with below | rfl | above
  · -- The steps before the last one are as they were, and so are the orders that come next.
    have orders : q.steps.map (·.order) = r.steps.map (·.order) ++ rest.map (·.order) := by
      simp [hq, hr, order]
    have inside : i + 1 < r.steps.length := by
      rw [hr, List.length_append, List.length_singleton]
      omega
    have next : q.steps[i + 1]?.map (·.order) = some r.steps[i + 1].order := by
      rw [← List.getElem?_map, orders, List.getElem?_append_left (by simpa using inside)]
      simp [inside]
    have same : r.steps[i]? = some s := by
      rw [hq, List.getElem?_append_left below] at found
      rw [hr, List.getElem?_append_left below, found]
    have before_accounts := h i s same closed
    rw [List.getElem?_eq_getElem inside, Option.map_some] at before_accounts
    rw [next]
    exact before_accounts.of_same plan payload
  · obtain rfl : last = s := by simpa [hq] using found
    have next : q.steps[before.length + 1]? = rest.head? := by
      rw [hq, List.getElem?_append_right (Nat.le_add_right _ _), List.head?_eq_getElem?]
      simp
    rw [next]
    exact accounts closed
  · rw [hq, List.getElem?_append_right above.le, List.getElem?_cons, if_neg (by omega)] at found
    rw [waiting s (List.mem_of_getElem? found)] at closed
    exact Bool.noConfusion closed

/-- A decision that succeeds is accounted for by the rule that it takes. -/
lemma decide (h : r.Justified) (hr : r.Lifecycle) {actor : Actor} {d : Decision} {now : Instant}
    {x : Decided} (decides : r.decide actor d now = .ok x) : x.request.Justified := by
  obtain ⟨before, record, step, overridden, outcome, rule, hs, -, -, grounds, advanced, -⟩ :=
    hr.decide_eq_ok decides
  have order : step.order = record.order := (Plan.mem_of_step? grounds.planned).2
  have first := firstMatch_of_ruleOf grounds.taken
  rw [order] at first
  have named : rule.outcome = outcome := by
    obtain ⟨-, -, -, ⟨-, named, -⟩, -⟩ := first
    exact named
  have plan := plan_of_decide decides
  have payload := payload_of_decide decides
  have accounts (next : Option Nat) (leads : rule.toStep = next)
      (ends : next = none → EndsWith rule outcome x.request.status) :
      x.request.Accounts (record.close outcome d.context actor.userId now) next :=
    ⟨outcome, rule, rfl, by rwa [plan, payload], leads, ends⟩
  rcases advanced.next_eq with ⟨target_order, target, deadline, way, found, -, next⟩ | ⟨status, way, next⟩
  · have reached : target.order = target_order := (Plan.mem_of_step? found).2
    have steps : x.request.steps = before ++ record.close outcome d.context actor.userId now ::
        [target.waiting now deadline] := by
      rw [next]
      simp [onward]
    refine h.of_last plan payload _ hs steps rfl (by simp) fun _ => accounts _ ?_ (by simp)
    rw [Rule.resolution_eq_proceed way, ← reached]
    rfl
  · obtain ⟨terminal, final⟩ := Rule.resolution_eq_finish way
    have steps : x.request.steps = before ++ record.close outcome d.context actor.userId now :: [] := by
      rw [next]
      rfl
    refine h.of_last plan payload _ hs steps rfl (by simp) fun _ => accounts _ terminal fun _ => ?_
    have ended : x.request.status = rule.finalStatus := by
      rw [next, final]
      rfl
    rw [ended, ← named]
    exact endsWith_finalStatus rule

/-- Marking a request as escalated changes nothing that was accounted for. -/
lemma escalated (h : r.Justified) (hr : r.Lifecycle) {escalate : Bool} {now : Instant} {marked : Request}
    (marks : Sweep.escalated escalate now r = some marked) : marked.Justified := by
  obtain ⟨-, inProgress, rfl⟩ := Sweep.escalated_eq_some.mp marks
  have isOpen : r.isOpen = true := by
    rw [isOpen, inProgress]
    rfl
  obtain ⟨before, last, hs, pending, -⟩ := hr.waiting isOpen
  refine h.of_last rfl rfl [] hs hs rfl (by simp) fun closed => ?_
  rw [pending] at closed
  exact Bool.noConfusion closed

end Justified

end Request

end Approval
