import Approval.Proofs.Request.Decision
import Approval.Proofs.Store.ReadBack
import Approval.Proofs.Text.Blank
import Approval.Proofs.Time.Instant
import Approval.Proofs.Workflow.Reach
import Approval.Service.Workflows
import Mathlib.Tactic.SplitIfs

/-!
# What accepted drafts look like

A draft is accepted exactly if each of its checks passes. Of a workflow made of an accepted draft it is
kept that the steps are numbered from 1, that rules have trimmed outcomes and lead to steps of the
workflow, that no outcome of a step has two rules without a condition, and that each step that can be
reached has a way to the end.
-/

namespace Approval

namespace Draft

/-! ### Checks -/

lemma checkSteps_eq_ok_iff {seen : List Nat} {steps : List Step} :
    checkSteps seen steps = .ok () ↔
      (∀ s ∈ steps, Text.isVacant s.name = false ∧ s.hours ≤ maxHours) ∧
        (∀ s ∈ steps, s.order ∉ seen) ∧ (steps.map (·.order)).Nodup := by
  induction steps generalizing seen with
  | nil => simp [checkSteps]
  | cons s rest ih =>
    rw [checkSteps, Except.ite_error_eq_ok_iff, Except.ite_error_eq_ok_iff, Except.ite_error_eq_ok_iff, ih]
    simp only [List.mem_cons, List.map_cons, List.nodup_cons, List.mem_map, forall_eq_or_imp, not_or,
      Bool.not_eq_true, Nat.not_lt, not_exists, not_and]
    constructor
    · rintro ⟨name, hours, new, named, fresh, distinct⟩
      exact ⟨⟨⟨name, hours⟩, named⟩, ⟨new, fun t ht => (fresh t ht).2⟩, fun t ht => (fresh t ht).1, distinct⟩
    · rintro ⟨⟨⟨name, hours⟩, named⟩, ⟨new, fresh⟩, other, distinct⟩
      exact ⟨name, hours, new, named, fun t ht => ⟨other t ht, fresh t ht⟩, distinct⟩

lemma checkRule_eq_ok_iff {orders : List Nat} {r : Rule} :
    checkRule orders r = .ok () ↔
      (Text.trim r.outcome).isEmpty = false ∧
        Text.sameIgnoringCase (Text.trim r.outcome) reservedOutcome = false ∧ r.fromStep ∈ orders ∧
        ∀ target, r.toStep = some target → target ∈ orders ∧ r.ending = none := by
  simp only [checkRule, Except.ite_error_eq_ok_iff, Bool.not_eq_true, not_not]
  cases r.toStep with
  | none => simp
  | some target =>
    rw [Except.ite_error_eq_ok_iff, Except.ite_error_eq_ok_iff]
    simp

/-- Two rules of a list without a condition do not share step and outcome. -/
def Distinct (rules : List Rule) : Prop :=
  rules.Pairwise fun a b => a.condition = none → b.condition = none →
    (a.fromStep, Text.trim a.outcome) ≠ (b.fromStep, Text.trim b.outcome)

lemma checkRules_eq_ok_iff {orders : List Nat} {seen : List (Nat × String)} {rules : List Rule} :
    checkRules orders seen rules = .ok () ↔
      (∀ r ∈ rules, checkRule orders r = .ok ()) ∧
        (∀ r ∈ rules, ∀ c, r.condition = some c → Text.isVacant c.field = false) ∧
        (∀ r ∈ rules, r.condition = none → (r.fromStep, Text.trim r.outcome) ∉ seen) ∧
        Distinct rules := by
  induction rules generalizing seen with
  | nil => simp [checkRules, Distinct]
  | cons r rest ih =>
    cases hc : r.condition with
    | some c =>
      simp only [checkRules, hc, Except.bind_eq_ok_iff, Except.ite_error_eq_ok_iff, ih, Distinct,
        List.pairwise_cons, List.mem_cons, forall_eq_or_imp, Bool.not_eq_true, Option.some.injEq,
        reduceCtorEq, false_implies, implies_true, true_and, forall_eq']
      constructor
      · rintro ⟨_, rule, field, rules, fields, fresh, distinct⟩
        exact ⟨⟨rule, rules⟩, ⟨field, fields⟩, fresh, distinct⟩
      · rintro ⟨⟨rule, rules⟩, ⟨field, fields⟩, fresh, distinct⟩
        exact ⟨(), rule, field, rules, fields, fresh, distinct⟩
    | none =>
      simp only [checkRules, hc, Except.bind_eq_ok_iff, Except.ite_error_eq_ok_iff, ih, Distinct,
        List.pairwise_cons, List.mem_cons, forall_eq_or_imp, not_or, reduceCtorEq, false_implies,
        implies_true, true_and, true_implies]
      constructor
      · rintro ⟨_, rule, new, rules, fields, fresh, distinct⟩
        refine ⟨⟨rule, rules⟩, fields, ⟨new, fun t ht none => (fresh t ht none).2⟩, ?_, distinct⟩
        exact fun t ht none same => (fresh t ht none).1 same.symm
      · rintro ⟨⟨rule, rules⟩, fields, ⟨new, fresh⟩, other, distinct⟩
        refine ⟨(), rule, new, rules, fields, ?_, distinct⟩
        exact fun t ht none => ⟨fun same => other t ht none same.symm, fresh t ht none⟩

lemma checkWays_eq_ok_iff {orders : List Nat} {rules : List Rule} :
    checkWays orders rules = .ok () ↔
      (∀ order ∈ orders, ∃ r ∈ rules, r.fromStep = order) ∧
        ∀ order ∈ orders, order ∈ explore (Rule.targets rules) orders [1] →
          order ∈ explore (Rule.sources rules) orders (Rule.lastSteps rules) := by
  have rule_iff : (orders.find? fun order => !rules.any (·.fromStep = order)) = none ↔
      ∀ order ∈ orders, ∃ r ∈ rules, r.fromStep = order := by
    simp [List.find?_eq_none]
  have way_iff : (orders.find? fun order =>
      (explore (Rule.targets rules) orders [1]).contains order &&
        !(explore (Rule.sources rules) orders (Rule.lastSteps rules)).contains order) = none ↔
      ∀ order ∈ orders, order ∈ explore (Rule.targets rules) orders [1] →
        order ∈ explore (Rule.sources rules) orders (Rule.lastSteps rules) := by
    simp [List.find?_eq_none]
  rw [← rule_iff, ← way_iff]
  unfold checkWays
  split
  · rename_i missing
    simp [missing]
  · rename_i all
    simp only [all, true_and]
    split <;> simp_all

/-- The check of the ways looks at where rules lead from and to only. -/
lemma checkWays_map {f : Rule → Rule} {orders : List Nat} {rules : List Rule}
    (fromStep : ∀ r, (f r).fromStep = r.fromStep) (toStep : ∀ r, (f r).toStep = r.toStep) :
    checkWays orders (rules.map f) = checkWays orders rules := by
  have targets : Rule.targets (rules.map f) = Rule.targets rules := by
    funext n
    simp only [Rule.targets, List.filterMap_map, Function.comp_def, fromStep, toStep]
  have sources : Rule.sources (rules.map f) = Rule.sources rules := by
    funext n
    simp only [Rule.sources, List.filterMap_map, Function.comp_def, fromStep, toStep]
  have lastSteps : Rule.lastSteps (rules.map f) = Rule.lastSteps rules := by
    simp only [Rule.lastSteps, List.filter_map, List.map_map, Function.comp_def, Rule.isTerminal, fromStep, toStep]
  simp only [checkWays, targets, sources, lastSteps, List.any_map, Function.comp_def, fromStep]

lemma check_eq_ok_iff {d : Draft} :
    d.check = .ok () ↔
      Text.isVacant d.name = false ∧ d.steps ≠ [] ∧ checkSteps [] d.steps = .ok () ∧
        d.orders = d.expectedOrders ∧ checkRules d.expectedOrders [] d.rules = .ok () ∧
        checkWays d.expectedOrders d.rules = .ok () := by
  simp only [check, Except.ite_error_eq_ok_iff, Except.bind_eq_ok_iff, Bool.not_eq_true,
    List.isEmpty_eq_false_iff, ne_eq, not_not]
  constructor
  · rintro ⟨name, steps, _, checked, numbered, _, rules, ways⟩
    exact ⟨name, steps, checked, numbered, rules, ways⟩
  · rintro ⟨name, steps, checked, numbered, rules, ways⟩
    exact ⟨name, steps, (), checked, numbered, (), rules, ways⟩

@[simp] lemma verify_eq_ok_iff {d : Draft} : d.verify = .ok () ↔ d.check = .ok () := by
  unfold verify
  cases d.check <;> simp

/-! ### Normalized drafts -/

lemma trim_outcome_of_normalize {d : Draft} {r : Rule} (h : r ∈ d.normalize.rules) :
    Text.trim r.outcome = r.outcome := by
  obtain ⟨raw, -, rfl⟩ := List.mem_map.mp h
  exact Text.trim_trim raw.outcome

@[simp] lemma mem_expectedOrders {d : Draft} {n : Nat} :
    n ∈ d.expectedOrders ↔ 1 ≤ n ∧ n ≤ d.steps.length := by
  rw [expectedOrders, List.mem_range'_1]
  omega

@[simp] lemma mem_orders {d : Draft} {n : Nat} : n ∈ d.orders ↔ ∃ s ∈ d.steps, s.order = n := by
  rw [orders, List.mem_mergeSort, List.mem_map]

/-- Steps that the rules of a checked draft lead to have a way out. -/
lemma leaves_of_leads {d : Draft} (checked : d.check = .ok ()) {n : Nat}
    (path : Relation.ReflTransGen (Rule.Leads d.rules) 1 n) : Rule.Leaves d.rules d.steps.length n := by
  obtain ⟨-, nonempty, -, -, rules, ways⟩ := check_eq_ok_iff.mp checked
  obtain ⟨rule, -⟩ := checkRules_eq_ok_iff.mp rules
  obtain ⟨-, leaving⟩ := checkWays_eq_ok_iff.mp ways
  have one : 1 ∈ d.expectedOrders :=
    mem_expectedOrders.mpr ⟨Nat.le_refl 1, List.length_pos_of_ne_nil nonempty⟩
  have known (m n : Nat) (leads : Rule.Leads d.rules m n) : n ∈ d.expectedOrders := by
    obtain ⟨r, hr, -, leads⟩ := leads
    exact ((checkRule_eq_ok_iff.mp (rule r hr)).2.2.2 n leads).1
  have mem : n ∈ d.expectedOrders := by
    cases path with
    | refl => exact one
    | tail _ leads => exact known _ _ leads
  have leaves := Rule.leaves_of_mem_explore_lastSteps
    (leaving n mem (Rule.mem_explore_of_leads one known path))
  rwa [expectedOrders, List.length_range'] at leaves

end Draft

/-! ### Valid plans -/

/-- What holds of the plan of a workflow that was accepted. -/
structure Plan.Valid (p : Plan) : Prop where
  numbered : ∀ n, (∃ s ∈ p.steps, s.order = n) ↔ 1 ≤ n ∧ n ≤ p.steps.length
  nonempty : 0 < p.steps.length
  hours : ∀ s ∈ p.steps, s.hours ≤ maxHours
  trimmed : ∀ r ∈ p.rules, Text.trim r.outcome = r.outcome
  named : ∀ r ∈ p.rules, r.outcome.isEmpty = false
  unreserved : ∀ r ∈ p.rules, Text.sameIgnoringCase r.outcome reservedOutcome = false
  targets : ∀ r ∈ p.rules, ∀ n, r.toStep = some n → ∃ s ∈ p.steps, s.order = n
  distinct : Draft.Distinct p.rules
  wayOut : ∀ n, Relation.ReflTransGen (Rule.Leads p.rules) 1 n → Rule.Leaves p.rules p.steps.length n

/-- The plan of a workflow that was made of an accepted draft is valid. -/
theorem Workflows.valid_ofDraft {d : Draft} (accepted : d.normalize.verify = .ok ()) (id : WorkflowId)
    (createdBy : Option UserId) (now : Instant) : (ofDraft d.normalize id createdBy now).plan.Valid := by
  have passed := Draft.verify_eq_ok_iff.mp accepted
  have trimmed (r : Rule) (hr : r ∈ d.normalize.rules) := Draft.trim_outcome_of_normalize hr
  generalize d.normalize = draft at passed trimmed ⊢
  obtain ⟨-, nonempty, steps, numbered, rules, -⟩ := Draft.check_eq_ok_iff.mp passed
  obtain ⟨named, -, -⟩ := Draft.checkSteps_eq_ok_iff.mp steps
  obtain ⟨checked, -, -, distinct⟩ := Draft.checkRules_eq_ok_iff.mp rules
  have rule (r : Rule) (hr : r ∈ draft.rules) := Draft.checkRule_eq_ok_iff.mp (checked r hr)
  have length : (ofDraft draft id createdBy now).steps.length = draft.steps.length :=
    List.length_mergeSort _
  have mem_steps (s : Step) : s ∈ (ofDraft draft id createdBy now).steps ↔ s ∈ draft.steps :=
    List.mem_mergeSort
  have mem_numbers (n : Nat) : (∃ s ∈ (ofDraft draft id createdBy now).steps, s.order = n) ↔
      n ∈ draft.expectedOrders := by
    rw [← numbered, Draft.mem_orders]
    simp only [mem_steps]
  refine
    { numbered := ?_
      nonempty := ?_
      hours := fun s hs => (named s ((mem_steps s).mp hs)).2
      trimmed := trimmed
      named := fun r hr => trimmed r hr ▸ (rule r hr).1
      unreserved := fun r hr => trimmed r hr ▸ (rule r hr).2.1
      targets := fun r hr n leads => (mem_numbers n).mpr ((rule r hr).2.2.2 n leads).1
      distinct := distinct
      wayOut := ?_ }
  · intro n
    rw [Workflow.plan, mem_numbers, Draft.mem_expectedOrders, length]
  · rw [Workflow.plan, length]
    exact List.length_pos_of_ne_nil nonempty
  · intro n path
    rw [Workflow.plan, length]
    exact Draft.leaves_of_leads passed path

/-! ### Steps of valid plans -/

lemma Plan.exists_step? {p : Plan} {n : Nat} (known : ∃ s ∈ p.steps, s.order = n) :
    ∃ s, p.step? n = some s := by
  obtain ⟨s, hs, order⟩ := known
  exact Option.isSome_iff_exists.mp (List.find?_isSome.mpr ⟨s, hs, by simpa using order⟩)

/-- A plan in which no way is lost: it has a first step and all steps that its rules lead to, and each is due
soon enough. -/
structure Plan.Passable (p : Plan) : Prop where
  first : ∃ s ∈ p.steps, s.order = 1
  hours : ∀ s ∈ p.steps, s.hours ≤ maxHours
  targets : ∀ r ∈ p.rules, ∀ n, r.toStep = some n → ∃ s ∈ p.steps, s.order = n

lemma Plan.Valid.passable {p : Plan} (h : p.Valid) : p.Passable where
  first := (h.numbered 1).mpr ⟨Nat.le_refl 1, h.nonempty⟩
  hours := h.hours
  targets := h.targets

/-- A step of a passable plan that is reached in a year of four digits is due at some point of time or
never. -/
lemma Plan.Passable.exists_isDue {p : Plan} (h : p.Passable) {s : Step} (hs : s ∈ p.steps) {now : Instant}
    (plain : now.hasPlainYear = true) : ∃ deadline, s.IsDue now deadline := by
  by_cases due : s.hours = 0
  · exact ⟨none, due⟩
  · obtain ⟨deadline, later⟩ := Instant.exists_addHours? plain (Nat.le_trans (h.hours s hs) (by decide))
    exact ⟨some deadline, Nat.pos_of_ne_zero due, later⟩

/-- A workflow with a passable plan can be started in a year of four digits. -/
lemma Workflow.exists_request {wf : Workflow} (passable : wf.plan.Passable) {now : Instant}
    (plain : now.hasPlainYear = true) (id : RequestId) (requester : UserId) (payload : Json) :
    ∃ r, wf.request id requester payload now = .ok r := by
  obtain ⟨first, found⟩ := Plan.exists_step? passable.first
  obtain ⟨deadline, due⟩ := passable.exists_isDue (Plan.mem_of_step? found).1 plain
  exact ⟨_, Workflow.request_eq_ok_iff.mpr ⟨first, deadline, found, due, rfl⟩⟩

/-! ### Passable plans that are read -/

/-- A rule leads where it led before it was stored. -/
@[simp]
lemma Rule.toStep_readBack? (outer : Nat) (r : Rule) : ((r.readBack? outer).getD r).toStep = r.toStep := by
  unfold readBack?
  cases r.condition with
  | none => rfl
  | some c => cases reads : c.value.readBack? outer <;> simp [reads]

/-- A plan is passable when it is read if it was so before it was stored. -/
lemma Plan.Passable.of_rules {p q : Plan} (h : p.Passable) {outer : Nat} (steps : q.steps = p.steps)
    (rules : p.rules.mapM (Rule.readBack? outer) = some q.rules) : q.Passable where
  first := steps ▸ h.first
  hours := steps ▸ h.hours
  targets := by
    intro r hr n leads
    rw [eq_map_of_mapM rules] at hr
    obtain ⟨rule, mem, rfl⟩ := List.mem_map.mp hr
    rw [Rule.toStep_readBack?] at leads
    exact steps ▸ h.targets rule mem n leads

lemma Plan.Passable.readBack {p q : Plan} (h : p.Passable) (reads : p.readBack? = some q) : q.Passable := by
  simp only [Plan.readBack?, Option.bind_eq_bind, Option.bind_eq_some_iff, Option.some.injEq] at reads
  obtain ⟨rules, read, rfl⟩ := reads
  exact h.of_rules rfl read

lemma Workflow.passable_readBack {row wf : Workflow} (h : row.plan.Passable) (reads : row.readBack? = some wf) :
    wf.plan.Passable := by
  simp only [Workflow.readBack?, Option.bind_eq_bind, Option.bind_eq_some_iff, Option.some.injEq] at reads
  obtain ⟨rules, read, created, -, rfl⟩ := reads
  exact h.of_rules rfl read

end Approval
