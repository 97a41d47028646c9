import Approval.Proofs.Workflow.Validity

/-!
# Which drafts are accepted

A draft is accepted exactly if it is well-formed, and is refused as invalid otherwise. What well-formed means
is said without the checks: by the numbers of the steps as a whole, by what each rule may name, and by the
ways that rules lead.
-/

namespace Approval

open Relation

/-- The rule stands between steps of the given ones, and what it says is complete. -/
structure Rule.IsWellFormed (steps : List Step) (r : Rule) : Prop where
  named : Text.trim r.outcome ≠ ""
  unreserved : Text.sameIgnoringCase (Text.trim r.outcome) "PENDING" = false
  starts : ∃ s ∈ steps, s.order = r.fromStep
  leads : ∀ n, r.toStep = some n → ∃ s ∈ steps, s.order = n
  /-- Only a rule that leads to the end says how the request ends. -/
  ends : r.ending.isSome = true → r.toStep = none
  asks : ∀ c, r.condition = some c → Text.trim c.field ≠ ""

/-- The draft is one that requests can be carried out by. -/
structure Draft.IsWellFormed (d : Draft) : Prop where
  named : Text.trim d.name ≠ ""
  nonempty : d.steps ≠ []
  stepsNamed : ∀ s ∈ d.steps, Text.trim s.name ≠ ""
  hours : ∀ s ∈ d.steps, s.hours ≤ 87600
  /-- The steps have the numbers from 1 on, each once and in any order. -/
  numbered : (d.steps.map (·.order)).Perm (List.range' 1 d.steps.length)
  rules : ∀ r ∈ d.rules, r.IsWellFormed d.steps
  distinct : d.rules.Pairwise fun a b => a.condition = none → b.condition = none →
    (a.fromStep, Text.trim a.outcome) ≠ (b.fromStep, Text.trim b.outcome)
  ruled : ∀ s ∈ d.steps, ∃ r ∈ d.rules, r.fromStep = s.order
  wayOut : ∀ n, ReflTransGen (Rule.Leads d.rules) 1 n → Rule.HasWayOut d.rules n

namespace Draft

variable {d : Draft}

/-! ### Numbers of steps -/

/-- Sorted, the numbers of the steps are those from 1 on exactly if they are these in any order. -/
lemma orders_eq_iff : d.orders = d.expectedOrders ↔ (d.steps.map (·.order)).Perm (List.range' 1 d.steps.length) := by
  have sorted := List.mergeSort_perm (d.steps.map (·.order)) fun a b => a ≤ b
  constructor
  · intro same
    rw [orders, expectedOrders] at same
    exact same ▸ sorted.symm
  · intro perm
    have ascending : d.orders.Pairwise (· ≤ ·) := by
      refine (List.pairwise_mergeSort ?_ ?_ _).imp of_decide_eq_true
      · simp only [decide_eq_true_eq]
        exact fun a b c => Nat.le_trans
      · simpa using Nat.le_total
    have expected : d.expectedOrders.Pairwise (· ≤ ·) :=
      (List.pairwise_lt_range' (s := 1) (n := d.steps.length)).imp Nat.le_of_lt
    exact List.Perm.eq_of_pairwise (fun a b _ _ => Nat.le_antisymm) ascending expected (sorted.trans perm)

/-- The numbers that rules may name are those of the steps. -/
lemma mem_expectedOrders_iff (numbered : d.orders = d.expectedOrders) {n : Nat} :
    n ∈ d.expectedOrders ↔ ∃ s ∈ d.steps, s.order = n := by
  rw [← numbered, mem_orders]

/-! ### Steps and rules -/

/-- Steps whose numbers are right pass exactly if each has a name and not too many hours. -/
lemma checkSteps_eq_ok_iff_of_numbered (numbered : d.orders = d.expectedOrders) :
    checkSteps [] d.steps = .ok () ↔ ∀ s ∈ d.steps, Text.trim s.name ≠ "" ∧ s.hours ≤ 87600 := by
  have distinct : (d.steps.map (·.order)).Nodup := (orders_eq_iff.mp numbered).nodup_iff.mpr List.nodup_range'
  simp only [checkSteps_eq_ok_iff, Text.isVacant_eq_false_iff, List.not_mem_nil, not_false_eq_true, implies_true,
    distinct, and_true]
  rfl

/-- Rules between numbered steps pass exactly if each is well-formed and no two are alike. -/
lemma checkRules_eq_ok_iff_of_numbered (numbered : d.orders = d.expectedOrders) :
    checkRules d.expectedOrders [] d.rules = .ok () ↔
      (∀ r ∈ d.rules, r.IsWellFormed d.steps) ∧ Distinct d.rules := by
  simp only [checkRules_eq_ok_iff, checkRule_eq_ok_iff, mem_expectedOrders_iff numbered, Text.isVacant_eq_false_iff,
    String.isEmpty_eq_false_iff, List.not_mem_nil, not_false_eq_true, implies_true, true_and]
  constructor
  · rintro ⟨each, asks, distinct⟩
    refine ⟨fun r mem => ?_, distinct⟩
    obtain ⟨named, unreserved, starts, leads⟩ := each r mem
    refine ⟨named, unreserved, starts, fun n target => (leads n target).1, fun ends => ?_, asks r mem⟩
    cases target : r.toStep with
    | none => rfl
    | some n => simp [(leads n target).2] at ends
  · rintro ⟨each, distinct⟩
    refine ⟨fun r mem => ?_, fun r mem => (each r mem).asks, distinct⟩
    obtain ⟨named, unreserved, starts, leads, ends, -⟩ := each r mem
    refine ⟨named, unreserved, starts, fun n target => ⟨leads n target, ?_⟩⟩
    cases ending : r.ending with
    | none => rfl
    | some _ => simp [ends (by simp [ending])] at target

/-! ### Ways -/

/-- The search forward and backward passes exactly if every step has a rule and each that rules lead to from
the first one has a way out. -/
lemma checkWays_eq_ok_iff_of_rules {orders : List Nat} {rules : List Rule} (first : 1 ∈ orders)
    (starts : ∀ r ∈ rules, r.fromStep ∈ orders) (leads : ∀ r ∈ rules, ∀ n, r.toStep = some n → n ∈ orders) :
    checkWays orders rules = .ok () ↔
      (∀ n ∈ orders, ∃ r ∈ rules, r.fromStep = n) ∧
        ∀ n, ReflTransGen (Rule.Leads rules) 1 n → Rule.HasWayOut rules n := by
  have known (m n : Nat) (link : Rule.Leads rules m n) : n ∈ orders := by
    obtain ⟨r, mem, -, target⟩ := link
    exact leads r mem n target
  rw [checkWays_eq_ok_iff]
  refine and_congr_right fun _ => ⟨fun leaving n path => ?_, fun ways n _ reached => ?_⟩
  · have mem : n ∈ orders := by
      cases path with
      | refl => exact first
      | tail _ link => exact known _ _ link
    have found := leaving n mem (Rule.mem_explore_of_leads first known path)
    exact (Rule.leaves_of_mem_explore_lastSteps found).hasWayOut
  · exact (ways n (Rule.leads_of_mem_explore reached)).mem_explore starts

/-! ### Accepted drafts -/

lemma check_eq_ok_iff_isWellFormed : d.check = .ok () ↔ d.IsWellFormed := by
  rw [check_eq_ok_iff, Text.isVacant_eq_false_iff]
  -- The other checks are about the numbers of the steps, so these come first.
  by_cases numbered : d.orders = d.expectedOrders
  swap
  · exact ⟨fun h => absurd h.2.2.2.1 numbered, fun h => absurd (orders_eq_iff.mpr h.numbered) numbered⟩
  rw [checkSteps_eq_ok_iff_of_numbered numbered, checkRules_eq_ok_iff_of_numbered numbered]
  have known {n : Nat} := mem_expectedOrders_iff numbered (n := n)
  have ways (nonempty : d.steps ≠ []) (each : ∀ r ∈ d.rules, r.IsWellFormed d.steps) :=
    checkWays_eq_ok_iff_of_rules
      (mem_expectedOrders.mpr ⟨Nat.le_refl 1, List.length_pos_of_ne_nil nonempty⟩)
      (fun r mem => known.mpr (each r mem).starts) fun r mem n target => known.mpr ((each r mem).leads n target)
  constructor
  · rintro ⟨named, nonempty, steps, -, ⟨each, distinct⟩, searched⟩
    obtain ⟨ruled, wayOut⟩ := (ways nonempty each).mp searched
    exact
      { named
        nonempty
        stepsNamed := fun s mem => (steps s mem).1
        hours := fun s mem => (steps s mem).2
        numbered := orders_eq_iff.mp numbered
        rules := each
        distinct
        ruled := fun s mem => ruled s.order (known.mpr ⟨s, mem, rfl⟩)
        wayOut }
  · intro h
    refine ⟨h.named, h.nonempty, fun s mem => ⟨h.stepsNamed s mem, h.hours s mem⟩, numbered,
      ⟨h.rules, h.distinct⟩, (ways h.nonempty h.rules).mpr ⟨fun n mem => ?_, h.wayOut⟩⟩
    obtain ⟨s, stored, rfl⟩ := known.mp mem
    exact h.ruled s stored

/-- A draft is accepted exactly if it is well-formed; any other one is refused as invalid. -/
theorem verify_iff_isWellFormed (d : Draft) :
    (d.verify = .ok () ↔ d.IsWellFormed) ∧
      (¬d.IsWellFormed → ∃ fault, d.verify = .error (.invalid (.draft fault))) := by
  refine ⟨verify_eq_ok_iff.trans check_eq_ok_iff_isWellFormed, fun malformed => ?_⟩
  rw [← check_eq_ok_iff_isWellFormed] at malformed
  unfold verify
  cases checked : d.check with
  | ok u => exact absurd checked malformed
  | error fault => exact ⟨fault, rfl⟩

/-- Two steps that lead to each other only are not accepted. -/
example :
    let rule (m n : Nat) : Rule :=
      { fromStep := m, outcome := "MORE", toStep := some n, condition := none, ending := none }
    checkWays [1, 2] [rule 1 2, rule 2 1] = .error (.noWayOut 1) := by
  decide +kernel

end Draft

end Approval
