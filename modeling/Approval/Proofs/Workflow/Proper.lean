import Approval.Proofs.Workflow.Validity

/-!
# Proper workflows

A workflow that was made of an accepted draft would be accepted again. Its steps stand in the order of their
numbers, which are those from 1 on, and its outcomes are trimmed. Reading its row does not change this, since
checks do not look at the values that conditions name.
-/

namespace Approval

namespace Draft

/-! ### Values that conditions name -/

/-- The function changes the value that the condition of a rule names, if anything. -/
def Likens (f : Rule → Rule) : Prop :=
  ∀ r, (f r).fromStep = r.fromStep ∧ (f r).outcome = r.outcome ∧ (f r).toStep = r.toStep ∧
    (f r).ending = r.ending ∧ (f r).condition.map (·.field) = r.condition.map (·.field)

namespace Likens

variable {f : Rule → Rule} (h : Likens f) {orders : List Nat} {rules : List Rule}
include h

lemma checkRule_eq (r : Rule) : checkRule orders (f r) = checkRule orders r := by
  obtain ⟨fromStep, outcome, toStep, ending, -⟩ := h r
  simp only [checkRule, fromStep, outcome, toStep, ending]

lemma checkRules_eq (seen : List (Nat × String)) :
    checkRules orders seen (rules.map f) = checkRules orders seen rules := by
  induction rules generalizing seen with
  | nil => rfl
  | cons r rest ih =>
    obtain ⟨fromStep, outcome, -, -, field⟩ := h r
    simp only [List.map_cons, checkRules, h.checkRule_eq, fromStep, outcome, ih]
    cases before : r.condition <;> cases after : (f r).condition
    all_goals simp_all

lemma checkWays_eq : checkWays orders (rules.map f) = checkWays orders rules :=
  checkWays_map (fun r => (h r).1) fun r => (h r).2.2.1

lemma check_eq (d : Draft) : check { d with rules := d.rules.map f } = d.check := by
  simp only [check, orders, expectedOrders, h.checkRules_eq, h.checkWays_eq]
  rfl

end Likens

/-- Reading rules changes the values that their conditions name at most. -/
lemma likens_readBack (outer : Nat) : Likens fun r => (r.readBack? outer).getD r := by
  intro r
  unfold Rule.readBack?
  cases named : r.condition with
  | none => simp [named]
  | some c => cases reads : c.value.readBack? outer <;> simp [reads, named]

/-! ### The order of steps -/

/-- The draft with its steps in the order of their numbers. -/
def sorted (d : Draft) : Draft := { d with steps := d.steps.mergeSort fun a b => a.order ≤ b.order }

@[simp] lemma orders_sorted (d : Draft) : d.sorted.steps.map (·.order) = d.orders :=
  List.map_mergeSort fun _ _ _ _ => rfl

/-- The order in which steps are handed in does not matter to the checks. -/
lemma check_sorted {d : Draft} (checked : d.check = .ok ()) : d.sorted.check = .ok () := by
  obtain ⟨name, nonempty, steps, numbered, rules, ways⟩ := check_eq_ok_iff.mp checked
  have mem (s : Step) : s ∈ d.sorted.steps ↔ s ∈ d.steps := List.mem_mergeSort
  have expected : d.sorted.expectedOrders = d.expectedOrders := by
    rw [expectedOrders, sorted, List.length_mergeSort, expectedOrders]
  obtain ⟨named, fresh, distinct⟩ := checkSteps_eq_ok_iff.mp steps
  refine check_eq_ok_iff.mpr ⟨name, ?_, checkSteps_eq_ok_iff.mpr ⟨?_, by simp, ?_⟩, ?_, ?_, ?_⟩
  · rw [← List.length_pos_iff, sorted, List.length_mergeSort]
    exact List.length_pos_of_ne_nil nonempty
  · exact fun s hs => named s ((mem s).mp hs)
  · exact (((List.mergeSort_perm d.steps _).map (·.order)).nodup_iff).mpr distinct
  · rw [orders, orders_sorted, numbered, expected]
    refine List.mergeSort_of_pairwise ?_
    simpa [expectedOrders] using (List.pairwise_lt_range' (s := 1) (n := d.steps.length)).imp Nat.le_of_lt
  · rw [expected]
    exact rules
  · rw [expected]
    exact ways

end Draft

/-! ### Workflows -/

/-- What would be handed in to create the workflow again. -/
def Workflow.draft (wf : Workflow) : Draft where
  name := wf.name
  description := wf.description
  isActive := some wf.isActive
  steps := wf.steps
  rules := wf.rules

/-- The workflow passes the checks for new ones, its steps are those from 1 on in this order, and its outcomes
are trimmed. -/
structure Workflow.Proper (wf : Workflow) : Prop where
  passes : wf.draft.verify = .ok ()
  ordered : wf.steps.map (·.order) = List.range' 1 wf.steps.length
  trimmed : ∀ r ∈ wf.rules, Text.trim r.outcome = r.outcome

/-- A workflow that was made of an accepted draft is proper. -/
theorem Workflows.proper_ofDraft {d : Draft} (accepted : d.normalize.verify = .ok ()) (id : WorkflowId)
    (createdBy : Option UserId) (now : Instant) : (ofDraft d.normalize id createdBy now).Proper where
  passes := Draft.verify_eq_ok_iff.mpr (Draft.check_sorted (Draft.verify_eq_ok_iff.mp accepted))
  ordered := by
    obtain ⟨-, -, -, numbered, -⟩ := Draft.check_eq_ok_iff.mp (Draft.verify_eq_ok_iff.mp accepted)
    have sorted := Draft.orders_sorted d.normalize
    rw [numbered, Draft.expectedOrders, ← List.length_mergeSort] at sorted
    exact sorted
  trimmed := fun _ mem => Draft.trim_outcome_of_normalize mem

/-- A proper workflow reads as a proper one. -/
lemma Workflow.Proper.readBack {row wf : Workflow} (h : row.Proper) (reads : row.readBack? = some wf) :
    wf.Proper := by
  simp only [Workflow.readBack?, Option.bind_eq_bind, Option.bind_eq_some_iff, Option.some.injEq] at reads
  obtain ⟨rules, read, created, -, rfl⟩ := reads
  have likens := Draft.likens_readBack 3
  obtain rfl := eq_map_of_mapM read
  refine ⟨Draft.verify_eq_ok_iff.mpr ?_, h.ordered, ?_⟩
  · exact (likens.check_eq row.draft).trans (Draft.verify_eq_ok_iff.mp h.passes)
  · intro r mem
    obtain ⟨rule, stored, rfl⟩ := List.mem_map.mp mem
    rw [(likens rule).2.1]
    exact h.trimmed rule stored

end Approval
