import Approval.CommandLine.Run
import Approval.Proofs.Service.Workflows
import Approval.Proofs.Workflow.Acceptance

/-!
# How a draft is handed in

A draft may be normalized and checked before it is handed in, once or several times, and its steps may stand
in any order: what is said about it and what is stored is the same. The checks trim what they look at, so that
blanks at the ends of a text make no difference to them, and steps are sorted before they are stored.
-/

namespace Approval

@[simp] lemma Text.isVacant_trim (s : String) : isVacant (trim s) = isVacant s := by
  rw [Bool.eq_iff_iff, ← trim_eq_empty_iff, ← trim_eq_empty_iff, trim_trim]

namespace Draft

variable {d : Draft}

/-! ### Normalizing -/

/-- The step with a trimmed name. -/
def trimStep (s : Step) : Step := { s with name := Text.trim s.name }

/-- The rule with a trimmed outcome. -/
def trimRule (r : Rule) : Rule := { r with outcome := Text.trim r.outcome }

lemma normalize_eq (d : Draft) : d.normalize =
    { d with name := Text.trim d.name, steps := d.steps.map trimStep, rules := d.rules.map trimRule } :=
  rfl

@[simp] lemma name_normalize (d : Draft) : d.normalize.name = Text.trim d.name := rfl

@[simp] lemma steps_normalize (d : Draft) : d.normalize.steps = d.steps.map trimStep := rfl

@[simp] lemma rules_normalize (d : Draft) : d.normalize.rules = d.rules.map trimRule := rfl

/-- A normalized draft is normal. -/
@[simp] lemma normalize_normalize (d : Draft) : d.normalize.normalize = d.normalize := by
  have steps : trimStep ∘ trimStep = trimStep := by
    funext s
    simp only [Function.comp_apply, trimStep, Text.trim_trim]
  have rules : trimRule ∘ trimRule = trimRule := by
    funext r
    simp only [Function.comp_apply, trimRule, Text.trim_trim]
  simp only [normalize_eq, List.map_map, steps, rules, Text.trim_trim]

/-! ### Checking -/

@[simp] lemma checkSteps_trimStep (seen : List Nat) (steps : List Step) :
    checkSteps seen (steps.map trimStep) = checkSteps seen steps := by
  induction steps generalizing seen with
  | nil => rfl
  | cons s rest ih => simp only [List.map_cons, checkSteps, trimStep, Text.isVacant_trim, ih]

@[simp]
lemma checkRules_trimRule (orders : List Nat) (seen : List (Nat × String)) (rules : List Rule) :
    checkRules orders seen (rules.map trimRule) = checkRules orders seen rules := by
  induction rules generalizing seen with
  | nil => rfl
  | cons r rest ih => simp only [List.map_cons, checkRules, checkRule, trimRule, Text.trim_trim, ih]

/-- Normalizing a draft changes nothing of what is said about it. -/
@[simp] lemma check_normalize (d : Draft) : d.normalize.check = d.check := by
  have orders : d.normalize.orders = d.orders := by
    rw [Draft.orders, steps_normalize, List.map_map]
    rfl
  have expected : d.normalize.expectedOrders = d.expectedOrders := by
    rw [expectedOrders, steps_normalize, List.length_map, expectedOrders]
  have ways : checkWays d.expectedOrders (d.rules.map trimRule) = checkWays d.expectedOrders d.rules :=
    checkWays_map (fun _ => rfl) fun _ => rfl
  simp only [check, orders, expected, name_normalize, steps_normalize, rules_normalize, Text.isVacant_trim,
    List.isEmpty_map, checkSteps_trimStep, checkRules_trimRule, ways]

/-- Outcomes that differ in the blanks around them are one outcome, whether they are trimmed or not. -/
example :
    let rule (outcome : String) : Rule :=
      { fromStep := 1, outcome, toStep := none, condition := none, ending := none }
    checkRules [1] [] [rule "APPROVED", rule "APPROVED "] = .error (.duplicateRule 1 "APPROVED") := by
  decide +kernel

@[simp] lemma verify_normalize (d : Draft) : d.normalize.verify = d.verify := by
  rw [verify, check_normalize, verify]

/-! ### Steps in another order -/

/-- Whether a draft is well-formed does not depend on the order in which its steps are handed in. -/
lemma IsWellFormed.of_perm {steps : List Step} (perm : steps.Perm d.steps) (h : d.IsWellFormed) :
    IsWellFormed { d with steps } where
  named := h.named
  nonempty := fun none => h.nonempty (List.perm_nil.mp ((List.Perm.of_eq none.symm).trans perm).symm)
  stepsNamed := fun s mem => h.stepsNamed s (perm.mem_iff.mp mem)
  hours := fun s mem => h.hours s (perm.mem_iff.mp mem)
  numbered := by
    rw [perm.length_eq]
    exact (perm.map (·.order)).trans h.numbered
  rules := fun r mem => by
    obtain ⟨named, unreserved, starts, leads, ends, asks⟩ := h.rules r mem
    exact ⟨named, unreserved, by simpa only [perm.mem_iff] using starts, by simpa only [perm.mem_iff] using leads,
      ends, asks⟩
  distinct := h.distinct
  ruled := fun s mem => h.ruled s (perm.mem_iff.mp mem)
  wayOut := h.wayOut

lemma verify_eq_ok_iff_of_perm {steps : List Step} (perm : steps.Perm d.steps) :
    verify { d with steps } = .ok () ↔ d.verify = .ok () := by
  simp only [verify_eq_ok_iff, check_eq_ok_iff_isWellFormed]
  exact ⟨fun h => h.of_perm (d := { d with steps }) perm.symm, fun h => h.of_perm perm⟩

end Draft

/-- Steps with distinct numbers are sorted into the same list, however they stood. -/
lemma Step.mergeSort_eq_of_perm {as bs : List Step} (perm : as.Perm bs) (distinct : (bs.map (·.order)).Nodup) :
    as.mergeSort (fun a b => a.order ≤ b.order) = bs.mergeSort fun a b => a.order ≤ b.order := by
  have sorted (steps : List Step) :
      (steps.mergeSort fun a b => a.order ≤ b.order).Pairwise fun a b => a.order ≤ b.order := by
    refine (List.pairwise_mergeSort ?_ ?_ steps).imp of_decide_eq_true
    · simp only [decide_eq_true_eq]
      exact fun a b c => Nat.le_trans
    · simpa using fun a b : Step => Nat.le_total a.order b.order
  refine List.Perm.eq_of_pairwise ?_ (sorted as) (sorted bs)
    ((List.mergeSort_perm as _).trans (perm.trans (List.mergeSort_perm bs _).symm))
  intro a b ha hb le ge
  exact List.inj_on_of_nodup_map distinct (perm.mem_iff.mp (List.mem_mergeSort.mp ha)) (List.mem_mergeSort.mp hb)
    (Nat.le_antisymm le ge)

variable [Supply]

namespace Workflows

open Work Operation

variable {d : Draft} {createdBy : Option UserId} {c : Context} {w : World}

/-- Of a draft that was normalized and checked before, the same is created as of the draft itself. -/
lemma create_normalize (d : Draft) (createdBy : Option UserId) :
    (do ofResult d.normalize.verify; create d.normalize createdBy) = create d createdBy := by
  funext c w
  rcases verified : d.normalize.verify with fault | _
  · rw [bind_of_error (ofResult_run _), create, bind_of_error ((ofResult_run _).trans (by rw [verified]))]
  · rw [bind_of_ok (ofResult_run _), create, create, Draft.normalize_normalize]

/-- A draft with its steps in another order becomes the same workflow, or none as well. -/
lemma create_of_perm {steps : List Step} (perm : steps.Perm d.steps) :
    (create { d with steps } createdBy c w).1.toOption = (create d createdBy c w).1.toOption ∧
      (create { d with steps } createdBy c w).2 = (create d createdBy c w).2 := by
  have trimmed : (steps.map Draft.trimStep).Perm d.normalize.steps := perm.map _
  have accepted := Draft.verify_eq_ok_iff_of_perm (d := d.normalize) trimmed
  change Draft.verify (Draft.normalize { d with steps }) = .ok () ↔ _ at accepted
  rcases verified : d.normalize.verify with fault | u
  · have refused : ∃ fault, (Draft.normalize { d with steps }).verify = .error fault := by
      rcases again : (Draft.normalize { d with steps }).verify with fault | u
      · exact ⟨fault, rfl⟩
      · exact absurd (verified.symm.trans (accepted.mp again)) (by simp)
    obtain ⟨fault, refused⟩ := refused
    rw [create, create, verified, refused, bind_of_error (ofResult_run _), bind_of_error (ofResult_run _)]
    exact ⟨rfl, rfl⟩
  · have wellFormed := Draft.check_eq_ok_iff_isWellFormed.mp (Draft.verify_eq_ok_iff.mp verified)
    have distinct : (d.normalize.steps.map (·.order)).Nodup := wellFormed.numbered.nodup_iff.mpr List.nodup_range'
    have same (id : WorkflowId) (now : Instant) :
        ofDraft (Draft.normalize { d with steps }) id createdBy now = ofDraft d.normalize id createdBy now := by
      simp only [ofDraft, Draft.normalize_eq]
      rw [Step.mergeSort_eq_of_perm trimmed distinct]
      rfl
    rw [create, create, verified, accepted.mpr verified]
    simp only [same, and_self]

end Workflows

namespace CommandLine

open Work

/-- A command that creates a workflow from a document does with its draft what is done with one that is not
checked before. -/
lemma run_create_of_read {d : Draft} {around : Surroundings} {path document : String}
    (stored : around.file? path = some document) (reads : (Yaml.read? document).map Draft.decode = some (.ok d))
    (inJson : Bool) (actor : Option UserId) :
    (WorkflowCommand.create path).run around inJson actor = (do
      let wf ← Workflows.create d actor
      return printed inJson wf.json (createdLines wf)) := by
  have once := Workflows.create_normalize d actor
  funext c w
  rcases verified : d.normalize.verify with fault | u
  · have refuses : Draft.ofDocument document = .error fault := by
      simp only [Draft.ofDocument, reads, verified]
      rfl
    have refused : Workflows.create d actor c w = (.error fault, w) := by
      rw [← once, bind_of_error ((ofResult_run _).trans (by rw [verified]))]
    have fails : (Workflows.create d actor : Running Workflow) c w = (.error (.failure fault), w) :=
      mapError_of_error refused
    simp only [WorkflowCommand.run, stored, refuses]
    exact (bind_of_error (mapError_of_error (ofResult_run _))).trans (bind_of_error fails).symm
  · have passes : Draft.ofDocument document = .ok d.normalize := by
      simp only [Draft.ofDocument, reads, verified]
      rfl
    have same : Workflows.create d.normalize actor = Workflows.create d actor := by
      funext c w
      rw [← once, bind_of_ok ((ofResult_run _).trans (by rw [verified]))]
    simp only [WorkflowCommand.run, stored, passes]
    rw [bind_of_ok (mapError_of_ok (ofResult_run _)), same]

end CommandLine

/-- How a draft is handed in makes no difference to what is said about it and to what becomes of it. -/
structure Draft.Settled (d : Draft) : Prop where
  normal : d.normalize.normalize = d.normalize
  /-- The normalized draft is accepted as well, or refused with the same fault. -/
  checked : d.normalize.verify = d.verify
  /-- Normalized and checked before, it is created or refused as if it were handed in as it is. -/
  created (createdBy : Option UserId) :
    (do Work.ofResult d.normalize.verify; Workflows.create d.normalize createdBy) = Workflows.create d createdBy
  /-- So it is by a command that reads it from a file. -/
  submitted {around : CommandLine.Surroundings} {path document : String} (stored : around.file? path = some document)
    (reads : (Yaml.read? document).map Draft.decode = some (.ok d)) (inJson : Bool) (actor : Option UserId) :
    (CommandLine.WorkflowCommand.create path).run around inJson actor = (do
      let wf ← Workflows.create d actor
      return CommandLine.printed inJson wf.json (CommandLine.createdLines wf))
  /-- In whatever order its steps stand, the same workflow is stored and answered, or nothing is. -/
  reordered {steps : List Step} (perm : steps.Perm d.steps) (createdBy : Option UserId) (c : Context) (w : World) :
    (Workflows.create { d with steps } createdBy c w).1.toOption = (Workflows.create d createdBy c w).1.toOption ∧
      (Workflows.create { d with steps } createdBy c w).2 = (Workflows.create d createdBy c w).2

/-- Drafts may be normalized and checked before they are handed in, and their steps may stand in any order. -/
theorem Draft.settled (d : Draft) : d.Settled where
  normal := d.normalize_normalize
  checked := d.verify_normalize
  created := Workflows.create_normalize d
  submitted := CommandLine.run_create_of_read
  reordered perm _ _ _ := Workflows.create_of_perm perm

end Approval
