import Approval.Proofs.Request.Justified
import Approval.Proofs.Run.Rows

/-!
# Every stored request is justified

The way that a stored request went can be told from what is stored of it, if decisions come with a context
that is not null or with none, and JSON numbers are read as they were handed in.
-/

namespace Approval

/-- Calls of all kinds bring about justified requests only and keep them so. -/
lemma requestInvariant_justified : RequestInvariant (fun _ => True) Request.Justified where
  started _ made := .of_request made
  decided _ alive before decides := before.decide alive decides
  escalated _ alive before marks := before.escalated alive marks

variable [Supply] in
/-- After any calls with such contexts and numbers, rules of its plan account for all steps that a stored
request left, and for its end. The same holds of what is read of it. -/
theorem World.justified_after (acts : List Act) (numbers : ∀ a ∈ acts, ∀ v ∈ a.call.values, v.reread = v)
    (contexts : ∀ a ∈ acts, a.call.context? ≠ some .null) {r : Request}
    (h : r ∈ (World.after {} acts).store.requests) :
    r.Justified ∧ ∀ read, r.readBack? = some read → read.Justified := by
  obtain ⟨faithful, justified⟩ := requestInvariant_justified.after_empty acts (fun _ _ => trivial)
    (fun a ha => ⟨numbers a ha, contexts a ha⟩) h
  refine ⟨justified, ?_⟩
  intro read reads
  obtain ⟨-, rfl⟩ := (faithful.readBack?_eq_some_iff (World.alive_after acts r h)).mp reads
  exact justified

/-! ### A run -/

namespace Leave

/-- The workflow with one outcome only: it means to go on as long as a decision asks for more rounds, and
to end else. -/
def rounds : Draft :=
  { draft with
    rules :=
      [{ fromStep := 1, outcome := "APPROVED", toStep := some 1
         condition := some ⟨"decision_data.rounds", .greater, .ofNat 0⟩, ending := none },
       { fromStep := 1, outcome := "APPROVED", toStep := none, condition := none, ending := none }] }

/-- The context of a decision that asks for more rounds. -/
def asking (n : Nat) : Json := .object [("rounds", .ofNat n)]

/-- A request is approved with one more round, and then without any. -/
def roundsRun : List Act :=
  [⟨clock 12, .createWorkflow rounds none⟩,
   ⟨clock 12, .start (.serial .workflow 1) admin.userId (.text "two days")⟩,
   ⟨clock 12, .process request admin { outcome := "APPROVED", context := some (asking 1) }⟩,
   ⟨clock 12, .process request admin { outcome := "APPROVED", context := some (asking 0) }⟩]

/-- The same outcome has taken the request to another round and to the end, and both are accounted for. -/
theorem justified_of_rounds :
    (∀ a ∈ roundsRun, ∀ v ∈ a.call.values, v.reread = v) ∧
      (∀ a ∈ roundsRun, a.call.context? ≠ some .null) ∧
      ∃ r ∈ (World.after {} roundsRun).store.requests, r.status = .completed ∧ r.steps.length = 2 ∧
        r.Justified ∧ ∀ read, r.readBack? = some read → read.Justified := by
  have numbers : ∀ a ∈ roundsRun, ∀ v ∈ a.call.values, v.reread = v := by
    simp only [roundsRun, List.forall_mem_cons, List.not_mem_nil, false_implies, implies_true, and_true,
      ServiceCall.values, Option.toList, rounds, List.filterMap_cons, Rule.value?, Option.map,
      List.filterMap_nil]
    exact ⟨rfl, rfl, rfl, rfl⟩
  have contexts : ∀ a ∈ roundsRun, a.call.context? ≠ some .null := by
    simp [roundsRun, ServiceCall.context?, asking]
  have ends : ∃ r ∈ (World.after {} roundsRun).store.requests,
      r.status = .completed ∧ r.steps.length = 2 := by decide +kernel
  obtain ⟨r, stored, completed, two⟩ := ends
  exact ⟨numbers, contexts, r, stored, completed, two,
    World.justified_after roundsRun numbers contexts stored⟩

end Leave

end Approval
