import Approval.Proofs.Request.History

/-!
# The story of a request

What is announced of a request, told from what is stored of it: each step that it reached, with the
breaches of this step, and then its end. The lemmas say how the story goes on with what is done to the
request.
-/

namespace Approval

namespace Request

/-- The announcement that a step was reached. The gate is that of the step in the plan. -/
def assignment (r : Request) (s : StepRecord) : Event :=
  let step := r.plan.step? s.order
  .stepAssigned r.id r.workflowName s.order s.name (step.bind (·.role)) (step.bind (·.permission)) s.deadline

/-- The announcement that a step was late. -/
def lateness (r : Request) (s : StepRecord) (b : Breach) : Event :=
  .stepLate r.id r.workflowName b.order s.name b.deadline

/-- What is announced of a step at its position: that it was reached, and that it was late for each breach
there. -/
def chapter (r : Request) (breaches : List Breach) (place : StepRecord × Nat) : List Event :=
  r.assignment place.1 :: (breaches.filter (·.position = place.2)).map (r.lateness place.1)

/-- What is announced of a request with some recorded breaches: of one step after the other and, once it is
over, of its end. -/
def story (r : Request) (breaches : List Breach) : List Event :=
  r.steps.zipIdx.flatMap (r.chapter breaches) ++ if r.isOpen then [] else [r.finished]

variable {r q : Request} {breaches : List Breach}

/-! ### Requests with the same story -/

/-- Another request with the same name, plan and steps, but for what is not announced of them, has the same
story if it is open as well or has the same status. -/
lemma story_eq_of_steps {f : StepRecord → StepRecord} (id : q.id = r.id) (name : q.workflowName = r.workflowName)
    (plan : q.plan.steps = r.plan.steps) (steps : q.steps = r.steps.map f)
    (same : ∀ s ∈ r.steps, (f s).order = s.order ∧ (f s).name = s.name ∧ (f s).deadline = s.deadline)
    (isOpen : q.isOpen = r.isOpen) (status : r.isOpen = false → q.status = r.status) :
    q.story breaches = r.story breaches := by
  have chapters : q.steps.zipIdx.flatMap (q.chapter breaches) = r.steps.zipIdx.flatMap (r.chapter breaches) := by
    rw [steps, List.zipIdx_map, List.flatMap_map]
    refine List.flatMap_congr fun ⟨s, i⟩ mem => ?_
    obtain ⟨order, title, deadline⟩ := same s (List.fst_mem_of_mem_zipIdx mem)
    have late : q.lateness (f s) = r.lateness s := by
      funext b
      simp only [lateness, id, name, title]
    simp only [chapter, assignment, Plan.step?, Prod.map, id_eq, id, name, plan, order, title, deadline, late]
  rw [story, story, chapters, isOpen]
  cases open_eq : r.isOpen with
  | true => rfl
  | false => simp only [finished, id, name, status open_eq]

/-- A row has the story of what it reads back as. -/
lemma story_of_readBack? {row : Request} (reads : row.readBack? = some r) :
    r.story breaches = row.story breaches := by
  have status := status_of_readBack? reads
  exact story_eq_of_steps (id_of_readBack? reads) (workflowName_of_readBack? reads) (plan_of_readBack? reads)
    (steps_of_readBack? reads) (fun s _ => by simp) (by rw [isOpen, isOpen, status]) fun _ => status

/-- A row that takes over what has changed has the story of the changed request. -/
lemma story_updateRow {row : Request} (id : row.id = q.id) (name : row.workflowName = q.workflowName)
    (plan : row.plan.steps = q.plan.steps) : (Store.updateRow row q).story breaches = q.story breaches :=
  story_eq_of_steps (f := fun s => s) id name plan (List.map_id' _).symm (fun _ _ => ⟨rfl, rfl, rfl⟩) rfl
    fun _ => rfl

/-! ### How the story goes on -/

/-- The story of a request that has just started is that its first step was reached. -/
lemma story_of_request {wf : Workflow} {id : RequestId} {requester : UserId} {payload : Json} {now : Instant}
    (made : wf.request id requester payload now = .ok r) {first : Step} (begins : r.plan.step? 1 = some first) :
    r.story [] = [r.assigned first] := by
  obtain ⟨step, deadline, found, -, rfl⟩ := Workflow.request_eq_ok_iff.mp made
  obtain rfl : step = first := Option.some.inj (found.symm.trans begins)
  have order := (Plan.mem_of_step? found).2
  have gate : wf.plan.step? step.order = some step := by rw [order, found]
  simp [story, chapter, assignment, assigned, isOpen, Status.isTerminal, Step.waiting, gate,
    current?, StepRecord.isPending, StepStatus.isPending]

section Last

variable {before : List StepRecord} {last : StepRecord}

/-- The chapters of a request end with that of its last step. -/
lemma chapters_append (r : Request) (breaches : List Breach) (before : List StepRecord) (last : StepRecord) :
    (before ++ [last]).zipIdx.flatMap (r.chapter breaches) =
      before.zipIdx.flatMap (r.chapter breaches) ++ r.chapter breaches (last, before.length) := by
  simp [List.zipIdx_append]

/-- A breach of the last step is told in the chapter of this step only. -/
lemma chapters_append_breach {b : Breach} (position : b.position = before.length) :
    (before ++ [last]).zipIdx.flatMap (r.chapter (breaches ++ [b])) =
      (before ++ [last]).zipIdx.flatMap (r.chapter breaches) ++ [r.lateness last b] := by
  have others : before.zipIdx.flatMap (r.chapter (breaches ++ [b])) = before.zipIdx.flatMap (r.chapter breaches) := by
    refine List.flatMap_congr fun ⟨s, i⟩ mem => ?_
    have below := (List.mem_zipIdx' mem).1
    have elsewhere : b.position ≠ i := by omega
    simp [chapter, List.filter_append, elsewhere]
  rw [chapters_append, chapters_append, others, List.append_assoc]
  simp [chapter, List.filter_append, position]

/-- The story of an open request goes on with each breach of the step that it waits at. -/
lemma story_append_breach (steps : r.steps = before ++ [last]) (isOpen : r.isOpen = true) {b : Breach}
    (position : b.position = before.length) :
    r.story (breaches ++ [b]) = r.story breaches ++ [r.lateness last b] := by
  simp only [story, steps, isOpen, chapters_append_breach position, if_true, List.append_nil]

end Last

/-- The story of a request goes on with what a decision announces. -/
lemma story_of_decide (hr : r.Lifecycle) (known : ∀ b ∈ breaches, b.position < r.steps.length) {actor : Actor}
    {d : Decision} {now : Instant} {x : Decided} (decides : r.decide actor d now = .ok x) :
    x.request.story breaches = r.story breaches ++ [x.event] := by
  obtain ⟨before, record, step, overridden, outcome, rule, hs, pending, -, grounds, advanced, -⟩ :=
    hr.decide_eq_ok decides
  -- A step that is closed keeps what was announced of it.
  have told : (before ++ [record.close outcome d.context actor.userId now]).zipIdx.flatMap (r.chapter breaches) =
      r.story breaches := by
    rw [story, hs, isOpen_of_not_isTerminal grounds.isOpen, chapters_append, chapters_append]
    exact (List.append_nil _).symm
  generalize record.close outcome d.context actor.userId now = closed at advanced told
  generalize way : rule.resolution = resolution, x.request = next, x.event = event at advanced
  cases advanced with
  | @proceed order target deadline found due =>
    have gate : r.plan.step? target.order = some target := by rw [(Plan.mem_of_step? found).2, found]
    -- No breach is known of a step that is only reached now.
    have none_known : breaches.filter (·.position = (before ++ [closed]).length) = [] := by
      refine List.filter_eq_nil_iff.mpr fun b mem => ?_
      have below := known b mem
      rw [hs, List.length_append, List.length_singleton] at below
      simp
      omega
    have reached : r.chapter breaches (target.waiting now deadline, (before ++ [closed]).length) =
        [r.assignment (target.waiting now deadline)] := by
      rw [chapter, none_known]
      rfl
    have announced : (r.onward (before ++ [closed]) (target.waiting now deadline) now).assigned target =
        r.assignment (target.waiting now deadline) := by
      simp [assigned, assignment, onward, current?, Step.waiting, gate, StepRecord.isPending, StepStatus.isPending]
    rw [announced, ← told, ← reached, ← chapters_append]
    exact List.append_nil _
  | finish status =>
    have last : (r.ended (before ++ [closed]) status now).isOpen = false := by
      rw [isOpen, ended, Rule.isTerminal_of_resolution way]
      rfl
    rw [story, last, ← told]
    rfl

/-- A decision announces something about its request. -/
@[grind →] lemma requestId_event_of_decide {actor : Actor} {d : Decision} {now : Instant} {x : Decided}
    (decides : r.decide actor d now = .ok x) : x.event.requestId = r.id := by
  obtain ⟨record, step, overridden, outcome, rule, -, advanced, -, -⟩ := decide_eq_ok_iff.mp decides
  generalize rule.resolution = way, x.request = next, x.event = event at advanced
  cases advanced with
  | proceed => rfl
  | finish => rfl

end Request

end Approval
