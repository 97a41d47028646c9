import Approval.Proofs.Request.Decision
import Approval.Proofs.Store.Rows
import Approval.Service.Sweep
import Mathlib.Data.List.Chain

/-!
# The life of a request

An open request waits at the last step it reached, a request that is over waits nowhere, and the steps it
left behind tell how it came there. A request has these properties when it starts; decisions, escalation
and being stored keep them.
-/

namespace Approval

/-! ### Steps -/

/-- The record has the order, the name and the deadline of a step of the plan, the first with its order. -/
def StepRecord.Follows (s : StepRecord) (p : Plan) : Prop :=
  ∃ step ∈ p.steps, s.order = step.order ∧ s.name = step.name ∧
    step.IsDue s.startedAt s.deadline ∧ p.step? s.order = some step

/-- The record says with which outcome, when and by whom its step was closed, and the outcome tells its
status. -/
def StepRecord.Settled (s : StepRecord) : Prop :=
  ∃ outcome time user, s.outcome = some outcome ∧ s.completedAt = some time ∧
    s.actedBy = some user ∧ s.status = .ofOutcome outcome ∧ outcome ≠ reservedOutcome

@[simp]
lemma StepStatus.label_ofOutcome (outcome : String) : (ofOutcome outcome).label = outcome := by
  unfold ofOutcome
  split_ifs with approved rejected skipped
  · exact approved.symm
  · exact rejected.symm
  · exact skipped.symm
  · rfl

/-- No outcome but the reserved one makes a status whose label reads as that of a pending step. -/
lemma StepStatus.ofLabel_ofOutcome {outcome : String} (h : outcome ≠ reservedOutcome) :
    ofLabel (ofOutcome outcome).label = ofOutcome outcome := by
  rw [label_ofOutcome]
  exact if_neg h

@[simp]
lemma StepStatus.isPending_ofOutcome (outcome : String) : (ofOutcome outcome).isPending = false := by
  unfold ofOutcome
  split_ifs <;> rfl

lemma StepRecord.Settled.ofLabel_status {s : StepRecord} (h : s.Settled) :
    StepStatus.ofLabel s.status.label = s.status := by
  obtain ⟨outcome, -, -, -, -, -, hs, hr⟩ := h
  rw [hs, StepStatus.ofLabel_ofOutcome hr]

lemma StepRecord.Settled.asRead {s : StepRecord} (h : s.Settled) : s.asRead.Settled := by
  have status := asRead_status h.ofLabel_status
  obtain ⟨outcome, time, user, ho, hc, hu, hs, hr⟩ := h
  exact ⟨outcome, time, user, by simpa using ho, by simpa using hc, by simpa using hu,
    status.trans hs, hr⟩

lemma StepRecord.Follows.asRead {s : StepRecord} {p : Plan} (h : s.Follows p) : s.asRead.Follows p := by
  obtain ⟨step, hstep, ho, hn, due, found⟩ := h
  exact ⟨step, hstep, by simpa using ho, by simpa using hn, by simpa using due, by simpa using found⟩

lemma StepRecord.ofLabel_status_of_isPending {s : StepRecord} (h : s.isPending = true) :
    StepStatus.ofLabel s.status.label = s.status := by
  unfold isPending StepStatus.isPending at h
  split at h
  · rename_i hs
    rw [hs]
    rfl
  · exact Bool.noConfusion h

@[simp] lemma StepRecord.isPending_close (s : StepRecord) (outcome : String) (context : Option Json)
    (user : UserId) (now : Instant) : (s.close outcome context user now).isPending = false :=
  StepStatus.isPending_ofOutcome outcome

@[simp] lemma Step.isPending_waiting (s : Step) (now : Instant) (deadline : Option Instant) :
    (s.waiting now deadline).isPending = true := rfl

lemma Step.follows_waiting {s : Step} {p : Plan} {order : Nat} (h : p.step? order = some s)
    {now : Instant} {deadline : Option Instant} (due : s.IsDue now deadline) :
    (s.waiting now deadline).Follows p := by
  obtain ⟨planned, rfl⟩ := Plan.mem_of_step? h
  exact ⟨s, planned, rfl, rfl, due, h⟩

lemma StepRecord.Follows.of_steps_eq {s : StepRecord} {p q : Plan} (h : s.Follows p)
    (same : q.steps = p.steps) : s.Follows q := by
  rw [Follows, Plan.step?, same]
  exact h

/-- A decision names an outcome that is not the label of a pending step. -/
lemma Request.ne_reserved_of_outcomeOf {d : Decision} {outcome : String}
    (h : outcomeOf d = .ok outcome) : outcome ≠ reservedOutcome := by
  simp only [outcomeOf, Except.ite_error_eq_ok_iff, Except.ok.injEq] at h
  obtain ⟨-, not_reserved, rfl⟩ := h
  intro same
  rw [same] at not_reserved
  exact not_reserved (by simp [Text.sameIgnoringCase])

/-! ### Requests -/

namespace Request

/-- What holds of a request at every point of its life. -/
structure Lifecycle (r : Request) : Prop where
  notCreated : r.status ≠ .created
  waiting : r.isOpen = true → ∃ before last, r.steps = before ++ [last] ∧ last.isPending = true ∧
    ∀ s ∈ before, s.isPending = false
  finished : r.isOpen = false → ∀ s ∈ r.steps, s.isPending = false
  completed : r.completedAt.isSome = r.status.isTerminal
  begun : ∃ first rest, r.steps = first :: rest ∧ first.order = 1 ∧ first.startedAt = r.createdAt
  follows : ∀ s ∈ r.steps, s.Follows r.plan
  settled : ∀ s ∈ r.steps, s.isPending = false → s.Settled
  linked : r.steps.IsChain fun s next => s.completedAt = some next.startedAt

@[grind →]
lemma isOpen_of_not_isTerminal {r : Request} (h : r.status.isTerminal = false) : r.isOpen = true := by
  rw [isOpen, h]
  rfl

/-- The current step of a request that waits at its last step is that one. -/
lemma current?_eq_of_steps {r : Request} {before : List StepRecord} {last : StepRecord}
    (h : r.steps = before ++ [last]) (hp : last.isPending = true) : r.current? = some last := by
  simp [current?, h, hp]

lemma changeLast_append_singleton {α : Type} {p : α → Bool} {f : α → α} (before : List α) {last : α}
    (h : p last = true) : changeLast p f (before ++ [last]) = before ++ [f last] := by
  induction before with
  | nil => simp [changeLast, h]
  | cons a before ih => simp [changeLast, h, ih]

lemma closedSteps_eq_of_steps {r : Request} {before : List StepRecord} {last : StepRecord}
    (h : r.steps = before ++ [last]) (hp : last.isPending = true) (outcome : String)
    (context : Option Json) (user : UserId) (now : Instant) :
    r.closedSteps outcome context user now = before ++ [last.close outcome context user now] := by
  rw [closedSteps, h, changeLast_append_singleton before hp]

namespace Lifecycle

/-- A request that has just started. -/
lemma of_request {w : Workflow} {id : RequestId} {requester : UserId} {payload : Json}
    {now : Instant} {r : Request} (h : w.request id requester payload now = .ok r) : r.Lifecycle := by
  obtain ⟨first, deadline, found, due, rfl⟩ := Workflow.request_eq_ok_iff.mp h
  have order := (Plan.mem_of_step? found).2
  refine
    { notCreated := by simp
      waiting := fun _ => ⟨[], _, rfl, rfl, by simp⟩
      finished := fun h => Bool.noConfusion h
      completed := rfl
      begun := ⟨_, [], rfl, order, rfl⟩
      follows := ?_
      settled := by simp
      linked := .singleton _ }
  intro s hs
  obtain rfl := List.mem_singleton.mp hs
  exact Step.follows_waiting found due

variable {r : Request}

/-- The steps of a request that can be decided end with the pending one. -/
lemma steps_eq (hr : r.Lifecycle) (h : r.status.isTerminal = false) {record : StepRecord}
    (pending : r.current? = some record) :
    ∃ before, r.steps = before ++ [record] ∧ record.isPending = true ∧
      ∀ s ∈ before, s.isPending = false := by
  obtain ⟨before, last, hs, hp, hb⟩ := hr.waiting (isOpen_of_not_isTerminal h)
  obtain rfl : last = record := Option.some.inj ((current?_eq_of_steps hs hp).symm.trans pending)
  exact ⟨before, hs, hp, hb⟩

/-- A step that waits is the last one. -/
lemma succ_eq_length (hr : r.Lifecycle) {i : Nat} {s : StepRecord} (found : r.steps[i]? = some s)
    (pending : s.isPending = true) : i + 1 = r.steps.length := by
  cases isOpen : r.isOpen with
  | false =>
    rw [hr.finished isOpen s (List.mem_of_getElem? found)] at pending
    exact Bool.noConfusion pending
  | true =>
    obtain ⟨before, last, hs, -, closed⟩ := hr.waiting isOpen
    rw [hs, List.getElem?_append] at found
    split_ifs at found with below
    · rw [closed s (List.mem_of_getElem? found)] at pending
      exact Bool.noConfusion pending
    · have := (List.getElem?_eq_some_iff.mp found).1
      rw [List.length_singleton] at this
      rw [hs, List.length_append, List.length_singleton]
      omega

/-- The part of a request that is over once its pending step was closed. -/
lemma closed (hr : r.Lifecycle) {before : List StepRecord} {last : StepRecord}
    (hs : r.steps = before ++ [last]) (hb : ∀ s ∈ before, s.isPending = false)
    {outcome : String} (ho : outcome ≠ reservedOutcome) (context : Option Json) (user : UserId)
    (now : Instant) :
    let steps := before ++ [last.close outcome context user now]
    (∀ s ∈ steps, s.isPending = false) ∧ (∀ s ∈ steps, s.Follows r.plan) ∧ (∀ s ∈ steps, s.Settled) ∧
      (∃ first rest, steps = first :: rest ∧ first.order = 1 ∧ first.startedAt = r.createdAt) ∧
      steps.IsChain fun s next => s.completedAt = some next.startedAt := by
  have hf := hr.follows
  have hl := hr.linked
  simp only [hs, List.mem_append, List.mem_singleton] at hf
  refine ⟨?_, ?_, ?_, ?_, ?_⟩
  · simp only [List.mem_append, List.mem_singleton]
    rintro s (h | rfl)
    · exact hb s h
    · simp
  · simp only [List.mem_append, List.mem_singleton]
    rintro s (h | rfl)
    · exact hf s (.inl h)
    · exact hf last (.inr rfl)
  · simp only [List.mem_append, List.mem_singleton]
    rintro s (h | rfl)
    · exact hr.settled s (by simp [hs, h]) (hb s h)
    · exact ⟨outcome, now, user, rfl, rfl, rfl, rfl, ho⟩
  · obtain ⟨first, rest, hfirst, ho, hc⟩ := hr.begun
    rw [hs] at hfirst
    cases before with
    | nil =>
      obtain ⟨rfl, -⟩ := List.cons.inj hfirst
      exact ⟨_, [], rfl, ho, hc⟩
    | cons a before =>
      obtain ⟨rfl, -⟩ := List.cons.inj hfirst
      exact ⟨_, _, rfl, ho, hc⟩
  · rw [hs, List.isChain_append] at hl
    rw [List.isChain_append]
    refine ⟨hl.1, .singleton _, ?_⟩
    intro x hx y hy
    obtain rfl : last.close outcome context user now = y := by simpa using hy
    exact hl.2.2 x hx last (by simp)

/-- A decision closes the last step of a request and goes on from there. -/
lemma decide_eq_ok (hr : r.Lifecycle) {actor : Actor} {d : Decision} {now : Instant} {x : Decided}
    (h : r.decide actor d now = .ok x) :
    ∃ before record step overridden outcome rule,
      r.steps = before ++ [record] ∧ record.isPending = true ∧ (∀ s ∈ before, s.isPending = false) ∧
        r.Grounds actor d record step overridden outcome rule ∧
        r.Advances (before ++ [record.close outcome d.context actor.userId now]) now rule.resolution
          x.request x.event ∧
        x.note = r.decisionNote x.request actor d step overridden outcome rule now := by
  obtain ⟨record, step, overridden, outcome, rule, grounds, advanced, -, note⟩ := decide_eq_ok_iff.mp h
  obtain ⟨before, hs, hp, hb⟩ := hr.steps_eq grounds.isOpen grounds.pending
  rw [closedSteps_eq_of_steps hs hp] at advanced
  exact ⟨before, record, step, overridden, outcome, rule, hs, hp, hb, grounds, advanced, note⟩

/-- A decision keeps the properties of a request. -/
lemma decide (hr : r.Lifecycle) {actor : Actor} {d : Decision} {now : Instant} {x : Decided}
    (h : r.decide actor d now = .ok x) : x.request.Lifecycle := by
  obtain ⟨before, record, step, overridden, outcome, rule, hs, hp, hb, grounds, advanced, -⟩ :=
    hr.decide_eq_ok h
  obtain ⟨finished, follows, settled, begun, linked⟩ :=
    hr.closed hs hb (ne_reserved_of_outcomeOf grounds.named) d.context actor.userId now
  generalize hc : before ++ [record.close outcome d.context actor.userId now] = closed at *
  rcases advanced.next_eq with ⟨order, target, deadline, -, found, due, next⟩ | ⟨status, way, next⟩
  · rw [next]
    refine
      { notCreated := by simp [onward]
        waiting := fun _ => ⟨closed, _, rfl, rfl, finished⟩
        finished := fun h => Bool.noConfusion h
        completed := ?_
        begun := ?_
        follows := ?_
        settled := ?_
        linked := ?_ }
    · exact hr.completed.trans grounds.isOpen
    · obtain ⟨first, rest, rfl, hfirst⟩ := begun
      exact ⟨first, _, rfl, hfirst⟩
    · simp only [onward, List.mem_append, List.mem_singleton]
      rintro s (hm | rfl)
      · exact follows s hm
      · exact Step.follows_waiting found due
    · simp only [onward, List.mem_append, List.mem_singleton]
      rintro s (hm | rfl) hp
      · exact settled s hm
      · exact Bool.noConfusion hp
    · apply List.isChain_append.mpr
      refine ⟨linked, .singleton _, ?_⟩
      intro s hlast t ht
      obtain rfl : target.waiting now deadline = t := by simpa using ht
      obtain rfl : record.close outcome d.context actor.userId now = s := by simpa [← hc] using hlast
      rfl
  · have terminal : status.isTerminal = true := Rule.isTerminal_of_resolution way
    rw [next]
    refine
      { notCreated := ?_
        waiting := ?_
        finished := fun _ => finished
        completed := terminal.symm
        begun := begun
        follows := follows
        settled := fun s hm _ => settled s hm
        linked := linked }
    · rintro ⟨⟩
      exact Bool.noConfusion terminal
    · intro h
      simp [isOpen, ended, terminal] at h

/-- A request that is marked as escalated stays as it was otherwise. -/
lemma escalated (hr : r.Lifecycle) {escalate : Bool} {now : Instant} {marked : Request}
    (h : Sweep.escalated escalate now r = some marked) : marked.Lifecycle := by
  simp only [Sweep.escalated, Option.ite_none_right_eq_some, Option.some.injEq] at h
  obtain ⟨⟨-, hs⟩, rfl⟩ := h
  have isOpen : r.isOpen = true := by rw [isOpen, hs]; rfl
  exact
    { notCreated := by simp
      waiting := fun _ => hr.waiting isOpen
      finished := fun h => Bool.noConfusion h
      completed := by rw [hr.completed, hs]; rfl
      begun := hr.begun
      follows := hr.follows
      settled := hr.settled
      linked := hr.linked }

/-- The status of a record in the life of a request is told by its label. -/
lemma ofLabel_status (hr : r.Lifecycle) {s : StepRecord} (hs : s ∈ r.steps) :
    StepStatus.ofLabel s.status.label = s.status := by
  cases hp : s.isPending with
  | true => exact StepRecord.ofLabel_status_of_isPending hp
  | false => exact (hr.settled s hs hp).ofLabel_status

/-- The status of a record in the life of a request is read as it was stored. -/
lemma status_asRead (hr : r.Lifecycle) {s : StepRecord} (hs : s ∈ r.steps) :
    s.asRead.status = s.status :=
  StepRecord.asRead_status (hr.ofLabel_status hs)

/-- A step is read as waiting if it waits. -/
lemma isPending_asRead (hr : r.Lifecycle) {s : StepRecord} (hs : s ∈ r.steps) :
    s.asRead.isPending = s.isPending := by
  rw [StepRecord.isPending, hr.status_asRead hs, StepRecord.isPending]

/-- What is read of a stored request has the properties that the row has. -/
lemma readBack {row : Request} (hr : row.Lifecycle) (h : row.readBack? = some r) : r.Lifecycle := by
  have steps := steps_of_readBack? h
  have status := status_of_readBack? h
  have pending (s : StepRecord) (hs : s ∈ row.steps) := hr.isPending_asRead hs
  refine
    { notCreated := by rw [status]; exact hr.notCreated
      waiting := ?_
      finished := ?_
      completed := by rw [completedAt_of_readBack? h, status]; exact hr.completed
      begun := ?_
      follows := ?_
      settled := ?_
      linked := ?_ }
  · intro hopen
    rw [isOpen, status] at hopen
    obtain ⟨before, last, hs, hp, hb⟩ := hr.waiting hopen
    refine ⟨before.map StepRecord.asRead, last.asRead, by simp [steps, hs], ?_, ?_⟩
    · rwa [pending last (by simp [hs])]
    · intro s hm
      obtain ⟨t, ht, rfl⟩ := List.mem_map.mp hm
      rw [pending t (by simp [hs, ht])]
      exact hb t ht
  · intro isFinished s hm
    rw [isOpen, status] at isFinished
    rw [steps] at hm
    obtain ⟨t, ht, rfl⟩ := List.mem_map.mp hm
    rw [pending t ht]
    exact hr.finished isFinished t ht
  · obtain ⟨first, rest, hs, ho, hc⟩ := hr.begun
    exact ⟨first.asRead, rest.map StepRecord.asRead, by simp [steps, hs], by simpa using ho,
      by rw [createdAt_of_readBack? h]; simpa using hc⟩
  · intro s hm
    rw [steps] at hm
    obtain ⟨t, ht, rfl⟩ := List.mem_map.mp hm
    exact (hr.follows t ht).asRead.of_steps_eq (plan_of_readBack? h)
  · intro s hm hp
    rw [steps] at hm
    obtain ⟨t, ht, rfl⟩ := List.mem_map.mp hm
    rw [pending t ht] at hp
    exact (hr.settled t ht hp).asRead
  · rw [steps, List.isChain_map]
    simpa using hr.linked

/-- The row of a request after a change has the properties that the changed request has. -/
lemma updateRow {row : Request} (hr : r.Lifecycle) (hp : row.plan.steps = r.plan.steps)
    (hc : row.createdAt = r.createdAt) : (Store.updateRow row r).Lifecycle where
  notCreated := hr.notCreated
  waiting := hr.waiting
  finished := hr.finished
  completed := hr.completed
  begun := hc ▸ hr.begun
  follows := fun s hs => (hr.follows s hs).of_steps_eq hp
  settled := hr.settled
  linked := hr.linked

end Lifecycle

end Request

end Approval
