import Approval.Proofs.Request.Lifecycle
import Approval.Service.Requests

/-!
# The history of a request

The audit entries about a request tell its life: that it was started, how each step was closed and what
came next, and which steps were late. The lemmas say how the history of a request goes on with what is
done to it.
-/

namespace Approval

/-! ### What entries tell -/

namespace AuditNote

/-- A detail of a note. -/
def detail? (n : AuditNote) (name : String) : Option Json := n.details.bind (Json.member? name)

/-- The note tells who started a request and when. -/
structure TellsStart (n : AuditNote) (r : Request) : Prop where
  action : n.action = .requestStarted
  actor : n.actor = some r.requester
  time : n.createdAt = r.createdAt

/-- What follows a step: the order of the next one. -/
def nextOrder : Option StepRecord → Json
  | some next => Json.ofNat next.order
  | none => .null

/-- What a step made of a request: nothing final if a next step follows, else the status it ended with. -/
def finalStatus (r : Request) (next : Option StepRecord) : Json :=
  if next.isSome ∨ r.isOpen = true then .null else r.status.json

/-- The note tells how the step of a request at position `i` was closed, by whom and when, and what
followed. -/
structure TellsDecision (n : AuditNote) (r : Request) (i : Nat) (step : StepRecord) : Prop where
  action : n.action = .stepDecided
  actor : n.actor = step.actedBy
  time : some n.createdAt = step.completedAt
  order : n.detail? "step_order" = some (Json.ofNat step.order)
  name : n.detail? "step_name" = some (.text step.name)
  outcome : n.detail? "outcome" = some (Json.ofOption .text step.outcome)
  next : n.detail? "next_step_order" = some (nextOrder r.steps[i + 1]?)
  final : n.detail? "final_status" = some (finalStatus r r.steps[i + 1]?)

/-- The note tells of a breach; nobody did it. -/
structure TellsBreach (n : AuditNote) (b : Breach) : Prop where
  action : n.action = .breachDetected
  actor : n.actor = none
  time : n.createdAt = b.detectedAt
  position : n.detail? "step_index" = some (Json.ofNat b.position)
  order : n.detail? "step_order" = some (Json.ofNat b.order)
  deadline : n.detail? "deadline" = some b.deadline.json

end AuditNote

namespace AuditEntry

/-- The entry is about a decision. -/
def isDecision (e : AuditEntry) : Bool := e.action = .stepDecided

/-- The entry is about a late step. -/
def isBreach (e : AuditEntry) : Bool := e.action = .breachDetected

/-- Entries, each with the number of decisions before it, of which there were `n` at first. -/
def afterDecisions (n : Nat) : List AuditEntry → List (AuditEntry × Nat)
  | [] => []
  | e :: rest => (e, n) :: afterDecisions (if e.isDecision then n + 1 else n) rest

@[simp] lemma afterDecisions_append_singleton (n : Nat) (es : List AuditEntry) (e : AuditEntry) :
    afterDecisions n (es ++ [e]) = afterDecisions n es ++ [(e, n + es.countP isDecision)] := by
  induction es generalizing n with
  | nil => rfl
  | cons a es ih =>
    rw [List.cons_append, afterDecisions, afterDecisions, ih, List.countP_cons, List.cons_append]
    split_ifs with h
    · congr 4
      omega
    · rfl

end AuditEntry

/-! ### Histories -/

namespace Request

open AuditEntry

/-- How many steps of a request are closed. -/
def closedCount (r : Request) : Nat := r.steps.countP fun s => !s.isPending

/-- Audit entries and recorded breaches are the history of a request. -/
structure History (r : Request) (entries : List AuditEntry) (breaches : List Breach) : Prop where
  /-- The first entry is about the start, and no other one is. -/
  opened : ∃ first rest, entries = first :: rest ∧ first.TellsStart r ∧
    ∀ e ∈ rest, e.action = .stepDecided ∨ e.action = .breachDetected
  /-- There are as many entries about decisions as closed steps. -/
  counted : entries.countP isDecision = r.closedCount
  /-- Each of them is about the closed step at its position. -/
  decided : ∀ (i : Nat) (e : AuditEntry), (entries.filter isDecision)[i]? = some e →
    ∃ step : StepRecord, r.steps[i]? = some step ∧ step.isPending = false ∧ e.TellsDecision r i step
  /-- Each breach has one entry, written when as many decisions were made as led to the late step. -/
  late : List.Forall₂ (fun e b => e.1.TellsBreach b ∧ e.2 = b.position)
    ((afterDecisions 0 entries).filter (·.1.isBreach)) breaches
  /-- Each breach is of a step of the request that had the deadline. -/
  known : ∀ b ∈ breaches, ∃ step : StepRecord, r.steps[b.position]? = some step ∧ step.order = b.order ∧
    step.deadline = some b.deadline
  /-- No step is late twice. -/
  once : (breaches.map (·.position)).Nodup

/-- One request is the other one later on: it went through the same steps, of which the closed ones did
not change. -/
structure Continues (r r' : Request) : Prop where
  requester : r'.requester = r.requester
  createdAt : r'.createdAt = r.createdAt
  steps : ∀ (i : Nat) (s : StepRecord), r.steps[i]? = some s → ∃ t : StepRecord, r'.steps[i]? = some t ∧
    t.order = s.order ∧ t.deadline = s.deadline ∧ (s.isPending = false → t.isPending = false ∧
      t.name = s.name ∧ t.outcome = s.outcome ∧ t.actedBy = s.actedBy ∧ t.completedAt = s.completedAt)
  finished : r.isOpen = false → r'.status = r.status ∧ r'.steps.length = r.steps.length

section Continues

variable {r r' : Request}

/-- A request that reads back is the stored one. -/
lemma Continues.of_readBack {row : Request} (hr : row.Lifecycle) (reads : row.readBack? = some r) :
    row.Continues r where
  requester := by rw [eq_of_readBack? reads]
  createdAt := createdAt_of_readBack? reads
  steps := by
    intro i s found
    refine ⟨s.asRead, by simp [steps_of_readBack? reads, found], by simp, by simp, fun closed => ?_⟩
    refine ⟨?_, by simp, by simp, by simp, by simp⟩
    rwa [hr.isPending_asRead (List.mem_of_getElem? found)]
  finished := fun _ => ⟨status_of_readBack? reads, by simp [steps_of_readBack? reads]⟩

/-- The stored request is the one that reads back. -/
lemma Continues.of_stored {row : Request} (hr : row.Lifecycle) (reads : row.readBack? = some r) :
    r.Continues row where
  requester := by rw [eq_of_readBack? reads]
  createdAt := (createdAt_of_readBack? reads).symm
  steps := by
    intro i s found
    obtain ⟨s, stored, rfl⟩ := (getElem?_steps_of_readBack? reads).mp found
    refine ⟨s, stored, by simp, by simp, fun closed => ⟨?_, by simp, by simp, by simp, by simp⟩⟩
    rwa [hr.isPending_asRead (List.mem_of_getElem? stored)] at closed
  finished := fun _ => ⟨(status_of_readBack? reads).symm, by simp [steps_of_readBack? reads]⟩

lemma closedCount_of_readBack? {row : Request} (hr : row.Lifecycle) (reads : row.readBack? = some r) :
    r.closedCount = row.closedCount := by
  rw [closedCount, closedCount, steps_of_readBack? reads, List.countP_map]
  apply List.countP_congr
  intro s hs
  simp [hr.isPending_asRead hs]

/-- A request with the same steps is the same request if that is open or has the same status. -/
lemma Continues.of_steps_eq (requester : r'.requester = r.requester)
    (createdAt : r'.createdAt = r.createdAt) (steps : r'.steps = r.steps)
    (status : r.isOpen = false → r'.status = r.status) : r.Continues r' where
  requester := requester
  createdAt := createdAt
  steps := fun i s found => ⟨s, by rwa [steps], rfl, rfl, fun closed => ⟨closed, rfl, rfl, rfl, rfl⟩⟩
  finished := fun h => ⟨status h, by rw [steps]⟩

lemma Continues.refl (r : Request) : r.Continues r := .of_steps_eq rfl rfl rfl fun _ => rfl

lemma Continues.trans {r'' : Request} (h : r.Continues r') (h' : r'.Continues r'') : r.Continues r'' where
  requester := h'.requester.trans h.requester
  createdAt := h'.createdAt.trans h.createdAt
  steps := by
    intro i s found
    obtain ⟨t, found', order, deadline, same⟩ := h.steps i s found
    obtain ⟨u, found'', order', deadline', same'⟩ := h'.steps i t found'
    refine ⟨u, found'', order'.trans order, deadline'.trans deadline, fun closed => ?_⟩
    obtain ⟨closed', name, outcome, actedBy, completedAt⟩ := same closed
    obtain ⟨closed'', name', outcome', actedBy', completedAt'⟩ := same' closed'
    exact ⟨closed'', name'.trans name, outcome'.trans outcome, actedBy'.trans actedBy,
      completedAt'.trans completedAt⟩
  finished := by
    intro closed
    obtain ⟨status, length⟩ := h.finished closed
    have closed' : r'.isOpen = false := by
      rw [isOpen, status]
      exact closed
    obtain ⟨status', length'⟩ := h'.finished closed'
    exact ⟨status'.trans status, length'.trans length⟩

/-- The closed steps of an open request stand before its last one. -/
lemma Lifecycle.next_of_closed (hr : r.Lifecycle) (isOpen : r.isOpen = true) {i : Nat} {s : StepRecord}
    (found : r.steps[i]? = some s) (closed : s.isPending = false) : ∃ t, r.steps[i + 1]? = some t := by
  obtain ⟨before, last, hs, pending, -⟩ := hr.waiting isOpen
  rw [hs, List.getElem?_append] at found
  split_ifs at found with below
  · rw [hs]
    exact ⟨_, List.getElem?_eq_getElem (by simpa using below)⟩
  · obtain rfl := List.mem_singleton.mp (List.mem_of_getElem? found)
    rw [pending] at closed
    exact Bool.noConfusion closed

/-- What an entry tells about a closed step stays true. -/
lemma Continues.tellsDecision (hr : r.Lifecycle) (h : r.Continues r') {n : AuditNote} {i : Nat}
    {s : StepRecord} (found : r.steps[i]? = some s) (closed : s.isPending = false)
    (tells : n.TellsDecision r i s) :
    ∃ t : StepRecord, r'.steps[i]? = some t ∧ t.isPending = false ∧ n.TellsDecision r' i t := by
  obtain ⟨t, found', order, -, same⟩ := h.steps i s found
  obtain ⟨closed', name, outcome, actedBy, completedAt⟩ := same closed
  have next : AuditNote.nextOrder r'.steps[i + 1]? = AuditNote.nextOrder r.steps[i + 1]? ∧
      AuditNote.finalStatus r' r'.steps[i + 1]? = AuditNote.finalStatus r r.steps[i + 1]? := by
    cases next : r.steps[i + 1]? with
    | some u =>
      obtain ⟨u', next', order', -⟩ := h.steps _ u next
      simp [next', AuditNote.nextOrder, AuditNote.finalStatus, order']
    | none =>
      have finished : r.isOpen = false := by
        cases isOpen : r.isOpen with
        | false => rfl
        | true =>
          obtain ⟨u, next'⟩ := hr.next_of_closed isOpen found closed
          exact absurd (next.symm.trans next') (by simp)
      obtain ⟨status, length⟩ := h.finished finished
      have next' : r'.steps[i + 1]? = none := by
        rw [List.getElem?_eq_none_iff] at next ⊢
        omega
      simp [next', AuditNote.nextOrder, AuditNote.finalStatus, Request.isOpen, status]
  exact ⟨t, found', closed',
    { action := tells.action
      actor := by rw [tells.actor, actedBy]
      time := by rw [tells.time, completedAt]
      order := by rw [tells.order, order]
      name := by rw [tells.name, name]
      outcome := by rw [tells.outcome, outcome]
      next := by rw [tells.next, next.1]
      final := by rw [tells.final, next.2] }⟩

/-- A request that is decided goes on. -/
lemma Continues.of_decide (hr : r.Lifecycle) {actor : Actor} {d : Decision} {now : Instant}
    {x : Decided} (decides : r.decide actor d now = .ok x) : r.Continues x.request := by
  obtain ⟨before, record, step, overridden, outcome, rule, hs, pending, -, grounds, advanced, -⟩ :=
    hr.decide_eq_ok decides
  obtain ⟨rest, steps⟩ := advanced.exists_steps
  rw [List.append_assoc, List.singleton_append] at steps
  refine
    { requester := by rw [eq_of_decide decides]
      createdAt := createdAt_of_decide decides
      steps := ?_
      finished := ?_ }
  · intro i s found
    rw [hs, List.getElem?_append] at found
    rw [steps, List.getElem?_append]
    split_ifs at found ⊢ with below
    · exact ⟨s, found, rfl, rfl, fun closed => ⟨closed, rfl, rfl, rfl, rfl⟩⟩
    · obtain rfl := List.mem_singleton.mp (List.mem_of_getElem? found)
      have last : i - before.length = 0 := by
        have := (List.getElem?_eq_some_iff.mp found).1
        rw [List.length_singleton] at this
        omega
      rw [last]
      refine ⟨_, rfl, rfl, rfl, fun closed => ?_⟩
      rw [pending] at closed
      exact Bool.noConfusion closed
  · intro finished
    rw [isOpen_of_not_isTerminal grounds.isOpen] at finished
    exact Bool.noConfusion finished

end Continues

/-! ### What a decision tells -/

section Decision

variable {r : Request} {actor : Actor} {d : Decision} {now : Instant} {x : Decided}

lemma closedCount_of_steps {before : List StepRecord} {last : StepRecord}
    (hs : r.steps = before ++ [last]) (pending : last.isPending = true)
    (closed : ∀ s ∈ before, s.isPending = false) : r.closedCount = before.length := by
  rw [closedCount, hs, List.countP_append, List.countP_singleton, pending]
  simpa using closed

lemma closedCount_of_decide (hr : r.Lifecycle) (decides : r.decide actor d now = .ok x) :
    x.request.closedCount = r.closedCount + 1 := by
  obtain ⟨before, record, step, overridden, outcome, rule, hs, pending, closed, -, advanced, -⟩ :=
    hr.decide_eq_ok decides
  have count : before.countP (fun s => !s.isPending) = before.length := by simpa using closed
  rw [closedCount_of_steps hs pending closed]
  rcases advanced.next_eq with ⟨order, target, deadline, -, -, -, next⟩ | ⟨status, -, next⟩
  · simp [next, closedCount, onward, count]
  · simp [next, closedCount, ended, count]

/-- What follows the step that a decision closes is what its rule says. -/
lemma Advances.next {before : List StepRecord} {last : StepRecord} {way : Resolution} {next : Request}
    {event : Event} (h : r.Advances (before ++ [last]) now way next event)
    (ending : ∀ s, way = .finish s → s.isTerminal = true) (step : Step) (order : Nat) (name : String)
    (context : Option Json) (overridden : Bool) (status : Status) :
    let details := decisionDetails step order name context overridden status next.status way
    next.steps[before.length]? = some last ∧
      details.member? "next_step_order" = some (AuditNote.nextOrder next.steps[before.length + 1]?) ∧
      details.member? "final_status" =
        some (AuditNote.finalStatus next next.steps[before.length + 1]?) := by
  cases h with
  | @proceed order target deadline found due =>
    have steps : (r.onward (before ++ [last]) (target.waiting now deadline) now).steps[before.length + 1]? =
        some (target.waiting now deadline) := by
      simp [onward]
    refine ⟨by simp [onward], ?_, ?_⟩
    · rw [steps, ← (Plan.mem_of_step? found).2]
      rfl
    · rw [steps]
      rfl
  | finish status =>
    have steps : (r.ended (before ++ [last]) status now).steps[before.length + 1]? = none := by
      simp [ended]
    refine ⟨by simp [ended], ?_, ?_⟩
    · rw [steps]
      rfl
    · rw [steps]
      have finished : (r.ended (before ++ [last]) status now).isOpen = false := by
        simp [isOpen, ended, ending status rfl]
      simp only [AuditNote.finalStatus, finished]
      rfl

/-- The note about a decision tells of the step that was the pending one. -/
lemma tellsDecision_of_decide (hr : r.Lifecycle) (decides : r.decide actor d now = .ok x) :
    ∃ t : StepRecord, x.request.steps[r.closedCount]? = some t ∧ t.isPending = false ∧
      x.note.TellsDecision x.request r.closedCount t := by
  obtain ⟨before, record, step, overridden, outcome, rule, hs, pending, closed, grounds, advanced, note⟩ :=
    hr.decide_eq_ok decides
  obtain ⟨planned, -, order, name, -, found⟩ := hr.follows record (by simp [hs])
  obtain rfl : planned = step := Option.some.inj (found.symm.trans grounds.planned)
  obtain ⟨last, next, final⟩ := advanced.next (fun _ => Rule.isTerminal_of_resolution) planned
    planned.order outcome d.context overridden r.status
  rw [note, closedCount_of_steps hs pending closed]
  exact ⟨_, last, StepRecord.isPending_close _ _ _ _ _,
    { action := rfl
      actor := rfl
      time := rfl
      order := by
        change some (Json.ofNat planned.order) = some (Json.ofNat record.order)
        rw [order]
      name := by
        change some (Json.text planned.name) = some (Json.text record.name)
        rw [name]
      outcome := rfl
      next := next
      final := final }⟩

end Decision

namespace History

variable {r r' : Request} {entries : List AuditEntry} {breaches : List Breach}

/-- A history that starts with the start of a request does so after further entries. -/
lemma opened_append (h : r.History entries breaches) (hc : r.Continues r') {later : List AuditEntry}
    (hl : ∀ e ∈ later, e.action = .stepDecided ∨ e.action = .breachDetected) :
    ∃ first rest, entries ++ later = first :: rest ∧ first.TellsStart r' ∧
      ∀ e ∈ rest, e.action = .stepDecided ∨ e.action = .breachDetected := by
  obtain ⟨first, rest, rfl, start, hr⟩ := h.opened
  refine ⟨first, rest ++ later, rfl, ?_, ?_⟩
  · exact
      { action := start.action
        actor := by rw [start.actor, hc.requester]
        time := by rw [start.time, hc.createdAt] }
  · intro e he
    rcases List.mem_append.mp he with old | new
    · exact hr e old
    · exact hl e new

/-- The steps that were late stay those of the request. -/
lemma known_of_continues (h : r.History entries breaches) (hc : r.Continues r') :
    ∀ b ∈ breaches, ∃ step : StepRecord, r'.steps[b.position]? = some step ∧ step.order = b.order ∧
      step.deadline = some b.deadline := by
  intro b hb
  obtain ⟨s, found, order, deadline⟩ := h.known b hb
  obtain ⟨t, found', order', deadline', -⟩ := hc.steps _ _ found
  exact ⟨t, found', order'.trans order, deadline'.trans deadline⟩

/-- The history of a request that goes on without a step being closed. -/
lemma of_continues (h : r.History entries breaches) (hr : r.Lifecycle) (hc : r.Continues r')
    (count : r'.closedCount = r.closedCount) : r'.History entries breaches where
  opened := by simpa using h.opened_append hc (List.forall_mem_nil _)
  counted := by rw [h.counted, count]
  decided := by
    intro i e he
    obtain ⟨s, found, closed, tells⟩ := h.decided i e he
    exact hc.tellsDecision hr found closed tells
  late := h.late
  known := h.known_of_continues hc
  once := h.once

/-- The history of a request starts with one entry. -/
lemma of_request {wf : Workflow} {id : RequestId} {requester : UserId} {payload : Json} {now : Instant}
    (made : wf.request id requester payload now = .ok r) {e : AuditEntry}
    (note : e.toAuditNote = Requests.startNote wf r) : r.History [e] [] := by
  obtain ⟨first, deadline, -, -, rfl⟩ := Workflow.request_eq_ok_iff.mp made
  have action : e.action = .requestStarted := by rw [note]; rfl
  have not_decision : e.isDecision = false := by simp [isDecision, action]
  have not_breach : e.isBreach = false := by simp [isBreach, action]
  exact
    { opened := ⟨e, [], rfl, ⟨action, by rw [note]; rfl, by rw [note]; rfl⟩, by simp⟩
      counted := by simp [not_decision, closedCount]
      decided := by simp [not_decision]
      late := by simp [afterDecisions, not_breach]
      known := by simp
      once := List.nodup_nil }

/-- A decision adds an entry about the step that it closes. -/
lemma decide (h : r.History entries breaches) (hr : r.Lifecycle) {actor : Actor} {d : Decision}
    {now : Instant} {x : Decided} (decides : r.decide actor d now = .ok x) {e : AuditEntry}
    (note : e.toAuditNote = x.note) : x.request.History (entries ++ [e]) breaches := by
  obtain ⟨step, found, closed, tells⟩ := tellsDecision_of_decide hr decides
  rw [← note] at tells
  have is_decision : e.isDecision = true := by simp [isDecision, tells.action]
  have not_breach : e.isBreach = false := by simp [isBreach, tells.action]
  have continues := Continues.of_decide hr decides
  refine
    { opened := ?_
      counted := ?_
      decided := ?_
      late := ?_
      known := h.known_of_continues continues
      once := h.once }
  · apply h.opened_append continues
    intro y hy
    obtain rfl := List.mem_singleton.mp hy
    exact .inl tells.action
  · rw [List.countP_append, h.counted, closedCount_of_decide hr decides]
    simp [is_decision]
  · -- The entries before tell of the steps before, the new one of the step that was closed.
    intro i y hy
    rw [List.filter_append, List.filter_singleton, is_decision, cond_true, List.getElem?_append] at hy
    split_ifs at hy with below
    · obtain ⟨s, found, closed, tells⟩ := h.decided i y hy
      exact continues.tellsDecision hr found closed tells
    · obtain rfl := List.mem_singleton.mp (List.mem_of_getElem? hy)
      have last : i = r.closedCount := by
        have := (List.getElem?_eq_some_iff.mp hy).1
        rw [← List.countP_eq_length_filter, h.counted] at this below
        rw [List.length_singleton] at this
        omega
      subst last
      exact ⟨step, found, closed, tells⟩
  · rw [afterDecisions_append_singleton, List.filter_append]
    simpa [not_breach] using h.late

/-- A breach that is recorded in time adds an entry about it. -/
lemma late_step (h : r.History entries breaches) {e : AuditEntry} {b : Breach} {step : StepRecord}
    (tells : e.TellsBreach b) (found : r.steps[b.position]? = some step) (order : step.order = b.order)
    (deadline : step.deadline = some b.deadline) (inTime : b.position = r.closedCount)
    (new : ∀ x ∈ breaches, x.position ≠ b.position) :
    r.History (entries ++ [e]) (breaches ++ [b]) := by
  have not_decision : e.isDecision = false := by simp [isDecision, tells.action]
  have is_breach : e.isBreach = true := by simp [isBreach, tells.action]
  refine
    { opened := ?_
      counted := ?_
      decided := ?_
      late := ?_
      known := ?_
      once := ?_ }
  · apply h.opened_append (.refl r)
    intro x hx
    obtain rfl := List.mem_singleton.mp hx
    exact .inr tells.action
  · rw [List.countP_append, h.counted]
    simp [not_decision]
  · rw [List.filter_append, List.filter_singleton, not_decision]
    simpa using h.decided
  · rw [afterDecisions_append_singleton, List.filter_append]
    refine List.rel_append h.late ?_
    simp [is_breach, tells, inTime, h.counted]
  · intro x hx
    rcases List.mem_append.mp hx with old | last
    · exact h.known x old
    · obtain rfl := List.mem_singleton.mp last
      exact ⟨step, found, order, deadline⟩
  · rw [List.map_append, List.nodup_append]
    exact ⟨h.once, List.nodup_singleton _, by simpa using new⟩

end History

end Request

end Approval
