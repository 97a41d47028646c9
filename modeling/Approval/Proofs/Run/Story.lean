import Approval.Proofs.Request.Story
import Approval.Proofs.Run.History

/-!
# The events as stories

Whatever is asked of the service and in which order, the events about a request, in the order of their
publishing, are its story: what was announced is what is stored, and it was announced in the order in which
it came about.
-/

namespace Approval

/-- The events about a request, in the order of publishing. -/
def World.eventsOf (w : World) (id : RequestId) : List Event := w.events.filter (·.requestId = id)

/-- The events are the stories of the stored requests, and about no other ones. -/
structure World.Narrates (w : World) : Prop where
  told : w.store.Told
  story : ∀ r ∈ w.store.requests, w.eventsOf r.id = r.story (w.store.breachesOf r.id)
  about : ∀ e ∈ w.events, ∃ r ∈ w.store.requests, r.id = e.requestId

namespace World

variable {w w' : World} {id : RequestId} {e : Event}

lemma eventsOf_append (h : w'.events = w.events ++ [e]) (about : e.requestId = id) :
    w'.eventsOf id = w.eventsOf id ++ [e] := by
  simp [eventsOf, h, about]

lemma eventsOf_append_of_ne (h : w'.events = w.events ++ [e]) (other : e.requestId ≠ id) :
    w'.eventsOf id = w.eventsOf id := by
  simp [eventsOf, h, other]

namespace Narrates

lemma eventsOf_eq_nil (h : w.Narrates) (new : ∀ r ∈ w.store.requests, r.id ≠ id) : w.eventsOf id = [] := by
  apply List.filter_eq_nil_iff.mpr
  intro e he same
  obtain ⟨r, hr, hid⟩ := h.about e he
  exact new r hr (hid.trans (by simpa using same))

/-- Without events, and with the same requests and breaches, the stories stay as they were. -/
lemma of_same (h : w.Narrates) (told : w'.store.Told) (requests : w'.store.requests = w.store.requests)
    (breaches : w'.store.breaches = w.store.breaches) (events : w'.events = w.events) : w'.Narrates where
  told := told
  story := by
    rw [requests]
    intro r hr
    rw [eventsOf, events, Store.breachesOf, breaches]
    exact h.story r hr
  about := by
    rw [events, requests]
    exact h.about

/-- An event about one request, perhaps with a breach of it, leaves the stories of the other ones as they
were. -/
lemma of_event_about (h : w.Narrates) (told : w'.store.Told) (id : RequestId)
    (events : w'.events = w.events ++ [e]) (about : e.requestId = id) {bs : List Breach}
    (breaches : w'.store.breaches = w.store.breaches ++ bs) (breaches_about : ∀ b ∈ bs, b.requestId = id)
    (kept : ∀ x ∈ w.store.requests, ∃ y ∈ w'.store.requests, y.id = x.id)
    (present : ∃ y ∈ w'.store.requests, y.id = id)
    (story : ∀ x ∈ w'.store.requests, (x ∈ w.store.requests ∧ x.id ≠ id) ∨
      (x.id = id ∧ x.story (w.store.breachesOf id ++ bs) = w.eventsOf id ++ [e])) : w'.Narrates where
  told := told
  story := by
    intro x hx
    rcases story x hx with ⟨old, other⟩ | ⟨rfl, new⟩
    · rw [eventsOf_append_of_ne events (by simpa [about] using Ne.symm other),
        Store.breachesOf_append_of_ne breaches fun b hb same => other (same.symm.trans (breaches_about b hb))]
      exact h.story x old
    · rw [eventsOf_append events about, Store.breachesOf_append breaches breaches_about, new]
  about := by
    rw [events]
    intro x hx
    rcases List.mem_append.mp hx with old | last
    · obtain ⟨row, hrow, same⟩ := h.about x old
      rw [← same]
      exact kept row hrow
    · rw [List.mem_singleton.mp last, about]
      exact present

end Narrates

end World

/-! ### Changes -/

/-- The row that takes over a decision has the story that goes on with what the decision announces. -/
lemma Request.story_updateRow_decide {row r : Request} (hr : row.Lifecycle) (reads : row.readBack? = some r)
    {breaches : List Breach} (known : ∀ b ∈ breaches, b.position < row.steps.length) {actor : Actor}
    {d : Decision} {now : Instant} {x : Decided} (decides : r.decide actor d now = .ok x) :
    (Store.updateRow row x.request).story breaches = row.story breaches ++ [x.event] := by
  rw [← story_of_readBack? reads, ← story_of_decide (hr.readBack reads) (by simpa [steps_of_readBack? reads]) decides]
  refine story_updateRow ?_ ?_ ?_
  · rw [id_of_decide decides, id_of_readBack? reads]
  · rw [eq_of_decide decides, workflowName_of_readBack? reads]
  · rw [plan_of_decide decides, plan_of_readBack? reads]

/-- The row that is marked as escalated has the story that it had before. -/
lemma Request.story_updateRow_escalated {row r marked : Request} (reads : row.readBack? = some r)
    {breaches : List Breach} {escalate : Bool} {now : Instant}
    (marks : Sweep.escalated escalate now r = some marked) :
    (Store.updateRow row marked).story breaches = row.story breaches := by
  obtain ⟨-, inProgress, same⟩ := Sweep.escalated_eq_some.mp marks
  calc (Store.updateRow row marked).story breaches
    _ = marked.story breaches := by
      refine story_updateRow ?_ ?_ ?_
      all_goals grind
    _ = r.story breaches := by
      rw [same]
      refine story_eq_of_steps (f := fun s => s) rfl rfl rfl (List.map_id' _).symm (fun _ _ => ⟨rfl, rfl, rfl⟩) ?_ ?_
      all_goals simp [isOpen, inProgress, Status.isTerminal]
    _ = row.story breaches := story_of_readBack? reads

/-- A finding is about the last step of an open request. -/
lemma Sweep.exists_last_of_mem_findingsOf {row : Request} (hr : row.Lifecycle) {f : Finding}
    (reads : row.readBack? = some f.request) {now : Instant} (found : f ∈ findingsOf now f.request) :
    ∃ before last, row.steps = before ++ [last] ∧ f.position = before.length ∧ f.step = last.asRead := by
  obtain ⟨-, at_position, -, late⟩ := mem_findingsOf.mp found
  have at_end := (hr.readBack reads).succ_eq_length at_position (isPending_of_isLate late)
  rw [Request.steps_of_readBack? reads, List.length_map] at at_end
  obtain ⟨last, at_row, read⟩ := (Request.getElem?_steps_of_readBack? reads).mp at_position
  rcases List.eq_nil_or_concat row.steps with none | ⟨before, final, steps⟩
  · simp [none] at at_end
  · rw [List.concat_eq_append] at steps
    have position : f.position = before.length := by simpa [steps] using at_end
    have same : final = last := by simpa [steps, position] using at_row
    exact ⟨before, final, steps, position, by rw [same, read]⟩

section Supplied

variable [Supply]

namespace World.Narrates

variable {c : Context} {w w' : World}

lemma started (h : w.Narrates) {wf : Workflow} {requester : UserId} {payload : Json} {r : Request} {first : Step}
    (made : wf.request w.store.nextRequestId requester payload c.now = .ok r)
    (new : ∀ row ∈ w.store.requests, row.id ≠ r.id) (begins : r.plan.step? 1 = some first)
    (told : (Requests.started wf r first w).store.Told) : (Requests.started wf r first w).Narrates := by
  refine h.of_event_about told r.id rfl rfl (List.append_nil _).symm (by simp) ?_ ?_ ?_
  · exact fun x hx => ⟨x, List.mem_append_left _ hx, rfl⟩
  · exact ⟨r, by simp [Requests.started], rfl⟩
  · intro x hx
    rcases List.mem_append.mp hx with old | last
    · exact .inl ⟨old, new x old⟩
    · obtain rfl := List.mem_singleton.mp last
      refine .inr ⟨rfl, ?_⟩
      rw [h.eventsOf_eq_nil new, h.told.breachesOf_eq_nil new]
      exact Request.story_of_request made begins

lemma decided (h : w.Narrates) (hk : w.store.Keyed) {row r : Request} {actor : Actor} {d : Decision} {x : Decided}
    (stored : row ∈ w.store.requests) (reads : row.readBack? = some r) (decides : r.decide actor d c.now = .ok x)
    (told : (Requests.decided x w).store.Told) : (Requests.decided x w).Narrates := by
  have about : x.event.requestId = row.id := by grind
  have kept (y : Request) (hy : y ∈ w.store.requests) := Store.exists_mem_replaced hy x.request
  refine h.of_event_about told row.id rfl about (List.append_nil _).symm (by simp) kept (kept row stored) ?_
  intro y hy
  rcases (Requests.mem_requests_decided hk stored reads decides).mp hy with old | rfl
  · exact .inl old
  · refine .inr ⟨rfl, ?_⟩
    have known : ∀ b ∈ w.store.breachesOf row.id, b.position < row.steps.length := by
      intro b hb
      obtain ⟨s, found, -⟩ := (h.told.history row stored).known b hb
      exact (List.getElem?_eq_some_iff.mp found).1
    rw [List.append_nil, h.story row stored]
    exact Request.story_updateRow_decide (h.told.alive row stored) reads known decides

lemma breached (h : w.Narrates) (hk : w.store.Keyed) {escalate : Bool} {f : Sweep.Finding} {row : Request}
    (stored : row ∈ w.store.requests) (reads : row.readBack? = some f.request)
    (isOpen : row.isOpen = true) (found : f ∈ Sweep.findingsOf c.now f.request)
    (told : (Sweep.breached escalate c.now f w).store.Told) : (Sweep.breached escalate c.now f w).Narrates := by
  have same : f.request.id = row.id := Request.id_of_readBack? reads
  have late : row.story (w.store.breachesOf row.id ++ [f.breach c.now]) = w.eventsOf row.id ++ [f.event] := by
    obtain ⟨before, last, steps, position, step⟩ :=
      Sweep.exists_last_of_mem_findingsOf (h.told.alive row stored) reads found
    rw [h.story row stored, Request.story_append_breach steps isOpen position]
    simp [Request.lateness, Sweep.Finding.event, Sweep.Finding.breach, step, same,
      Request.workflowName_of_readBack? reads]
  have kept (y : Request) (hy : y ∈ w.store.requests) :
      ∃ z ∈ w.store.escalatedBy (Sweep.escalated escalate c.now f.request), z.id = y.id := by
    cases Sweep.escalated escalate c.now f.request with
    | none => exact ⟨y, hy, rfl⟩
    | some marked => exact Store.exists_mem_replaced hy marked
  refine h.of_event_about told row.id rfl same rfl (by simp [Sweep.Finding.breach, same]) kept (kept row stored) ?_
  intro y hy
  rcases Sweep.mem_escalatedBy hy with ⟨old, -⟩ | ⟨found, mem, marked, hid, marks, rfl⟩
  · by_cases hid : y.id = row.id
    · obtain rfl := hk.eq_of_id old stored hid
      exact .inr ⟨rfl, late⟩
    · exact .inl ⟨old, hid⟩
  · obtain rfl := hk.eq_of_id mem stored (hid.trans same)
    exact .inr ⟨rfl, (Request.story_updateRow_escalated reads marks).trans late⟩

end World.Narrates

/-- With every change the stories of the stored requests go on. -/
lemma Change.narrates {c : Context} {w w' : World} (h : Change c w w') (hk : w.store.Keyed) (hw : w.Narrates) :
    w'.Narrates := by
  have told := h.told hk hw.told
  cases h with
  | directory only =>
    obtain ⟨only, events⟩ := only
    refine hw.of_same told ?_ ?_ events
    all_goals rw [only]
  | workflowCreated => exact hw.of_same told rfl rfl rfl
  | workflowSwitched => exact hw.of_same told rfl rfl rfl
  | workflowRemoved => exact hw.of_same told rfl rfl rfl
  | requestStarted _ _ made new _ begins => exact hw.started made new begins told
  | requestDecided stored reads decides => exact hw.decided hk stored reads decides told
  | stepLate breached =>
    cases breached with
    | intro escalate stored reads isOpen late =>
      refine hw.breached hk stored reads ?_ late told
      rcases isOpen with status | status <;> rw [Request.isOpen, status] <;> rfl

/-! ### Runs -/

/-- Events are what has to be announced of a request with some recorded breaches. -/
structure Request.Announced (r : Request) (events : List Event) (breaches : List Breach) : Prop where
  /-- The events tell the story of the request: each step, with its breaches, and the end. -/
  story : events = r.story breaches
  /-- Each step that they tell of is one of the plan, which has the gate. -/
  planned : ∀ s ∈ r.steps, ∃ step ∈ r.plan.steps, r.plan.step? s.order = some step ∧ s.name = step.name
  /-- Each breach belongs to the step of the request that it names, and so is told of. -/
  known : ∀ b ∈ breaches, ∃ s : StepRecord, r.steps[b.position]? = some s ∧ s.order = b.order ∧
    s.deadline = some b.deadline
  /-- No step is told of as late twice. -/
  once : (breaches.map (·.position)).Nodup

lemma World.narrates_after (acts : List Act) : (World.after {} acts).Narrates :=
  after_empty
    { told := World.told_after []
      story := fun _ h => absurd h (by simp)
      about := fun _ h => absurd h (by simp) }
    (fun _ _ _ hk hw h => h.narrates hk hw) acts

/-- After any calls, the events about a stored request are what has to be announced of it. -/
theorem World.announced_after (acts : List Act) {r : Request}
    (h : r ∈ (World.after {} acts).store.requests) :
    r.Announced ((World.after {} acts).eventsOf r.id) ((World.after {} acts).store.breachesOf r.id) := by
  have narrates := narrates_after acts
  have history := narrates.told.history r h
  refine ⟨narrates.story r h, fun s hs => ?_, history.known, history.once⟩
  obtain ⟨step, mem, -, name, -, found⟩ := (narrates.told.alive r h).follows s hs
  exact ⟨step, mem, found, name⟩

end Supplied

/-- Of the request that was late, taken again and approved four events tell. -/
theorem Leave.announced_of_completed :
    ∃ r ∈ (World.after {} Leave.run).store.requests, r.status = .completed ∧
      ((World.after {} Leave.run).eventsOf r.id).length = 4 ∧
      r.Announced ((World.after {} Leave.run).eventsOf r.id) ((World.after {} Leave.run).store.breachesOf r.id) := by
  have ends : ∃ r ∈ (World.after {} Leave.run).store.requests, r.status = .completed ∧
      ((World.after {} Leave.run).eventsOf r.id).length = 4 := by decide +kernel
  obtain ⟨r, stored, completed, four⟩ := ends
  exact ⟨r, stored, completed, four, World.announced_after Leave.run stored⟩

end Approval
