import Approval.Proofs.Request.History
import Approval.Proofs.Run.Lifecycle
import Approval.Proofs.Time.Instant

/-!
# Recorded breaches

As long as the clock does not go back, a breach that is recorded when its step waits stays one of a step
that waits or was closed too late. Breaches may be excused from this, which calls one after the other
never need.
-/

namespace Approval

open Relation

/-- The breach names a step of the request with its deadline. Unless the breach is excused, the step waits
or was closed after the deadline. -/
def Breach.IsOf (b : Breach) (excused : Prop) (r : Request) : Prop :=
  ∃ s, r.steps[b.position]? = some s ∧ s.order = b.order ∧ s.deadline = some b.deadline ∧
    (excused ∨ s.isPending = true ∨ ∃ t, s.completedAt = some t ∧ b.deadline < t)

instance (b : Breach) (excused : Prop) [Decidable excused] (r : Request) :
    Decidable (b.IsOf excused r) :=
  inferInstanceAs <| Decidable <| ∃ s, s ∈ r.steps[b.position]? ∧ s.order = b.order ∧
    s.deadline = some b.deadline ∧
      (excused ∨ s.isPending = true ∨ ∃ t, t ∈ s.completedAt ∧ b.deadline < t)

/-- The step that a decision closes was completed when it was made. -/
lemma Request.Lifecycle.completedAt_of_decide {r : Request} (hr : r.Lifecycle) {actor : Actor}
    {d : Decision} {now : Instant} {x : Decided} (decides : r.decide actor d now = .ok x) {i : Nat}
    {s t : StepRecord} (found : r.steps[i]? = some s) (found' : x.request.steps[i]? = some t)
    (waits : s.isPending = true) (closed : t.isPending = false) : t.completedAt = some now := by
  obtain ⟨before, record, step, overridden, outcome, rule, hs, -, -, -, advanced, -⟩ :=
    hr.decide_eq_ok decides
  obtain ⟨rest, steps⟩ := advanced.exists_steps
  have last : i = before.length := by
    have := hr.succ_eq_length found waits
    rw [hs, List.length_append, List.length_singleton] at this
    omega
  obtain rfl : record.close outcome d.context actor.userId now = t := by simpa [steps, last] using found'
  rfl

namespace Breach.IsOf

variable {b : Breach} {excused : Prop} {r q : Request}

lemma mono {excused' : Prop} (h : b.IsOf excused r) (more : excused → excused') : b.IsOf excused' r := by
  obtain ⟨s, found, order, deadline, late⟩ := h
  exact ⟨s, found, order, deadline, late.imp_left more⟩

lemma of_steps_eq (h : b.IsOf excused r) (same : q.steps = r.steps) : b.IsOf excused q := by
  rw [IsOf, same]
  exact h

/-- A breach stays one of a request that goes on if its step is not closed too early meanwhile. -/
lemma of_continues (h : b.IsOf excused r) (goes : r.Continues q)
    (late : ∀ s t : StepRecord, r.steps[b.position]? = some s → q.steps[b.position]? = some t →
      s.isPending = true → t.isPending = false →
      excused ∨ ∃ time, t.completedAt = some time ∧ b.deadline < time) : b.IsOf excused q := by
  obtain ⟨s, found, order, deadline, was_late⟩ := h
  obtain ⟨t, found', order', deadline', kept⟩ := goes.steps _ s found
  refine ⟨t, found', order'.trans order, deadline'.trans deadline, ?_⟩
  cases waits' : t.isPending with
  | true => exact .inr (.inl rfl)
  | false =>
    cases waits : s.isPending with
    | true => exact (late s t found found' waits waits').imp_right .inr
    | false =>
      obtain ⟨-, -, -, -, completedAt⟩ := kept waits
      rw [completedAt]
      rwa [waits] at was_late

/-- A breach is of what a row reads back as exactly if it is of the row. -/
lemma readBack_iff {row : Request} (hr : row.Lifecycle) (reads : row.readBack? = some r) :
    b.IsOf excused r ↔ b.IsOf excused row := by
  have pending (s : StepRecord) (found : row.steps[b.position]? = some s) :=
    hr.isPending_asRead (List.mem_of_getElem? found)
  simp only [IsOf, Request.getElem?_steps_of_readBack? reads]
  constructor
  · rintro ⟨_, ⟨s, found, rfl⟩, order, deadline, late⟩
    rw [pending s found] at late
    exact ⟨s, found, by simpa using order, by simpa using deadline, by simpa using late⟩
  · rintro ⟨s, found, order, deadline, late⟩
    refine ⟨s.asRead, ⟨s, found, rfl⟩, by simpa using order, by simpa using deadline, ?_⟩
    rw [pending s found]
    simpa using late

/-- A decision closes the step of a breach late, or another step. -/
lemma decide (h : b.IsOf excused r) (hr : r.Lifecycle) {actor : Actor} {d : Decision} {now : Instant}
    {x : Decided} (decides : r.decide actor d now = .ok x)
    (late : b.position + 1 = r.steps.length → excused ∨ b.deadline < now) : b.IsOf excused x.request := by
  refine h.of_continues (.of_decide hr decides) fun s t found found' waits closed => ?_
  have time := hr.completedAt_of_decide decides found found' waits closed
  exact (late (hr.succ_eq_length found waits)).imp_right fun after => ⟨now, time, after⟩

end Breach.IsOf

/-! ### Rows that go on -/

/-- A row that takes over a decision goes on. -/
lemma Request.Continues.updateRow_decide {row r : Request} (hr : row.Lifecycle)
    (reads : row.readBack? = some r) {actor : Actor} {d : Decision} {now : Instant} {x : Decided}
    (decides : r.decide actor d now = .ok x) : row.Continues (Store.updateRow row x.request) := by
  refine (Continues.of_readBack hr reads).trans
    ((Continues.of_decide (hr.readBack reads) decides).trans (.of_steps_eq ?_ ?_ rfl fun _ => rfl))
  · rw [eq_of_decide decides, eq_of_readBack? reads]
    rfl
  · rw [createdAt_of_decide decides, createdAt_of_readBack? reads]
    rfl

/-- A row that is marked as escalated goes on. -/
lemma Request.Continues.updateRow_escalated {row r marked : Request} (hr : row.Lifecycle)
    (reads : row.readBack? = some r) {escalate : Bool} {now : Instant}
    (marks : Sweep.escalated escalate now r = some marked) : row.Continues (Store.updateRow row marked) := by
  obtain ⟨-, inProgress, rfl⟩ := Sweep.escalated_eq_some.mp marks
  refine (Continues.of_readBack hr reads).trans (.of_steps_eq ?_ ?_ rfl fun finished => ?_)
  · rw [eq_of_readBack? reads]
    rfl
  · exact (createdAt_of_readBack? reads).symm
  · simp [isOpen, inProgress, Status.isTerminal] at finished

/-- When what a row reads back as is marked as escalated, each request goes on, and its steps wait as
before. -/
lemma Store.exists_escalatedBy {s : Store} (hk : s.Keyed) (alive : s.Alive) {escalate : Bool} {t : Instant}
    {r : Request}
    (current : (Sweep.escalated escalate t r).isSome = true → ∃ row ∈ s.requests, row.readBack? = some r)
    {q : Request} (hq : q ∈ s.requests) :
    ∃ next ∈ s.escalatedBy (Sweep.escalated escalate t r),
      next.id = q.id ∧ q.Continues next ∧ q.version ≤ next.version ∧
        ∀ (i : Nat) (a b : StepRecord), q.steps[i]? = some a → next.steps[i]? = some b →
          b.isPending = a.isPending := by
  rcases Sweep.mem_escalatedBy_or hk current hq with same | ⟨reads, marked, marks, mem⟩
  · refine ⟨q, same, rfl, .refl q, le_rfl, fun i a b found found' => ?_⟩
    rw [Option.some.inj (found.symm.trans found')]
  · have hr := alive q hq
    refine ⟨_, mem, rfl, .updateRow_escalated hr reads marks, ?_, ?_⟩
    all_goals obtain ⟨-, -, rfl⟩ := Sweep.escalated_eq_some.mp marks
    · change q.version ≤ r.version + 1
      rw [Request.version_of_readBack? reads]
      omega
    · intro i a b found found'
      obtain ⟨a', same, rfl⟩ := (Request.getElem?_steps_of_readBack? reads).mp found'
      obtain rfl := Option.some.inj (found.symm.trans same)
      exact hr.isPending_asRead (List.mem_of_getElem? found)

/-! ### Worlds -/

/-- What holds, at a point of time, of the recorded breaches and of what was written and announced of
them. -/
structure World.Punctual (now : Instant) (excused : Breach → Prop) (w : World) : Prop where
  alive : w.store.Alive
  late : ∀ b ∈ w.store.breaches, b.deadline < b.detectedAt ∧ b.detectedAt ≤ now
  known : ∀ b ∈ w.store.breaches, ∃ r ∈ w.store.requests, r.id = b.requestId ∧ b.IsOf (excused b) r
  escalated : ∀ r ∈ w.store.requests, r.status = .escalated →
    ∃ b ∈ w.store.breaches, b.requestId = r.id ∧ b.position + 1 = r.steps.length
  audit : ∀ e ∈ w.store.audit, e.action = .breachDetected →
    ∃ b ∈ w.store.breaches, e.requestId = some b.requestId ∧ e.TellsBreach b
  events : ∀ id name order stepName deadline, .stepLate id name order stepName deadline ∈ w.events →
    ∃ b ∈ w.store.breaches, b.requestId = id ∧ b.order = order ∧ b.deadline = deadline

namespace World.Punctual

variable {now : Instant} {excused : Breach → Prop} {w w' : World}

lemma empty : ({} : World).Punctual now excused where
  alive := by simp [Store.Alive]
  late := by simp
  known := by simp
  escalated := by simp
  audit := by simp
  events := by simp

/-- Time passes, and more may be excused. -/
lemma mono (h : w.Punctual now excused) {later : Instant} {excused' : Breach → Prop} (le : now ≤ later)
    (more : ∀ b, excused b → excused' b) : w.Punctual later excused' where
  alive := h.alive
  late := fun b hb => ⟨(h.late b hb).1, (h.late b hb).2.trans le⟩
  known := by
    intro b hb
    obtain ⟨r, hr, id, isOf⟩ := h.known b hb
    exact ⟨r, hr, id, isOf.mono (more b)⟩
  escalated := h.escalated
  audit := h.audit
  events := h.events

/-- What is written and announced of something else than a breach leaves the breaches as they were. -/
lemma of_same_breaches (h : w.Punctual now excused) (alive : w'.store.Alive)
    (breaches : w'.store.breaches = w.store.breaches)
    (known : ∀ b ∈ w.store.breaches, ∀ r ∈ w.store.requests, r.id = b.requestId → b.IsOf (excused b) r →
      ∃ q ∈ w'.store.requests, q.id = b.requestId ∧ b.IsOf (excused b) q)
    (escalated : ∀ q ∈ w'.store.requests, q.status = .escalated → q ∈ w.store.requests)
    (audit : ∀ e ∈ w'.store.audit, e ∈ w.store.audit ∨ e.action ≠ .breachDetected)
    (events : ∀ e ∈ w'.events, e ∈ w.events ∨
      ∀ id name order stepName deadline, e ≠ .stepLate id name order stepName deadline) :
    w'.Punctual now excused := by
  refine ⟨alive, ?_, ?_, ?_, ?_, ?_⟩
  all_goals rw [breaches]
  · exact h.late
  · intro b hb
    obtain ⟨r, hr, id, isOf⟩ := h.known b hb
    exact known b hb r hr id isOf
  · exact fun q hq marked => h.escalated q (escalated q hq marked) marked
  · exact fun e he about => (audit e he).elim (fun old => h.audit e old about) fun other => absurd about other
  · intro id name order stepName deadline he
    rcases events _ he with old | other
    · exact h.events id name order stepName deadline old
    · exact absurd rfl (other id name order stepName deadline)

/-- The same with the same requests. -/
lemma of_same (h : w.Punctual now excused) (requests : w'.store.requests = w.store.requests)
    (breaches : w'.store.breaches = w.store.breaches)
    (audit : ∀ e ∈ w'.store.audit, e ∈ w.store.audit ∨ e.action ≠ .breachDetected)
    (events : w'.events = w.events) : w'.Punctual now excused := by
  refine h.of_same_breaches ?_ breaches ?_ ?_ audit ?_
  · rw [Store.Alive, requests]
    exact h.alive
  · rw [requests]
    exact fun b _ r hr id isOf => ⟨r, hr, id, isOf⟩
  · rw [requests]
    exact fun q hq _ => hq
  · rw [events]
    exact fun e he => .inl he

variable [Supply]

lemma started (h : w.Punctual now excused) {wf : Workflow} {id : RequestId} {requester : UserId}
    {payload : Json} {t : Instant} {r : Request} {first : Step}
    (made : wf.request id requester payload t = .ok r) :
    (Requests.started wf r first w).Punctual now excused := by
  refine h.of_same_breaches ?_ rfl ?_ ?_ ?_ ?_
  · intro q hq
    rcases List.mem_append.mp hq with old | new
    · exact h.alive q old
    · rw [List.mem_singleton.mp new]
      exact .of_request made
  · exact fun b _ q hq id isOf => ⟨q, List.mem_append_left _ hq, id, isOf⟩
  · intro q hq marked
    rcases List.mem_append.mp hq with old | new
    · exact old
    · obtain ⟨_, _, -, -, rfl⟩ := Workflow.request_eq_ok_iff.mp made
      rw [List.mem_singleton.mp new] at marked
      cases marked
  · intro e he
    refine (List.mem_append.mp he).imp_right fun new => ?_
    rw [List.mem_singleton.mp new]
    simp [Store.entry, Requests.startNote]
  · intro e he
    refine (List.mem_append.mp he).imp_right fun new => ?_
    rw [List.mem_singleton.mp new]
    simp [Request.assigned]

/-- A decision made at `t` leaves the breaches right if those of the step that it closes were due before. -/
lemma decided (h : w.Punctual now excused) (hk : w.store.Keyed) {row current : Request} {actor : Actor}
    {d : Decision} {t : Instant} {x : Decided} (stored : row ∈ w.store.requests)
    (reads : row.readBack? = some current) (decides : current.decide actor d t = .ok x)
    (late : ∀ b ∈ w.store.breaches, b.requestId = row.id → b.position + 1 = row.steps.length →
      excused b ∨ b.deadline < t) : (Requests.decided x w).Punctual now excused := by
  have hr := h.alive row stored
  have alive := hr.readBack reads
  have member {q : Request} := Requests.mem_requests_decided (q := q) hk stored reads decides
  have note : x.note.action = .stepDecided := by
    obtain ⟨_, _, _, _, _, -, -, -, note⟩ := Request.decide_eq_ok_iff.mp decides
    rw [note]
    rfl
  refine h.of_same_breaches ?_ rfl ?_ ?_ ?_ ?_
  · intro q hq
    rcases member.mp hq with ⟨old, -⟩ | rfl
    · exact h.alive q old
    · exact hr.updateRow_decide reads decides
  · intro b hb q hq id isOf
    by_cases same : q.id = row.id
    · obtain rfl := hk.eq_of_id hq stored same
      refine ⟨_, member.mpr (.inr rfl), id, ?_⟩
      refine Breach.IsOf.of_steps_eq (((Breach.IsOf.readBack_iff hr reads).mpr isOf).decide alive decides ?_) rfl
      intro last
      refine late b hb (id.symm.trans same) ?_
      rwa [Request.steps_of_readBack? reads, List.length_map] at last
    · exact ⟨q, member.mpr (.inl ⟨hq, same⟩), id, isOf⟩
  · intro q hq marked
    rcases member.mp hq with ⟨old, -⟩ | rfl
    · exact old
    · exact absurd marked (Request.status_ne_escalated_of_decide decides)
  · intro e he
    refine (List.mem_append.mp he).imp_right fun new => ?_
    rw [List.mem_singleton.mp new]
    change x.note.action ≠ _
    simp [note]
  · intro e he
    refine (List.mem_append.mp he).imp_right fun new => ?_
    rw [List.mem_singleton.mp new]
    exact Request.ne_stepLate_of_decide decides

/-- A late step that is recorded leaves the breaches right if it is one of the stored request, and this
still is what was listed if it is escalated. -/
lemma breached (h : w.Punctual now excused) (hk : w.store.Keyed) {escalate : Bool} {t : Instant}
    {f : Sweep.Finding} (late : f.deadline < t) (past : t ≤ now)
    (known : ∃ row ∈ w.store.requests, row.id = f.request.id ∧
      (f.breach t).IsOf (excused (f.breach t)) row)
    (current : (Sweep.escalated escalate t f.request).isSome = true →
      (∃ row ∈ w.store.requests, row.readBack? = some f.request) ∧
        f.position + 1 = f.request.steps.length) :
    (Sweep.breached escalate t f w).Punctual now excused := by
  have member {q : Request} := Sweep.mem_escalatedBy_of_reads (x := q) hk fun marks => (current marks).1
  refine
    { alive := ?_
      late := ?_
      known := ?_
      escalated := ?_
      audit := ?_
      events := ?_ }
  · exact Sweep.alive_breached hk h.alive fun marks => (current marks).1
  · intro b hb
    rcases List.mem_append.mp hb with old | new
    · exact h.late b old
    · rw [List.mem_singleton.mp new]
      exact ⟨late, past⟩
  · intro b hb
    have before : ∃ r ∈ w.store.requests, r.id = b.requestId ∧ b.IsOf (excused b) r := by
      rcases List.mem_append.mp hb with old | new
      · exact h.known b old
      · rw [List.mem_singleton.mp new]
        exact known
    obtain ⟨r, hr, id, isOf⟩ := before
    obtain ⟨next, mem, same, goes, -, stays⟩ :=
      Store.exists_escalatedBy hk h.alive (fun marks => (current marks).1) hr
    refine ⟨next, mem, same.trans id, isOf.of_continues goes fun s t found found' waits closed => ?_⟩
    rw [stays _ s t found found', waits] at closed
    exact Bool.noConfusion closed
  · intro q hq marked_q
    rcases member hq with old | ⟨row, stored, reads, marked, marks, rfl⟩
    · obtain ⟨b, hb, id, last⟩ := h.escalated q old marked_q
      exact ⟨b, List.mem_append_left _ hb, id, last⟩
    · have last := (current (by rw [marks]; rfl)).2
      have about : f.request.id = row.id := Request.id_of_readBack? reads
      obtain ⟨-, -, rfl⟩ := Sweep.escalated_eq_some.mp marks
      exact ⟨f.breach t, List.mem_append_right _ (List.mem_singleton_self _), about, last⟩
  · intro e he about
    rcases List.mem_append.mp he with old | new
    · obtain ⟨b, hb, id, tells⟩ := h.audit e old about
      exact ⟨b, List.mem_append_left _ hb, id, tells⟩
    · rw [List.mem_singleton.mp new]
      exact ⟨f.breach t, List.mem_append_right _ (List.mem_singleton_self _), rfl, rfl, rfl, rfl, rfl, rfl, rfl⟩
  · intro id name order stepName deadline he
    rcases List.mem_append.mp he with old | new
    · obtain ⟨b, hb, same⟩ := h.events id name order stepName deadline old
      exact ⟨b, List.mem_append_left _ hb, same⟩
    · have about := List.mem_singleton.mp new
      simp only [Sweep.Finding.event, Event.stepLate.injEq] at about
      obtain ⟨rfl, -, rfl, -, rfl⟩ := about
      exact ⟨f.breach t, List.mem_append_right _ (List.mem_singleton_self _), rfl, rfl, rfl⟩

end World.Punctual

/-! ### Calls one after the other -/

/-- A finding names a late step of its request. -/
lemma Sweep.isOf_of_mem_findingsOf {r : Request} {now : Instant} {f : Finding} (h : f ∈ findingsOf now r)
    (excused : Prop) : (f.breach now).IsOf excused r ∧ f.deadline < now := by
  obtain ⟨-, found, due, late⟩ := mem_findingsOf.mp h
  refine ⟨⟨f.step, found, rfl, due, .inr (.inl (isPending_of_isLate late))⟩, ?_⟩
  simp only [StepRecord.isLate, due, Bool.and_eq_true, decide_eq_true_eq] at late
  exact late.2

variable [Supply]

namespace World.Punctual

variable {now : Instant} {excused : Breach → Prop} {c : Context} {w w' : World}

/-- A late step of a stored request that is recorded at once leaves the breaches right. -/
lemma of_breached (h : w.Punctual c.now excused) (hk : w.store.Keyed) (breached : Sweep.Breached c w w') :
    w'.Punctual c.now excused := by
  cases breached with
  | @intro escalate f row stored reads isOpen late =>
    obtain ⟨isOf, before⟩ := Sweep.isOf_of_mem_findingsOf late (excused (f.breach c.now))
    have hr := h.alive row stored
    refine h.breached hk before le_rfl ⟨row, stored, ?_, (Breach.IsOf.readBack_iff hr reads).mp isOf⟩ fun _ => ?_
    · rw [Request.id_of_readBack? reads]
    · obtain ⟨-, found, -, late⟩ := Sweep.mem_findingsOf.mp late
      exact ⟨⟨row, stored, reads⟩, (hr.readBack reads).succ_eq_length found (Sweep.isPending_of_isLate late)⟩

lemma of_swept (h : w.Punctual c.now excused) (hk : w.store.Keyed)
    (breached : ReflTransGen (Sweep.Breached c) w w') : w'.Punctual c.now excused := by
  have both : w'.store.Keyed ∧ w'.Punctual c.now excused := by
    induction breached with
    | refl => exact ⟨hk, h⟩
    | tail _ step ih => exact ⟨(Change.stepLate step).keyed ih.1, ih.2.of_breached ih.1 step⟩
  exact both.2

/-- A call leaves the breaches right that were recorded before. -/
lemma of_effect (h : w.Punctual c.now excused) (hk : w.store.Keyed) {call : ServiceCall}
    (effect : call.Effect c w w') : w'.Punctual c.now excused := by
  have other {t : Store} {n : AuditNote} (audit : t.audit = w.store.audit ++ [w.store.entry n])
      (action : n.action ≠ .breachDetected) :
      ∀ e ∈ t.audit, e ∈ w.store.audit ∨ e.action ≠ .breachDetected := by
    intro e he
    rw [audit] at he
    refine (List.mem_append.mp he).imp_right fun new => ?_
    rw [List.mem_singleton.mp new]
    exact action
  cases effect with
  | nothing => exact h
  | directory only =>
    obtain ⟨only, events⟩ := only
    refine h.of_same ?_ ?_ ?_ events
    all_goals rw [only]
    exact fun e he => .inl he
  | created => exact h.of_same rfl rfl (other rfl (by simp [Workflows.creationNote, Workflows.note])) rfl
  | switched isActive =>
    refine h.of_same rfl rfl (other rfl ?_) rfl
    cases isActive <;> simp [Workflows.switchNote, Workflows.note]
  | removed => exact h.of_same rfl rfl (other rfl (by simp [Workflows.removalNote, Workflows.note])) rfl
  | started _ _ made => exact h.started made
  | decided stored reads decides =>
    refine h.decided hk stored reads decides fun b hb _ _ => .inr ?_
    exact (h.late b hb).1.trans_le (h.late b hb).2
  | swept breached => exact h.of_swept hk breached

end World.Punctual

/-- After calls under a clock that does not go back, no breach has to be excused. -/
theorem World.punctual_after (acts : List Act) (clock : (acts.map (·.context.now)).Pairwise (· ≤ ·))
    {now : Instant} (past : ∀ a ∈ acts, a.context.now ≤ now) :
    (World.after {} acts).Punctual now fun _ => False := by
  have from_world (w : World) (t : Instant) (hk : w.store.Keyed) (h : w.Punctual t fun _ => False)
      (le : t ≤ now) (later : ∀ a ∈ acts, t ≤ a.context.now) :
      (w.after acts).Punctual now fun _ => False := by
    induction acts generalizing w t with
    | nil => exact h.mono le fun _ => id
    | cons a acts ih =>
      rw [List.map_cons, List.pairwise_cons] at clock
      have at_act := h.mono (later a List.mem_cons_self) fun _ => id
      have keyed := (World.after_preserves (P := fun _ => True) hk trivial (fun _ _ _ _ _ _ => trivial) [a]).1
      refine ih clock.2 (fun b hb => past b (List.mem_cons_of_mem a hb)) (a.run w) a.context.now keyed
        (at_act.of_effect hk (a.call.run_effect hk)) (past a List.mem_cons_self) ?_
      exact fun b hb => clock.1 _ (List.mem_map_of_mem hb)
  cases acts with
  | nil => exact .empty
  | cons a acts =>
    refine from_world {} a.context.now World.keyed_empty .empty (past a List.mem_cons_self) ?_
    rw [List.map_cons, List.pairwise_cons] at clock
    exact List.forall_mem_cons.mpr ⟨le_rfl, fun b hb => clock.1 _ (List.mem_map_of_mem hb)⟩

end Approval
