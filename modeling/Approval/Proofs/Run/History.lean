import Approval.Proofs.Request.History
import Approval.Proofs.Run.Lifecycle

/-!
# The audit log as a history

Whatever is asked of the service and in which order, the audit entries about a request and its recorded
breaches are the history of that request. An entry is written by the change that it tells of, and by no
call that is refused.
-/

namespace Approval

namespace Store

/-- The entries about a request, in the order of writing. -/
def entriesOf (s : Store) (id : RequestId) : List AuditEntry := s.audit.filter (·.requestId = some id)

/-- The recorded breaches of a request. -/
def breachesOf (s : Store) (id : RequestId) : List Breach := s.breaches.filter (·.requestId = id)

/-- The audit log and the recorded breaches are the histories of the stored requests. -/
structure Told (s : Store) : Prop where
  alive : s.Alive
  history : ∀ r ∈ s.requests, r.History (s.entriesOf r.id) (s.breachesOf r.id)
  entries : ∀ e ∈ s.audit, ∀ id, e.requestId = some id → ∃ r ∈ s.requests, r.id = id
  breaches : ∀ b ∈ s.breaches, ∃ r ∈ s.requests, r.id = b.requestId

section Append

variable {s t : Store} {e : AuditEntry} {id : RequestId}

lemma entriesOf_append (h : t.audit = s.audit ++ [e]) (about : e.requestId = some id) :
    t.entriesOf id = s.entriesOf id ++ [e] := by
  simp [entriesOf, h, about]

lemma entriesOf_append_of_ne (h : t.audit = s.audit ++ [e]) (other : e.requestId ≠ some id) :
    t.entriesOf id = s.entriesOf id := by
  simp [entriesOf, h, other]

lemma breachesOf_append {bs : List Breach} (h : t.breaches = s.breaches ++ bs)
    (about : ∀ b ∈ bs, b.requestId = id) : t.breachesOf id = s.breachesOf id ++ bs := by
  rw [breachesOf, h, List.filter_append]
  congr 1
  exact List.filter_eq_self.mpr (by simpa using about)

lemma breachesOf_append_of_ne {bs : List Breach} (h : t.breaches = s.breaches ++ bs)
    (other : ∀ b ∈ bs, b.requestId ≠ id) : t.breachesOf id = s.breachesOf id := by
  have none_of_bs : bs.filter (·.requestId = id) = [] :=
    List.filter_eq_nil_iff.mpr (by simpa using other)
  rw [breachesOf, h, List.filter_append, none_of_bs, List.append_nil]
  rfl

end Append

namespace Told

variable {s t : Store} {id : RequestId}

lemma entriesOf_eq_nil (h : s.Told) (new : ∀ r ∈ s.requests, r.id ≠ id) : s.entriesOf id = [] := by
  apply List.filter_eq_nil_iff.mpr
  intro e he same
  obtain ⟨r, hr, hid⟩ := h.entries e he id (by simpa using same)
  exact new r hr hid

lemma breachesOf_eq_nil (h : s.Told) (new : ∀ r ∈ s.requests, r.id ≠ id) : s.breachesOf id = [] := by
  apply List.filter_eq_nil_iff.mpr
  intro b hb same
  obtain ⟨r, hr, hid⟩ := h.breaches b hb
  exact new r hr (hid.trans (by simpa using same))

/-- An entry about no request leaves the histories as they were. -/
lemma of_entry_about_none (h : s.Told) (requests : t.requests = s.requests)
    (breaches : t.breaches = s.breaches) {e : AuditEntry} (audit : t.audit = s.audit ++ [e])
    (about : e.requestId = none) : t.Told := by
  refine
    { alive := by rw [Alive, requests]; exact h.alive
      history := ?_
      entries := ?_
      breaches := by rw [breaches, requests]; exact h.breaches }
  · rw [requests]
    intro r hr
    rw [entriesOf_append_of_ne audit (by simp [about]), breachesOf, breaches]
    exact h.history r hr
  · rw [audit, requests]
    intro x hx id hid
    rcases List.mem_append.mp hx with old | last
    · exact h.entries x old id hid
    · rw [List.mem_singleton.mp last, about] at hid
      exact absurd hid (by simp)

/-- An entry about one request, perhaps with a breach of it, leaves the histories of the other ones as
they were. -/
lemma of_entry_about (h : s.Told) (alive : t.Alive) (id : RequestId) {e : AuditEntry}
    (audit : t.audit = s.audit ++ [e]) (about : e.requestId = some id) {bs : List Breach}
    (breaches : t.breaches = s.breaches ++ bs) (breaches_about : ∀ b ∈ bs, b.requestId = id)
    (kept : ∀ x ∈ s.requests, ∃ y ∈ t.requests, y.id = x.id) (present : ∃ y ∈ t.requests, y.id = id)
    (history : ∀ x ∈ t.requests, (x ∈ s.requests ∧ x.id ≠ id) ∨
      (x.id = id ∧ x.History (s.entriesOf id ++ [e]) (s.breachesOf id ++ bs))) : t.Told := by
  refine
    { alive
      history := ?_
      entries := ?_
      breaches := ?_ }
  · intro x hx
    rcases history x hx with ⟨old, other⟩ | ⟨rfl, new⟩
    · rw [entriesOf_append_of_ne audit (by simpa [about] using Ne.symm other),
        breachesOf_append_of_ne breaches fun b hb same => other (same.symm.trans (breaches_about b hb))]
      exact h.history x old
    · rwa [entriesOf_append audit about, breachesOf_append breaches breaches_about]
  · rw [audit]
    intro x hx id' hid
    rcases List.mem_append.mp hx with old | last
    · obtain ⟨row, hrow, rfl⟩ := h.entries x old id' hid
      exact kept row hrow
    · rw [List.mem_singleton.mp last, about] at hid
      obtain rfl := Option.some.inj hid
      exact present
  · rw [breaches]
    intro b hb
    rcases List.mem_append.mp hb with old | last
    · obtain ⟨row, hrow, same⟩ := h.breaches b old
      rw [← same]
      exact kept row hrow
    · rw [breaches_about b last]
      exact present

end Told

end Store

/-! ### Changes -/

/-- The row that takes over a decision has a history that tells of it. -/
lemma Request.History.updateRow_decide {row r : Request} {actor : Actor} {d : Decision} {now : Instant}
    {x : Decided} {entries : List AuditEntry} {breaches : List Breach}
    (h : row.History entries breaches) (hr : row.Lifecycle) (reads : row.readBack? = some r)
    (decides : r.decide actor d now = .ok x) {e : AuditEntry} (note : e.toAuditNote = x.note) :
    (Store.updateRow row x.request).History (entries ++ [e]) breaches := by
  have alive := hr.readBack reads
  have read := h.of_continues hr (.of_readBack hr reads) (Request.closedCount_of_readBack? hr reads)
  refine (read.decide alive decides note).of_continues (alive.decide decides) ?_ rfl
  refine .of_steps_eq ?_ ?_ rfl fun _ => rfl
  · rw [Request.eq_of_decide decides, Request.eq_of_readBack? reads]
    rfl
  · rw [Request.createdAt_of_decide decides, Request.createdAt_of_readBack? reads]
    rfl

/-- The row that is marked as escalated has the history that it had before. -/
lemma Request.History.updateRow_escalated {row r marked : Request} {escalate : Bool} {now : Instant}
    {entries : List AuditEntry} {breaches : List Breach} (h : row.History entries breaches)
    (hr : row.Lifecycle) (reads : row.readBack? = some r)
    (marks : Sweep.escalated escalate now r = some marked) :
    (Store.updateRow row marked).History entries breaches := by
  obtain ⟨-, inProgress, rfl⟩ := Sweep.escalated_eq_some.mp marks
  have read := h.of_continues hr (.of_readBack hr reads) (Request.closedCount_of_readBack? hr reads)
  refine read.of_continues (hr.readBack reads) (.of_steps_eq ?_ ?_ rfl ?_) rfl
  · rw [Request.eq_of_readBack? reads]
    rfl
  · exact (Request.createdAt_of_readBack? reads).symm
  · intro finished
    simp [Request.isOpen, inProgress, Status.isTerminal] at finished

/-- A finding is about the step that is reached after all closed ones. -/
lemma Sweep.position_of_mem_findingsOf {r : Request} (hr : r.Lifecycle) (isOpen : r.isOpen = true)
    {now : Instant} {f : Finding} (h : f ∈ findingsOf now r) : f.position = r.closedCount := by
  obtain ⟨-, found, -, late⟩ := mem_findingsOf.mp h
  obtain ⟨before, last, hs, pending, closed⟩ := hr.waiting isOpen
  have at_end := hr.succ_eq_length found (isPending_of_isLate late)
  rw [hs, List.length_append, List.length_singleton] at at_end
  rw [Request.closedCount_of_steps hs pending closed]
  omega

/-- A finding about what a row reads back as, if the row has no breach there, goes on with the history of
the row. -/
lemma Request.History.late_row {row : Request} {entries : List AuditEntry} {breaches : List Breach}
    (h : row.History entries breaches) (hr : row.Lifecycle) {f : Sweep.Finding}
    (reads : row.readBack? = some f.request) (isOpen : f.request.isOpen = true) {now : Instant}
    (found : f ∈ Sweep.findingsOf now f.request) (new : ∀ b ∈ breaches, b.position ≠ f.position)
    {e : AuditEntry} (note : e.toAuditNote = f.note now) :
    row.History (entries ++ [e]) (breaches ++ [f.breach now]) := by
  have position := Sweep.position_of_mem_findingsOf (hr.readBack reads) isOpen found
  rw [Request.closedCount_of_readBack? hr reads] at position
  obtain ⟨-, at_position, due, -⟩ := Sweep.mem_findingsOf.mp found
  obtain ⟨step, at_row, read⟩ := (Request.getElem?_steps_of_readBack? reads).mp at_position
  have tells : e.TellsBreach (f.breach now) := by
    rw [note]
    exact ⟨rfl, rfl, rfl, rfl, rfl, rfl⟩
  refine h.late_step tells at_row ?_ ?_ position new
  · rw [← StepRecord.asRead_order, read]
    rfl
  · rw [← StepRecord.asRead_deadline, read, due]
    rfl

section Supplied

variable [Supply]

namespace Change

variable {c : Context} {w w' : World}

open Store

lemma told_started {wf : Workflow} {requester : UserId} {payload : Json} {r : Request} {first : Step}
    (h : w.store.Told) (made : wf.request w.store.nextRequestId requester payload c.now = .ok r)
    (new : ∀ row ∈ w.store.requests, row.id ≠ r.id)
    (alive : (Requests.started wf r first w).store.Alive) : (Requests.started wf r first w).store.Told := by
  refine h.of_entry_about alive r.id rfl rfl (List.append_nil _).symm (by simp) ?_ ?_ ?_
  · exact fun x hx => ⟨x, List.mem_append_left _ hx, rfl⟩
  · exact ⟨r, by simp [Requests.started], rfl⟩
  · intro x hx
    rcases List.mem_append.mp hx with old | last
    · exact .inl ⟨old, new x old⟩
    · obtain rfl := List.mem_singleton.mp last
      refine .inr ⟨rfl, ?_⟩
      rw [h.entriesOf_eq_nil new, h.breachesOf_eq_nil new]
      exact .of_request made rfl

lemma told_decided {row r : Request} {actor : Actor} {d : Decision} {x : Decided}
    (h : w.store.Told) (hk : w.store.Keyed) (stored : row ∈ w.store.requests)
    (reads : row.readBack? = some r) (decides : r.decide actor d c.now = .ok x)
    (alive : (Requests.decided x w).store.Alive) : (Requests.decided x w).store.Told := by
  have same : x.request.id = row.id := by grind
  have about : x.note.requestId = some row.id := by grind
  have kept (y : Request) (hy : y ∈ w.store.requests) := exists_mem_replaced hy x.request
  refine h.of_entry_about alive row.id rfl about (List.append_nil _).symm (by simp) kept
    (kept row stored) ?_
  intro y hy
  rcases mem_replaced.mp hy with ⟨old, other⟩ | ⟨found, mem, hid, rfl⟩
  · exact .inl ⟨old, same ▸ other⟩
  · obtain rfl := hk.eq_of_id mem stored (hid.trans same)
    refine .inr ⟨rfl, ?_⟩
    rw [List.append_nil]
    exact (h.history found mem).updateRow_decide (h.alive found mem) reads decides rfl

lemma told_breached {escalate : Bool} {f : Sweep.Finding} {row : Request} (h : w.store.Told)
    (hk : w.store.Keyed) (stored : row ∈ w.store.requests) (reads : row.readBack? = some f.request)
    (isOpen : f.request.isOpen = true) (found : f ∈ Sweep.findingsOf c.now f.request)
    (recordable : Sweep.Recordable escalate c.now f w.store)
    (alive : (Sweep.breached escalate c.now f w).store.Alive) :
    (Sweep.breached escalate c.now f w).store.Told := by
  have same : f.request.id = row.id := Request.id_of_readBack? reads
  have hr := h.alive row stored
  have late : row.History (w.store.entriesOf row.id ++ [w.store.entry (f.note c.now)])
      (w.store.breachesOf row.id ++ [f.breach c.now]) := by
    refine (h.history row stored).late_row hr reads isOpen found ?_ rfl
    intro b hb hp
    obtain ⟨mem, hid⟩ := List.mem_filter.mp hb
    have := recordable.new b mem
    simp [Breach.isSame, Sweep.Finding.breach, same, of_decide_eq_true hid, hp] at this
  have kept (y : Request) (hy : y ∈ w.store.requests) :
      ∃ z ∈ w.store.escalatedBy (Sweep.escalated escalate c.now f.request), z.id = y.id := by
    cases Sweep.escalated escalate c.now f.request with
    | none => exact ⟨y, hy, rfl⟩
    | some marked => exact exists_mem_replaced hy marked
  refine h.of_entry_about alive row.id rfl (congrArg some same) rfl
    (by simp [Sweep.Finding.breach, same]) kept (kept row stored) ?_
  intro y hy
  rcases Sweep.mem_escalatedBy hy with ⟨old, none⟩ | ⟨found, mem, marked, hid, marks, rfl⟩
  · by_cases hid : y.id = row.id
    · obtain rfl := hk.eq_of_id old stored hid
      exact .inr ⟨rfl, late⟩
    · exact .inl ⟨old, hid⟩
  · obtain rfl := hk.eq_of_id mem stored (hid.trans same)
    exact .inr ⟨rfl, late.updateRow_escalated hr reads marks⟩

/-- Every change goes on with the histories of the stored requests. -/
lemma told (h : Change c w w') (hk : w.store.Keyed) (ht : w.store.Told) : w'.store.Told := by
  have alive := h.alive hk ht.alive
  cases h with
  | directory only =>
    obtain ⟨only, -⟩ := only
    rw [only] at alive ⊢
    exact ⟨alive, ht.history, ht.entries, ht.breaches⟩
  | workflowCreated => exact ht.of_entry_about_none rfl rfl rfl rfl
  | workflowSwitched => exact ht.of_entry_about_none rfl rfl rfl rfl
  | workflowRemoved => exact ht.of_entry_about_none rfl rfl rfl rfl
  | requestStarted _ _ made new => exact told_started ht made new alive
  | requestDecided stored reads decides => exact told_decided ht hk stored reads decides alive
  | stepLate breached =>
    cases breached with
    | intro escalate stored reads isOpen late recordable =>
      refine told_breached ht hk stored reads ?_ late recordable alive
      rw [Request.isOpen, Request.status_of_readBack? reads]
      rcases isOpen with h | h <;> rw [h] <;> rfl

end Change

/-! ### Runs -/

lemma World.told_after (acts : List Act) : (World.after {} acts).store.Told :=
  after_empty (P := (·.store.Told))
    { alive := fun _ h => absurd h (by simp)
      history := fun _ h => absurd h (by simp)
      entries := fun _ h => absurd h (by simp)
      breaches := fun _ h => absurd h (by simp) }
    (fun _ _ _ hk ht h => h.told hk ht) acts

/-- After any calls, the audit entries about a stored request and its recorded breaches are its
history. -/
theorem World.history_after (acts : List Act) {r : Request}
    (h : r ∈ (World.after {} acts).store.requests) :
    r.History ((World.after {} acts).store.entriesOf r.id) ((World.after {} acts).store.breachesOf r.id) :=
  (told_after acts).history r h

end Supplied

/-- The request that was late, taken again and approved has a history of four entries. -/
theorem Leave.history_of_completed :
    ∃ r ∈ (World.after {} Leave.run).store.requests, r.status = .completed ∧
      ((World.after {} Leave.run).store.entriesOf r.id).length = 4 ∧
      r.History ((World.after {} Leave.run).store.entriesOf r.id)
        ((World.after {} Leave.run).store.breachesOf r.id) := by
  have ends : ∃ r ∈ (World.after {} Leave.run).store.requests, r.status = .completed ∧
      ((World.after {} Leave.run).store.entriesOf r.id).length = 4 := by decide +kernel
  obtain ⟨r, stored, completed, four⟩ := ends
  exact ⟨r, stored, completed, four, World.history_after Leave.run stored⟩

end Approval
