import Approval.Proofs.Request.Decision
import Approval.Proofs.Store.Rows
import Approval.Proofs.Work
import Approval.Service.Requests

/-!
# What starting and deciding do

A request that is started is added with one audit entry and announced, a decision that succeeds changes
its request, adds one audit entry and is announced, and a call that fails leaves the world as it was.
-/

namespace Approval.Requests

open Work Operation

variable {c : Context} {w w' : World}

/-! ### Starting -/

@[simp] lemma workflowFor_eq_ok_iff {id : WorkflowId} {wf : Workflow} :
    workflowFor id c w = (.ok wf, w') ↔
      w.store.workflow? id = .ok (some wf) ∧ wf.isActive = true ∧ w' = w := by
  simp only [workflowFor, bind_eq_ok_iff, readOr_eq_ok_iff]
  constructor
  · rintro ⟨a, _, ⟨found, rfl⟩, h⟩
    cases active : a.isActive with
    | false => simp [active] at h
    | true =>
      simp only [active, if_true, pure_run, Prod.mk.injEq, Except.ok.injEq] at h
      obtain ⟨rfl, rfl⟩ := h
      exact ⟨found, active, rfl⟩
  · rintro ⟨found, active, rfl⟩
    exact ⟨wf, w', ⟨found, rfl⟩, by simp [active]⟩

lemma workflowFor_inert (id : WorkflowId) : (workflowFor id).Inert := by
  apply (readOr_inert _ _).bind
  intro wf
  split
  · exact .pure wf
  · exact .fail _

variable [Supply]

/-- The world after a request was started. -/
def started (wf : Workflow) (r : Request) (first : Step) (w : World) : World :=
  { store := { w.store with
      requests := w.store.requests ++ [r]
      audit := w.store.audit ++ [w.store.entry (startNote wf r)] }
    events := w.events ++ [r.assigned first] }

lemma enter_eq_ok_iff {wf : Workflow} {requester : UserId} {payload : Json} {r : Request} :
    enter wf requester payload c w = (.ok r, w') ↔
      wf.request w.store.nextRequestId requester payload c.now = .ok r ∧
        (∃ row, w.store.workflows.find? (·.id = r.workflowId) = some row ∧ row.isActive = true) ∧
        (∀ row ∈ w.store.requests, row.id ≠ r.id) ∧
        (∀ x ∈ w.store.audit, x.id ≠ w.store.nextAuditId) ∧
        ∃ first, r.plan.step? 1 = some first ∧ w' = started wf r first w := by
  simp only [enter, bind_eq_ok_iff, now_run, ask_run, ofResult_run, write_eq_ok_iff,
    Store.addRequest_eq_ok_iff, Prod.mk.injEq, Except.ok.injEq]
  constructor
  · rintro ⟨_, _, ⟨rfl, rfl⟩, _, _, ⟨rfl, rfl⟩, a, _, ⟨new, rfl⟩, _, _,
      ⟨_, ⟨active, ids, fresh, rfl⟩, rfl⟩, h⟩
    obtain ⟨first, deadline, found, due, rfl⟩ := Workflow.request_eq_ok_iff.mp new
    simp only [found] at h
    obtain ⟨⟨⟩⟩ := h
    exact ⟨new, active, ids, fresh, first, found, rfl⟩
  · rintro ⟨new, active, ids, fresh, first, found, rfl⟩
    refine ⟨_, _, ⟨rfl, rfl⟩, _, _, ⟨rfl, rfl⟩, r, _, ⟨new, rfl⟩, (), _,
      ⟨_, ⟨active, ids, fresh, rfl⟩, rfl⟩, ?_⟩
    simp only [found]
    rfl

/-- A request that cannot be made is not entered. -/
lemma enter_of_error {wf : Workflow} {requester : UserId} {payload : Json} {e : Failure}
    (made : wf.request w.store.nextRequestId requester payload c.now = .error e) :
    enter wf requester payload c w = (.error e, w) := by
  unfold enter
  rw [bind_of_ok now_run, bind_of_ok (ask_run _), bind_of_error (by rw [ofResult_run, made])]

/-- A request that the store refuses is not entered. -/
lemma enter_of_refused {wf : Workflow} {requester : UserId} {payload : Json} {r : Request} {fault : StoreFault}
    (made : wf.request w.store.nextRequestId requester payload c.now = .ok r)
    (refuses : w.store.addRequest r (w.store.entry (startNote wf r)) = .error fault) :
    enter wf requester payload c w = (.error (explainStart wf.id fault), w) := by
  unfold enter
  rw [bind_of_ok now_run, bind_of_ok (ask_run _), bind_of_ok (a := r) (v := w) (by rw [ofResult_run, made])]
  exact bind_of_error (write_eq_error_iff.mpr ⟨fault, refuses, rfl, rfl⟩)

lemma enter_atomic (wf : Workflow) (requester : UserId) (payload : Json) :
    (enter wf requester payload).Atomic := by
  apply Atomic.of_inert_bind .now
  intro now
  apply Atomic.of_inert_bind (ask_inert _)
  intro id
  apply Atomic.of_inert_bind (.ofResult _)
  intro r
  apply (write_atomic _ _).bind_sure
  intro _
  split
  · exact (publish_sure _).bind fun _ => .pure r
  · exact .pure r

/-- No request is entered beside a workflow that is gone or switched off. -/
lemma enter_of_off {wf : Workflow}
    (off : ∀ row ∈ w.store.workflows, row.id = wf.id → row.isActive = false) (requester : UserId)
    (payload : Json) :
    ∃ e, enter wf requester payload c w = (.error e, w) ∧
      ∀ r, wf.request w.store.nextRequestId requester payload c.now = .ok r →
        e = if ∃ row ∈ w.store.workflows, row.id = wf.id then .inactive wf.id
          else .missing (.workflow wf.id) := by
  rcases enters : enter wf requester payload c w with ⟨e | r, w'⟩
  · obtain rfl := enter_atomic wf requester payload c w e w' enters
    refine ⟨e, rfl, fun r made => ?_⟩
    have same : r.workflowId = wf.id := by
      obtain ⟨_, _, -, -, rfl⟩ := Workflow.request_eq_ok_iff.mp made
      rfl
    split
    · rename_i known
      have refuses := enter_of_refused made (Store.addRequest_of_inactive (same ▸ known) (same ▸ off))
      exact Except.error.inj (congrArg Prod.fst (enters.symm.trans refuses))
    · rename_i unknown
      have gone : ∀ row ∈ w'.store.workflows, row.id ≠ r.workflowId :=
        fun row stored id => unknown ⟨row, stored, id.trans same⟩
      have refuses := enter_of_refused made (Store.addRequest_of_missing gone)
      exact Except.error.inj (congrArg Prod.fst (enters.symm.trans refuses))
  · obtain ⟨made, ⟨row, at_id, active⟩, -⟩ := enter_eq_ok_iff.mp enters
    obtain ⟨_, _, -, -, rfl⟩ := Workflow.request_eq_ok_iff.mp made
    have inactive := off row (List.mem_of_find?_eq_some at_id) (by simpa using List.find?_some at_id)
    exact absurd (active.symm.trans inactive) (by simp)

lemma start_atomic (id : WorkflowId) (requester : UserId) (payload : Json) :
    (start id requester payload).Atomic :=
  .of_inert_bind (workflowFor_inert id) fun wf => enter_atomic wf requester payload

lemma start_eq_ok_iff {id : WorkflowId} {requester : UserId} {payload : Json} {r : Request} :
    start id requester payload c w = (.ok r, w') ↔
      ∃ wf, w.store.workflow? id = .ok (some wf) ∧ wf.isActive = true ∧
        enter wf requester payload c w = (.ok r, w') := by
  simp only [start, bind_eq_ok_iff, workflowFor_eq_ok_iff]
  constructor
  · rintro ⟨wf, _, ⟨found, active, rfl⟩, h⟩
    exact ⟨wf, found, active, h⟩
  · rintro ⟨wf, found, active, h⟩
    exact ⟨wf, w, ⟨found, active, rfl⟩, h⟩

/-! ### Deciding -/

omit [Supply] in
@[simp] lemma get_eq_ok_iff {id : RequestId} {r : Request} :
    get id c w = (.ok r, w') ↔ w.store.request? id = .ok (some r) ∧ w' = w :=
  readOr_eq_ok_iff

omit [Supply] in
lemma get_inert (id : RequestId) : (get id).Inert := readOr_inert _ _

omit [Supply] in
lemma versionFor_inert (id : RequestId) (d : Decision) : (versionFor id d).Inert := by
  unfold versionFor
  split
  · exact .pure _
  · exact (get_inert id).bind fun r => .pure r.version

/-- The world after a decision was saved. -/
def decided (x : Decided) (w : World) : World :=
  { store := { w.store with
      requests := w.store.replaced x.request
      audit := w.store.audit ++ [w.store.entry x.note] }
    events := w.events ++ [x.event] }

lemma keyed_decided (hk : w.store.Keyed) (x : Decided) : (decided x w).store.Keyed := by
  rw [Store.Keyed, decided, Store.map_id_replaced]
  exact hk

/-- After a decision on what a row reads back as, a request is one of the other ones, or the row with what
the decision has changed. -/
lemma mem_requests_decided (hk : w.store.Keyed) {row current q : Request} {actor : Actor} {d : Decision}
    {now : Instant} {x : Decided} (stored : row ∈ w.store.requests) (reads : row.readBack? = some current)
    (decides : current.decide actor d now = .ok x) :
    q ∈ (decided x w).store.requests ↔
      (q ∈ w.store.requests ∧ q.id ≠ row.id) ∨ q = Store.updateRow row x.request := by
  have same_id : x.request.id = row.id := by
    rw [Request.id_of_decide decides, Request.id_of_readBack? reads]
  rw [decided, Store.mem_replaced, same_id]
  refine or_congr_right ⟨?_, fun changed => ⟨row, stored, rfl, changed⟩⟩
  rintro ⟨found, mem, same, changed⟩
  obtain rfl := hk.eq_of_id mem stored same
  exact changed

lemma commit_eq_ok_iff (hk : w.store.Keyed) {v : Int} {x : Decided} {r : Request} :
    commit v x c w = (.ok r, w') ↔
      (∃ row ∈ w.store.requests, row.id = x.request.id ∧ row.version = v) ∧
        (∀ e ∈ w.store.audit, e.id ≠ w.store.nextAuditId) ∧ r = x.request ∧ w' = decided x w := by
  simp only [commit, bind_eq_ok_iff, write_eq_ok_iff, hk.saveRequest_eq_ok_iff, publish_run, pure_run,
    Prod.mk.injEq, Except.ok.injEq]
  constructor
  · rintro ⟨_, _, ⟨_, ⟨current, fresh, rfl⟩, rfl⟩, _, _, ⟨-, rfl⟩, rfl, rfl⟩
    exact ⟨current, fresh, rfl, rfl⟩
  · rintro ⟨current, fresh, rfl, rfl⟩
    exact ⟨(), _, ⟨_, ⟨current, fresh, rfl⟩, rfl⟩, (), _, ⟨trivial, rfl⟩, rfl, rfl⟩

lemma commit_atomic (v : Int) (x : Decided) : (commit v x).Atomic :=
  (write_atomic _ _).bind_sure fun _ => (publish_sure _).bind fun _ => .pure _

/-- A decision that was made on a version that is not the stored one any more is refused. -/
lemma commit_of_stale {v : Int} {x : Decided}
    (h : ∀ row ∈ w.store.requests, row.id = x.request.id → row.version ≠ v) :
    commit v x c w = (.error (.clash .stale), w) := by
  refine bind_of_error (write_eq_error_iff.mpr ⟨.clash .stale, ?_, rfl, rfl⟩)
  exact Store.saveRequest_eq_error h

lemma decideAt_eq_ok_iff {id : RequestId} {actor : Actor} {d : Decision} {v : Int} {r : Request} :
    decideAt id actor d v c w = (.ok r, w') ↔
      ∃ current x, w.store.request? id = .ok (some current) ∧ current.version = v ∧
        current.decide actor d c.now = .ok x ∧ commit v x c w = (.ok r, w') := by
  simp only [decideAt, bind_eq_ok_iff, get_eq_ok_iff]
  constructor
  · rintro ⟨current, _, ⟨found, rfl⟩, h⟩
    by_cases same : current.version = v
    · simp only [same, ne_eq, not_true_eq_false, if_false, bind_eq_ok_iff, now_run, ofResult_run,
        Prod.mk.injEq, Except.ok.injEq] at h
      obtain ⟨_, _, ⟨rfl, rfl⟩, x, _, ⟨decided, rfl⟩, saved⟩ := h
      exact ⟨current, x, found, same, decided, saved⟩
    · simp [same] at h
  · rintro ⟨current, x, found, same, decided, saved⟩
    refine ⟨current, w, ⟨found, rfl⟩, ?_⟩
    simp only [same, ne_eq, not_true_eq_false, if_false, bind_eq_ok_iff, now_run, ofResult_run,
      Prod.mk.injEq, Except.ok.injEq]
    exact ⟨_, _, ⟨rfl, rfl⟩, x, _, ⟨decided, rfl⟩, saved⟩

lemma decideAt_atomic (id : RequestId) (actor : Actor) (d : Decision) (v : Int) :
    (decideAt id actor d v).Atomic := by
  apply Atomic.of_inert_bind (get_inert id)
  intro current
  split
  · exact (Inert.fail _).atomic
  · apply Atomic.of_inert_bind .now
    intro now
    apply Atomic.of_inert_bind (.ofResult _)
    exact commit_atomic _

lemma process_atomic (id : RequestId) (actor : Actor) (d : Decision) : (process id actor d).Atomic :=
  .of_inert_bind (versionFor_inert id d) fun v => decideAt_atomic id actor d v

/-- A call that decides a request decides the request that is stored, and saves what this comes to. -/
theorem process_eq_ok_iff (hk : w.store.Keyed) {id : RequestId} {actor : Actor} {d : Decision}
    {r : Request} :
    process id actor d c w = (.ok r, w') ↔
      ∃ row ∈ w.store.requests, ∃ current x, row.id = id ∧ row.readBack? = some current ∧
        current.decide actor d c.now = .ok x ∧ (∀ e ∈ w.store.audit, e.id ≠ w.store.nextAuditId) ∧
        r = x.request ∧ w' = decided x w := by
  simp only [process, bind_eq_ok_iff, decideAt_eq_ok_iff]
  constructor
  · rintro ⟨v, u, observed, current, x, found, same, decides, saved⟩
    obtain rfl : u = w := by
      have := versionFor_inert id d c w
      rwa [observed] at this
    obtain ⟨row, stored, rfl, reads⟩ := Store.request?_eq_some found
    obtain ⟨-, fresh, rfl, rfl⟩ := (commit_eq_ok_iff hk).mp saved
    exact ⟨row, stored, current, x, rfl, reads, decides, fresh, rfl, rfl⟩
  · rintro ⟨row, stored, current, x, rfl, reads, decides, fresh, rfl, rfl⟩
    have found := hk.request?_eq stored reads
    have observed : versionFor row.id d c w = (.ok current.version, w) := by
      obtain ⟨_, _, _, _, _, grounds, -⟩ := Request.decide_eq_ok_iff.mp decides
      unfold versionFor
      cases expected : d.expectedVersion with
      | some v => simp [grounds.expected v expected]
      | none => exact bind_of_ok (get_eq_ok_iff.mpr ⟨found, rfl⟩)
    refine ⟨_, _, observed, current, x, found, rfl, decides, (commit_eq_ok_iff hk).mpr ?_⟩
    refine ⟨⟨row, stored, ?_, (Request.version_of_readBack? reads).symm⟩, fresh, rfl, rfl⟩
    rw [Request.id_of_decide decides, Request.id_of_readBack? reads]

/-- A call whose decision is refused fails for the reason of the refusal. -/
lemma process_of_decide_error (hk : w.store.Keyed) {row current : Request}
    (stored : row ∈ w.store.requests) (reads : row.readBack? = some current) {actor : Actor}
    {d : Decision} {e : Failure} (refused : current.decide actor d c.now = .error e) :
    process row.id actor d c w = (.error e, w) := by
  have found : get row.id c w = (.ok current, w) :=
    get_eq_ok_iff.mpr ⟨hk.request?_eq stored reads, rfl⟩
  have decideAt_current : decideAt row.id actor d current.version c w = (.error e, w) := by
    rw [decideAt, bind_of_ok found]
    simp only [ne_eq, not_true_eq_false, if_false]
    rw [bind_of_ok now_run, bind_of_error (by rw [ofResult_run, refused])]
  cases expected : d.expectedVersion with
  | none =>
    have observed : versionFor row.id d c w = (.ok current.version, w) := by
      simp only [versionFor, expected]
      exact bind_of_ok found
    rw [process, bind_of_ok observed, decideAt_current]
  | some v =>
    have observed : versionFor row.id d c w = (.ok v, w) := by
      simp only [versionFor, expected]
      rfl
    rw [process, bind_of_ok observed]
    by_cases same : current.version = v
    · rw [← same, decideAt_current]
    · obtain rfl : e = .clash .stale :=
        Except.error.inj (refused.symm.trans (Request.decide_of_stale expected same))
      rw [decideAt, bind_of_ok found]
      simp only [ne_eq, same, not_false_eq_true, if_true, fail_run]

/-- Take over what a decision came to. -/
def enact (x : Decided) : Operation Request := fun _ w => (.ok x.request, decided x w)

/-- A call decides what is stored. -/
lemma process_eq (hk : w.store.Keyed) (fresh : ∀ e ∈ w.store.audit, e.id ≠ w.store.nextAuditId)
    {id : RequestId} {actor : Actor} {d : Decision} :
    process id actor d c w = (get id >>= fun r => ofResult (r.decide actor d c.now) >>= enact) c w := by
  rcases found : get id c w with ⟨e | r, u⟩
  · rw [bind_of_error found]
    cases expected : d.expectedVersion with
    | none =>
      have unknown : versionFor id d c w = (.error e, u) := by
        rw [versionFor, expected]
        exact bind_of_error found
      rw [process, bind_of_error unknown]
    | some v =>
      have observed : versionFor id d c w = (.ok v, w) := by
        rw [versionFor, expected]
        rfl
      rw [process, bind_of_ok observed, decideAt, bind_of_error found]
  · obtain ⟨known, rfl⟩ := get_eq_ok_iff.mp found
    obtain ⟨row, stored, rfl, reads⟩ := Store.request?_eq_some known
    rw [bind_of_ok found]
    cases decides : r.decide actor d c.now with
    | error e => rw [process_of_decide_error hk stored reads decides, bind_of_error (by rw [ofResult_run])]
    | ok x =>
      rw [bind_of_ok (by rw [ofResult_run])]
      exact (process_eq_ok_iff hk).mpr ⟨row, stored, r, x, rfl, reads, decides, fresh, rfl, rfl⟩

end Approval.Requests
