import Approval.Proofs.Agreement
import Approval.Proofs.Run.Directory
import Approval.Proofs.Run.Growth
import Approval.Proofs.Run.Story

/-!
# Requests do not depend on each other

Two calls on different requests may be made in either order: each is answered the same, and what is stored in the
end is the same but for the numbers of audit entries.
-/

namespace Approval

open Work Operation

/-! ### Calls on requests -/

/-- A call on one request: it is started, or decided. -/
inductive RequestCall
  | start (id : WorkflowId) (requester : UserId) (payload : Json)
  | process (id : RequestId) (actor : Actor) (d : Decision)

namespace RequestCall

variable [Supply]

def run : RequestCall → Operation Request
  | .start id requester payload => Requests.start id requester payload
  | .process id actor d => Requests.process id actor d

/-- The request that the call is on: the one that is decided, or a new one, whose identifier nobody knows before. -/
def target (s : Store) : RequestCall → RequestId
  | .start _ _ _ => s.nextRequestId
  | .process id _ _ => id

def call : RequestCall → ServiceCall
  | .start id requester payload => .start id requester payload
  | .process id actor d => .process id actor d

/-- Two stores look the same to the call: they have the same request to decide, or the same workflows and as many
requests to start one after. -/
def SeesSame (s t : Store) : RequestCall → Prop
  | .start _ _ _ => t.workflows = s.workflows ∧ t.requests.length = s.requests.length
  | .process id _ _ => t.requests.find? (·.id = id) = s.requests.find? (·.id = id)

end RequestCall

/-- What a call on a request comes to: the request, as a new one or with what has changed, with one audit entry and
one event about it. -/
structure Outcome where
  request : Request
  isNew : Bool
  note : AuditNote
  event : Event
  note_about : note.requestId = some request.id
  event_about : event.requestId = request.id

namespace Outcome

variable {x y : Outcome} {w v : World} {id : RequestId}

/-- The rows of requests once the request was taken over. -/
def rows (x : Outcome) (rows : List Request) : List Request :=
  match x.isNew with
  | true => rows ++ [x.request]
  | false => rows.map fun row => if row.id = x.request.id then Store.updateRow row x.request else row

variable [Supply] in
/-- The world once the outcome was taken over. -/
def enact (x : Outcome) (w : World) : World :=
  { store := { w.store with
      requests := x.rows w.store.requests
      audit := w.store.audit ++ [w.store.entry x.note] }
    events := w.events ++ [x.event] }

/-- Rows of different requests are taken over in either order, unless both are new. -/
lemma rows_comm (apart : x.request.id ≠ y.request.id) (known : x.isNew = false ∨ y.isNew = false)
    (rs : List Request) : x.rows (y.rows rs) = y.rows (x.rows rs) := by
  unfold rows
  cases hx : x.isNew <;> cases hy : y.isNew
  · simp only [List.map_map]
    refine List.map_congr_left fun row _ => ?_
    simp only [Function.comp_apply]
    by_cases first : row.id = x.request.id
    · have other : row.id ≠ y.request.id := fun same => apart (first.symm.trans same)
      simp [first, apart, Store.updateRow]
    · by_cases second : row.id = y.request.id <;> simp [first, second, apart.symm, Store.updateRow]
  · simp [apart.symm]
  · simp [apart]
  · simp [hx, hy] at known

/-- Another request is found as it was. -/
lemma find?_rows (other : x.request.id ≠ id) (rs : List Request) :
    (x.rows rs).find? (·.id = id) = rs.find? (·.id = id) := by
  unfold rows
  cases x.isNew with
  | true => simp [other]
  | false =>
    induction rs with
    | nil => rfl
    | cons row rs ih =>
      rw [List.map_cons, List.find?_cons, List.find?_cons, ih]
      by_cases same : row.id = x.request.id <;> simp [same, other, Store.updateRow]

end Outcome

/-! ### The order of calls -/

/-- The worlds are the same but for the order in which entries and events about different requests were added, and
for the numbers of entries. -/
structure World.Reordered (w v : World) : Prop where
  requests : w.store.requests = v.store.requests
  workflows : w.store.workflows = v.store.workflows
  workflowsStored : w.store.workflowsStored = v.store.workflowsStored
  breaches : w.store.breaches = v.store.breaches
  directory : w.store.SameDirectory v.store
  entries : ∀ id, (w.store.entriesOf id).map (·.toAuditNote) = (v.store.entriesOf id).map (·.toAuditNote)
  events : ∀ id, w.eventsOf id = v.eventsOf id

lemma World.Reordered.refl (w : World) : w.Reordered w := ⟨rfl, rfl, rfl, rfl, .refl _, fun _ => rfl, fun _ => rfl⟩

section Supplied

variable [Supply]

namespace Outcome

variable {x y : Outcome} {w v : World} {id : RequestId}

@[simp] lemma entriesOf_enact (x : Outcome) (w : World) (id : RequestId) :
    ((x.enact w).store.entriesOf id).map (·.toAuditNote) =
      (w.store.entriesOf id).map (·.toAuditNote) ++ if x.request.id = id then [x.note] else [] := by
  split_ifs with same
  · rw [Store.entriesOf_append rfl (x.note_about.trans (congrArg some same)), List.map_append]
    rfl
  · rw [Store.entriesOf_append_of_ne rfl, List.append_nil]
    exact fun about => same (Option.some.inj (x.note_about.symm.trans about))

@[simp] lemma eventsOf_enact (x : Outcome) (w : World) (id : RequestId) :
    (x.enact w).eventsOf id = w.eventsOf id ++ if x.request.id = id then [x.event] else [] := by
  split_ifs with same
  · rw [World.eventsOf_append rfl (x.event_about.trans same)]
  · rw [World.eventsOf_append_of_ne rfl, List.append_nil]
    exact fun about => same (x.event_about.symm.trans about)

omit [Supply] in
/-- What is added about one of two requests is the same in either order. -/
lemma append_ite_comm {α : Type} {i j : RequestId} (apart : i ≠ j) (id : RequestId) (as : List α) (a b : α) :
    (as ++ if i = id then [a] else []) ++ (if j = id then [b] else []) =
      (as ++ if j = id then [b] else []) ++ if i = id then [a] else [] := by
  by_cases first : i = id
  · have other : j ≠ id := fun same => apart (first.trans same.symm)
    simp [first, other]
  · simp [first]

/-- Outcomes for different requests are taken over in either order, unless both requests are new. -/
lemma reordered (apart : x.request.id ≠ y.request.id) (known : x.isNew = false ∨ y.isNew = false) (w : World) :
    (y.enact (x.enact w)).Reordered (x.enact (y.enact w)) where
  requests := (rows_comm apart known w.store.requests).symm
  workflows := rfl
  workflowsStored := rfl
  breaches := rfl
  directory := ⟨rfl, rfl, rfl, rfl⟩
  entries := by
    intro id
    simp only [entriesOf_enact]
    exact append_ite_comm apart id _ _ _
  events := by
    intro id
    simp only [eventsOf_enact]
    exact append_ite_comm apart id _ _ _

end Outcome

namespace RequestCall

variable {c d : Context} {w v : World}

/-- The call gives up in both worlds for the same reason, or has the same outcome in both. -/
inductive RunsAlike (m : RequestCall) (c : Context) (w v : World) : Prop
  | refused (e : Failure) (left : m.run c w = (.error e, w)) (right : m.run c v = (.error e, v))
  | answered (x : Outcome) (target : x.request.id = m.target w.store)
      (number : x.isNew = true → x.request.id = w.store.nextRequestId)
      (left : m.run c w = (.ok x.request, x.enact w)) (right : m.run c v = (.ok x.request, x.enact v))

/-- Where the same request is found, it is decided alike. -/
lemma process_runsAlike (hw : w.store.Keyed) (hv : v.store.Keyed)
    (fresh : ∀ e ∈ w.store.audit, e.id ≠ w.store.nextAuditId)
    (fresh' : ∀ e ∈ v.store.audit, e.id ≠ v.store.nextAuditId) {id : RequestId} (actor : Actor) (d : Decision)
    (same : (process id actor d).SeesSame w.store v.store) : (process id actor d).RunsAlike c w v := by
  have left : Requests.process id actor d c w = _ := Requests.process_eq hw fresh
  have right : Requests.process id actor d c v = _ := Requests.process_eq hv fresh'
  have found : w.store.request? id = v.store.request? id := by rw [Store.request?, ← same, Store.request?]
  rcases (Requests.get_inert id).run_same (answer_readOr_eq found) with ⟨e, hr, hr'⟩ | ⟨r, hr, hr'⟩
  · rw [bind_of_error hr] at left
    rw [bind_of_error hr'] at right
    exact .refused e left right
  · rw [bind_of_ok hr] at left
    rw [bind_of_ok hr'] at right
    cases decides : r.decide actor d c.now with
    | error e =>
      rw [decides] at left right
      exact .refused e left right
    | ok x =>
      rw [decides] at left right
      obtain ⟨row, -, rfl, reads⟩ := Store.request?_eq_some (Requests.get_eq_ok_iff.mp hr).1
      have same_id := Request.id_of_decide decides
      refine .answered
        { request := x.request
          isNew := false
          note := x.note
          event := x.event
          note_about := (Request.requestId_of_decide decides).trans (congrArg some same_id.symm)
          event_about := (Request.requestId_event_of_decide decides).trans same_id.symm }
        (same_id.trans (Request.id_of_readBack? reads)) (fun new => nomatch new) left right

omit [Supply] in
/-- Where the same is read of a workflow, it is the one for new requests alike. -/
lemma workflowFor_answer_eq {id : WorkflowId} (same : w.store.workflow? id = v.store.workflow? id) :
    (Requests.workflowFor id c w).1 = (Requests.workflowFor id c v).1 := by
  unfold Requests.workflowFor
  rcases (readOr_inert (.workflow id) (·.workflow? id)).run_same (answer_readOr_eq (c := c) same) with
    ⟨e, hr, hr'⟩ | ⟨wf, hr, hr'⟩
  · rw [bind_of_error hr, bind_of_error hr']
  · rw [bind_of_ok hr, bind_of_ok hr']
    split <;> rfl

/-- A request of an active workflow that was read is entered. -/
lemma enter_of_found {id : WorkflowId} {wf : Workflow} {requester : UserId} {payload : Json} {r : Request}
    {first : Step} (known : w.store.workflow? id = .ok (some wf)) (active : wf.isActive = true)
    (made : wf.request w.store.nextRequestId requester payload c.now = .ok r)
    (begins : r.plan.step? 1 = some first) (new : ∀ row ∈ w.store.requests, row.id ≠ w.store.nextRequestId)
    (fresh : ∀ e ∈ w.store.audit, e.id ≠ w.store.nextAuditId) :
    Requests.enter wf requester payload c w = (.ok r, Requests.started wf r first w) := by
  obtain ⟨row, at_id, reads⟩ := Store.readOption_eq_ok_some.mp known
  obtain ⟨_, _, -, -, request⟩ := Workflow.request_eq_ok_iff.mp made
  have number : r.id = w.store.nextRequestId := by rw [request]
  have chosen : row.id = id := by simpa using List.find?_some at_id
  have same := Workflow.eq_of_readBack? reads
  have of_row : r.workflowId = id := by rw [request, ← chosen, same]
  refine Requests.enter_eq_ok_iff.mpr ⟨made, ⟨row, of_row ▸ at_id, ?_⟩, number ▸ new, fresh, first, begins, rfl⟩
  rwa [same] at active

/-- Where the same workflows are stored and the next request has the same number, it is started alike. -/
lemma start_runsAlike (hw : w.store.Issued) (hv : v.store.Issued)
    (fresh : ∀ e ∈ w.store.audit, e.id ≠ w.store.nextAuditId)
    (fresh' : ∀ e ∈ v.store.audit, e.id ≠ v.store.nextAuditId) {id : WorkflowId} (requester : UserId)
    (payload : Json) (same : (start id requester payload).SeesSame w.store v.store) :
    (start id requester payload).RunsAlike c w v := by
  obtain ⟨workflows, count⟩ := same
  have next : v.store.nextRequestId = w.store.nextRequestId := by
    rw [Store.nextRequestId, count, Store.nextRequestId]
  have found : w.store.workflow? id = v.store.workflow? id := by
    rw [Store.workflow?, ← workflows, Store.workflow?]
  rcases (Requests.workflowFor_inert id).run_same (workflowFor_answer_eq found) with
    ⟨e, hr, hr'⟩ | ⟨wf, hr, hr'⟩
  · exact .refused e (bind_of_error hr) (bind_of_error hr')
  · obtain ⟨known, active, -⟩ := Requests.workflowFor_eq_ok_iff.mp hr
    cases made : wf.request w.store.nextRequestId requester payload c.now with
    | error e =>
      exact .refused e ((bind_of_ok hr).trans (Requests.enter_of_error made))
        ((bind_of_ok hr').trans (Requests.enter_of_error (next ▸ made)))
    | ok r =>
      obtain ⟨first, deadline, begins, -, request⟩ := Workflow.request_eq_ok_iff.mp made
      have number : r.id = w.store.nextRequestId := by rw [request]
      have starts : r.plan.step? 1 = some first := by rw [request, begins]
      refine .answered
        { request := r
          isNew := true
          note := Requests.startNote wf r
          event := r.assigned first
          note_about := rfl
          event_about := rfl }
        number (fun _ => number) ?_ ?_
      · exact (bind_of_ok hr).trans (enter_of_found known active made starts hw.fresh fresh)
      · exact (bind_of_ok hr').trans
          (enter_of_found (found ▸ known) active (next ▸ made) starts hv.fresh fresh')

/-- After runs that leave the same to be seen, a call is run alike. -/
lemma runsAlike (m : RequestCall) (c : Context) (acts more : List Act)
    (same : m.SeesSame (World.after {} acts).store (World.after {} more).store) :
    m.RunsAlike c (World.after {} acts) (World.after {} more) := by
  have fresh (acts : List Act) := (World.numbered_after acts).fresh
  cases m with
  | start id requester payload =>
    exact start_runsAlike (World.issued_after acts) (World.issued_after more) (fresh acts) (fresh more) requester
      payload same
  | process id actor d =>
    exact process_runsAlike (World.keyed_after acts) (World.keyed_after more) (fresh acts) (fresh more) actor d
      same

omit [Supply] in
lemma SeesSame.refl (m : RequestCall) (s : Store) : m.SeesSame s s := by
  cases m with
  | start => exact ⟨rfl, rfl⟩
  | process => exact rfl

/-- What comes about on another request cannot be seen. -/
lemma seesSame_enact {x : Outcome} (m : RequestCall)
    (number : x.isNew = true → x.request.id = w.store.nextRequestId)
    (apart : x.request.id ≠ m.target w.store) : m.SeesSame w.store (x.enact w).store := by
  cases m with
  | start id requester payload =>
    refine ⟨rfl, ?_⟩
    cases isNew : x.isNew with
    | true => exact absurd (number isNew) apart
    | false => simp [Outcome.enact, Outcome.rows, isNew]
  | process id actor d =>
    exact x.find?_rows apart w.store.requests

/-- A call on another request cannot be seen. -/
lemma seesSame_run (m other : RequestCall) (c : Context) (acts : List Act)
    (apart : m.target (World.after {} acts).store ≠ other.target (World.after {} acts).store) :
    m.SeesSame (World.after {} acts).store (other.run c (World.after {} acts)).2.store := by
  cases other.runsAlike c acts acts (.refl other _) with
  | refused e left =>
    rw [left]
    exact .refl m _
  | answered x target number left =>
    rw [left]
    exact m.seesSame_enact number fun same => apart (same.symm.trans target)

end RequestCall

/-- The two calls may be made in either order. -/
structure World.Independent (w : World) (c d : Context) (first second : RequestCall) : Prop where
  first_same : (first.run c (second.run d w).2).1 = (first.run c w).1
  second_same : (second.run d (first.run c w).2).1 = (second.run d w).1
  reordered : (second.run d (first.run c w).2).2.Reordered (first.run c (second.run d w).2).2

/-- After any acts, two calls on different requests may be made in either order. -/
theorem World.independent_after (acts : List Act) (c d : Context) (first second : RequestCall)
    (apart : first.target (World.after {} acts).store ≠ second.target (World.after {} acts).store) :
    (World.after {} acts).Independent c d first second := by
  have after (m : RequestCall) (c : Context) :
      (m.run c (World.after {} acts)).2 = World.after {} (acts ++ [⟨c, m.call⟩]) := by
    rw [World.after_append]
    cases m <;> rfl
  have sees_first := first.seesSame_run second d acts apart
  have sees_second := second.seesSame_run first c acts apart.symm
  rw [after] at sees_first sees_second
  have alike_first := first.runsAlike c acts _ sees_first
  have alike_second := second.runsAlike d acts _ sees_second
  rw [← after] at alike_first alike_second
  generalize World.after {} acts = w at apart alike_first alike_second ⊢
  cases alike_first with
  | refused e left right => exact ⟨by rw [left, right], by rw [left], by rw [left, right]; exact .refl _⟩
  | answered x target number left right =>
    cases alike_second with
    | refused e left' right' =>
      refine ⟨by rw [left, right], by rw [left', right'], ?_⟩
      rw [right', right, left, left']
      exact .refl _
    | answered y target' number' left' right' =>
      refine ⟨by rw [left, right], by rw [left', right'], ?_⟩
      rw [right', right, left, left']
      have distinct : x.request.id ≠ y.request.id := by rwa [target, target']
      refine Outcome.reordered distinct ?_ w
      by_contra both
      simp only [not_or, Bool.not_eq_false] at both
      exact distinct ((number both.1).trans (number' both.2).symm)

end Supplied

/-! ### Two requests of one workflow -/

namespace Leave

/-- The first request is approved and over. -/
def finishing : RequestCall := .process request admin { outcome := "APPROVED" }

/-- The second request is taken again and waits. -/
def resuming : RequestCall := .process (.serial .request 2) admin { outcome := "MORE" }

/-- It does not matter whether the one request is approved or the other one taken again first, or which of them is
done before a third one is started. Each of these calls succeeds. -/
theorem independent_of_run :
    let w := World.after {} (run.take 5)
    let starting : RequestCall := .start (.serial .workflow 1) admin.userId .null
    (finishing.target w.store ≠ resuming.target w.store ∧ finishing.target w.store ≠ starting.target w.store) ∧
      (w.Independent (clock 15) (clock 15) finishing resuming ∧
        w.Independent (clock 15) (clock 15) finishing starting) ∧
      ∀ m ∈ [finishing, resuming, starting], (m.run (clock 15) w).1.isOk = true := by
  intro w starting
  have apart : finishing.target w.store ≠ resuming.target w.store ∧
      finishing.target w.store ≠ starting.target w.store := by decide +kernel
  refine ⟨apart, ⟨?_, ?_⟩, by decide +kernel⟩
  · exact World.independent_after _ _ _ _ _ apart.1
  · exact World.independent_after _ _ _ _ _ apart.2

end Leave

end Approval
