import Approval.Proofs.Request.Decision
import Approval.Proofs.Store.Rows
import Approval.Proofs.Work
import Approval.Service.Sweep
import Mathlib.Logic.Relation

/-!
# What sweeping does

A sweep records late steps one after the other. A finding is recorded for a request that still is what
was listed; if the request was escalated in between, it is passed over.
-/

namespace Approval.Sweep

open Work Operation

variable {c : Context} {w w' : World} {escalate : Bool} {now : Instant}

/-! ### Findings -/

/-- A finding of a request is a late step of it at its position. -/
@[simp] lemma mem_findingsOf {r : Request} {f : Finding} :
    f ∈ findingsOf now r ↔
      f.request = r ∧ r.steps[f.position]? = some f.step ∧ f.step.deadline = some f.deadline ∧
        f.step.isLate now = true := by
  simp only [findingsOf, List.mem_filterMap, Prod.exists, List.mem_zipIdx_iff_getElem?]
  constructor
  · rintro ⟨step, position, found, h⟩
    cases due : step.deadline with
    | none => simp [due] at h
    | some deadline =>
      simp only [due, Option.ite_none_right_eq_some, Option.some.injEq] at h
      obtain ⟨late, rfl⟩ := h
      exact ⟨rfl, found, due, late⟩
  · rintro ⟨rfl, found, due, late⟩
    exact ⟨f.step, f.position, found, by simp [due, late]⟩

@[grind →]
lemma isPending_of_isLate {s : StepRecord} (h : s.isLate now = true) : s.isPending = true := by
  unfold StepRecord.isLate at h
  split at h
  · exact (Bool.and_eq_true _ _ ▸ h).1
  · exact Bool.noConfusion h

@[simp] lemma escalated_eq_some {r marked : Request} :
    escalated escalate now r = some marked ↔
      escalate = true ∧ r.status = .inProgress ∧
        marked = { r with status := .escalated, version := r.version + 1, updatedAt := now } := by
  simp [escalated, and_assoc, eq_comm (a := marked)]

/-! ### Recording -/

variable [Supply]

/-- The world after a finding was recorded. -/
def breached (escalate : Bool) (now : Instant) (f : Finding) (w : World) : World :=
  { store := { w.store with
      requests := w.store.escalatedBy (escalated escalate now f.request)
      breaches := w.store.breaches ++ [f.breach now]
      audit := w.store.audit ++ [w.store.entry (f.note now)] }
    events := w.events ++ [f.event] }

/-- What it takes for a finding to be recorded. -/
structure Recordable (escalate : Bool) (now : Instant) (f : Finding) (s : Store) : Prop where
  new : ∀ b ∈ s.breaches, (f.breach now).isSame b = false
  known : ∃ row ∈ s.requests, row.id = f.request.id
  current : (escalated escalate now f.request).isSome = true →
    ∃ row ∈ s.requests, row.id = f.request.id ∧ row.version = f.request.version
  fresh : ∀ e ∈ s.audit, e.id ≠ s.nextAuditId

/-- The report after a finding was recorded. -/
def Report.more (escalate : Bool) (now : Instant) (f : Finding) (report : Report) : Report :=
  { report with
    breaches := report.breaches + 1
    escalated := report.escalated + (if (Sweep.escalated escalate now f.request).isSome then 1 else 0) }

lemma addBreach_eq_ok_iff (hk : w.store.Keyed) {f : Finding} {s : Store} :
    w.store.addBreach (f.breach now) (w.store.entry (f.note now))
        ((escalated escalate now f.request).map (·, f.request.version)) = .ok (true, s) ↔
      Recordable escalate now f w.store ∧ s = (breached escalate now f w).store := by
  rw [hk.addBreach_eq_ok_iff]
  cases marks : escalated escalate now f.request with
  | none =>
    constructor
    · rintro ⟨new, known, -, fresh, rfl⟩
      exact ⟨⟨new, known, by simp [marks], fresh⟩, by simp [breached, marks]⟩
    · rintro ⟨h, rfl⟩
      exact ⟨h.new, h.known, by simp, h.fresh, by simp [breached, marks]⟩
  | some marked =>
    obtain ⟨-, -, rfl⟩ := escalated_eq_some.mp marks
    constructor
    · rintro ⟨new, known, current, fresh, rfl⟩
      have same_version := current _ _ rfl
      exact ⟨⟨new, known, fun _ => same_version, fresh⟩, by simp [breached, marks]⟩
    · rintro ⟨h, rfl⟩
      refine ⟨h.new, h.known, ?_, h.fresh, by simp [breached, marks]⟩
      rintro _ _ ⟨⟩
      exact h.current (by simp [marks])

/-- A finding that can be recorded is recorded. -/
lemma record_of_recordable (hk : w.store.Keyed) {f : Finding} (h : Recordable escalate now f w.store)
    (report : Report) :
    record escalate now f report c w = (.ok (report.more escalate now f), breached escalate now f w) := by
  have written := (addBreach_eq_ok_iff hk).mpr ⟨h, rfl⟩
  simp only [record, written]
  rfl

/-- A finding that cannot be recorded is passed over. -/
lemma record_of_not_recordable (hk : w.store.Keyed) {f : Finding}
    (h : ¬Recordable escalate now f w.store) (report : Report) :
    record escalate now f report c w = (.ok report, w) := by
  simp only [record]
  split
  · rename_i s written
    exact absurd ((addBreach_eq_ok_iff hk).mp written).1 h
  · rfl

/-- Recording does not fail: what cannot be recorded is passed over. -/
lemma record_ne_error {f : Finding} {report : Report} {e : Failure} :
    record escalate now f report c w ≠ (.error e, w') := by
  simp only [record]
  split <;> simp

lemma recordAll_sure (findings : List Finding) (report : Report) :
    (recordAll escalate now findings report).Sure := by
  induction findings generalizing report with
  | nil => exact .pure _
  | cons f rest ih =>
    refine .bind (fun c w => ?_) ih
    rcases recorded : record escalate now f report c w with ⟨e | after, v⟩
    · exact absurd recorded record_ne_error
    · exact ⟨after, v, rfl⟩

/-! ### The requests after a finding was recorded -/

omit [Supply] in
/-- A row stays as it was or, if it is the one of the finding, is marked as escalated. -/
lemma mem_escalatedBy {f : Finding} {x : Request} {s : Store}
    (h : x ∈ s.escalatedBy (escalated escalate now f.request)) :
    (x ∈ s.requests ∧ (x.id = f.request.id → escalated escalate now f.request = none)) ∨
      ∃ row ∈ s.requests, ∃ marked, row.id = f.request.id ∧
        escalated escalate now f.request = some marked ∧ x = Store.updateRow row marked := by
  cases marks : escalated escalate now f.request with
  | none =>
    rw [marks] at h
    exact .inl ⟨h, fun _ => rfl⟩
  | some marked =>
    rw [marks, Store.escalatedBy, Store.mem_replaced] at h
    obtain ⟨-, -, rfl⟩ := escalated_eq_some.mp marks
    rcases h with ⟨hm, other⟩ | ⟨row, hm, hid, rfl⟩
    · exact .inl ⟨hm, fun same => absurd same other⟩
    · exact .inr ⟨row, hm, _, hid, rfl, rfl⟩

omit [Supply] in
/-- If the finding is about what a row reads back as, a request is as it was, or the row marked as
escalated. -/
lemma mem_escalatedBy_of_reads {f : Finding} {x : Request} {s : Store} (hk : s.Keyed)
    (current : (escalated escalate now f.request).isSome = true →
      ∃ row ∈ s.requests, row.readBack? = some f.request)
    (h : x ∈ s.escalatedBy (escalated escalate now f.request)) :
    x ∈ s.requests ∨
      ∃ row ∈ s.requests, row.readBack? = some f.request ∧
        ∃ marked, escalated escalate now f.request = some marked ∧ x = Store.updateRow row marked := by
  rcases mem_escalatedBy h with ⟨old, -⟩ | ⟨found, mem, marked, same, marks, changed⟩
  · exact .inl old
  · obtain ⟨row, stored, reads⟩ := current (by rw [marks]; rfl)
    obtain rfl := hk.eq_of_id mem stored (same.trans (Request.id_of_readBack? reads))
    exact .inr ⟨found, mem, reads, marked, marks, changed⟩

omit [Supply] in
/-- If the finding is about what a row reads back as, each row stays as it was, or it is that one and is
marked as escalated. -/
lemma mem_escalatedBy_or {r q : Request} {s : Store} (hk : s.Keyed)
    (current : (escalated escalate now r).isSome = true → ∃ row ∈ s.requests, row.readBack? = some r)
    (hq : q ∈ s.requests) :
    q ∈ s.escalatedBy (escalated escalate now r) ∨
      q.readBack? = some r ∧ ∃ marked, escalated escalate now r = some marked ∧
        Store.updateRow q marked ∈ s.escalatedBy (escalated escalate now r) := by
  cases marks : escalated escalate now r with
  | none => exact .inl hq
  | some marked =>
    obtain ⟨row, stored, reads⟩ := current (by rw [marks]; rfl)
    obtain ⟨-, -, rfl⟩ := escalated_eq_some.mp marks
    have row_id : r.id = row.id := Request.id_of_readBack? reads
    by_cases same : q.id = row.id
    · obtain rfl := hk.eq_of_id hq stored same
      exact .inr ⟨reads, _, rfl, Store.mem_replaced.mpr (.inr ⟨q, hq, row_id.symm, rfl⟩)⟩
    · exact .inl (Store.mem_replaced.mpr (.inl ⟨hq, fun other => same (other.trans row_id)⟩))

/-! ### A whole sweep -/

/-- A late step of a stored request was recorded. -/
inductive Breached (c : Context) (w : World) : World → Prop
  | intro (escalate : Bool) {f : Finding} {row : Request} (stored : row ∈ w.store.requests)
      (reads : row.readBack? = some f.request)
      (isOpen : row.status = .inProgress ∨ row.status = .escalated)
      (late : f ∈ findingsOf c.now f.request) (recordable : Recordable escalate c.now f w.store) :
      Breached c w (breached escalate c.now f w)

/-- A late step of a stored request was recorded, and the request marked as escalated if late requests are. -/
inductive BreachedBy (escalate : Bool) (c : Context) (w : World) : World → Prop
  | intro {f : Finding} {row : Request} (stored : row ∈ w.store.requests)
      (reads : row.readBack? = some f.request)
      (isOpen : row.status = .inProgress ∨ row.status = .escalated)
      (late : f ∈ findingsOf c.now f.request) (recordable : Recordable escalate c.now f w.store) :
      BreachedBy escalate c w (breached escalate c.now f w)

lemma BreachedBy.breached (h : BreachedBy escalate c w w') : Breached c w w' := by
  cases h with
  | intro stored reads isOpen late recordable => exact .intro escalate stored reads isOpen late recordable

/-- A finding that waits to be recorded is about a request that is as it was listed, or one that was
escalated since. -/
def Fresh (escalate : Bool) (now : Instant) (s : Store) (f : Finding) : Prop :=
  ∃ row ∈ s.requests, row.id = f.request.id ∧
    ((row.readBack? = some f.request ∧ (row.status = .inProgress ∨ row.status = .escalated) ∧
        f ∈ findingsOf now f.request) ∨
      (f.request.version < row.version ∧ (escalated escalate now f.request).isSome = true))

omit [Supply] in
/-- Findings of listed requests wait to be recorded. -/
lemma fresh_of_mem_findings {s : Store} {requests : List Request} (listed : s.listOpen = .ok requests)
    {f : Finding} (h : f ∈ findings now requests) : Fresh escalate now s f := by
  obtain ⟨r, hr, hf⟩ := List.mem_flatMap.mp h
  obtain ⟨row, stored, isOpen, reads⟩ := Store.mem_listOpen listed hr
  obtain rfl := (mem_findingsOf.mp hf).1
  exact ⟨row, stored, (Request.id_of_readBack? reads).symm, .inl ⟨reads, isOpen, hf⟩⟩

/-- A finding that waits and can be recorded is a late step of the stored request. -/
lemma Recordable.exists_row {s : Store} {f : Finding} (hk : s.Keyed)
    (recordable : Recordable escalate now f s) (h : Fresh escalate now s f) :
    ∃ row ∈ s.requests, row.readBack? = some f.request ∧
      (row.status = .inProgress ∨ row.status = .escalated) ∧ f ∈ findingsOf now f.request := by
  obtain ⟨row, stored, hid, ⟨reads, isOpen, late⟩ | ⟨older, marks⟩⟩ := h
  · exact ⟨row, stored, reads, isOpen, late⟩
  · obtain ⟨found, mem, hid', current⟩ := recordable.current marks
    obtain rfl : found = row := hk.eq_of_id mem stored (hid'.trans hid.symm)
    omega

/-- What waits to be recorded still does so when another finding was recorded. -/
lemma Fresh.breached {s : Store} {f g : Finding} (hk : s.Keyed) (hf : Fresh escalate now s f)
    (hg : Fresh escalate now s g) (recordable : Recordable escalate now f s) {requests : List Request}
    (h : requests = s.escalatedBy (escalated escalate now f.request)) (breaches : List Breach)
    (audit : List AuditEntry) :
    Fresh escalate now { s with requests, breaches, audit } g := by
  obtain ⟨found, mem, reads, -, -⟩ := recordable.exists_row hk hf
  obtain ⟨row, stored, hid, hg⟩ := hg
  subst h
  cases marks : escalated escalate now f.request with
  | none => exact ⟨row, stored, hid, hg⟩
  | some marked =>
    obtain ⟨on, inProgress, rfl⟩ := escalated_eq_some.mp marks
    by_cases same : row.id = f.request.id
    · -- The request of `g` has just been escalated, so it is not the listed one any more.
      refine ⟨Store.updateRow row _, Store.mem_replaced.mpr (.inr ⟨row, stored, same, rfl⟩), hid, .inr ?_⟩
      obtain rfl : found = row := by
        apply hk.eq_of_id mem stored
        rw [same, Request.id_of_readBack? reads]
      have version := Request.version_of_readBack? reads
      rcases hg with ⟨reads', -, -⟩ | ⟨older, some_marked⟩
      · have copy : g.request = f.request := Option.some.inj (reads'.symm.trans reads)
        rw [copy, marks]
        exact ⟨Int.lt_succ _, rfl⟩
      · refine ⟨?_, some_marked⟩
        change g.request.version < f.request.version + 1
        omega
    · exact ⟨row, Store.mem_replaced.mpr (.inl ⟨stored, same⟩), hid, hg⟩

/-- Recording a finding adds and removes no request. -/
@[simp] lemma map_id_breached (f : Finding) :
    (breached escalate now f w).store.requests.map (·.id) = w.store.requests.map (·.id) := by
  rw [breached]
  cases escalated escalate now f.request with
  | none => rfl
  | some marked => exact Store.map_id_replaced w.store marked

lemma keyed_breached (hk : w.store.Keyed) (f : Finding) :
    (breached escalate now f w).store.Keyed := by
  rw [Store.Keyed, map_id_breached]
  exact hk

/-- Recording late steps leaves workflows as they are, and adds no request. -/
lemma same_of_breached (h : Relation.ReflTransGen (Breached c) w w') :
    w'.store.workflows = w.store.workflows ∧
      w'.store.requests.map (·.id) = w.store.requests.map (·.id) := by
  induction h with
  | refl => exact ⟨rfl, rfl⟩
  | tail _ last ih =>
    cases last with
    | intro => exact ⟨ih.1, (map_id_breached _).trans ih.2⟩

/-- Recording findings that wait to be recorded is recording late steps of stored requests. -/
lemma recordAll_spec (findings : List Finding) (report : Report) (hk : w.store.Keyed)
    (fresh : ∀ f ∈ findings, Fresh escalate c.now w.store f) :
    Relation.ReflTransGen (BreachedBy escalate c) w (recordAll escalate c.now findings report c w).2 := by
  induction findings generalizing w report with
  | nil => exact .refl
  | cons f rest ih =>
    have fresh_f := fresh f List.mem_cons_self
    have fresh_rest (g : Finding) (hg : g ∈ rest) := fresh g (List.mem_cons_of_mem _ hg)
    unfold recordAll
    by_cases h : Recordable escalate c.now f w.store
    · rw [bind_of_ok (record_of_recordable hk h report)]
      obtain ⟨row, stored, reads, isOpen, late⟩ := h.exists_row hk fresh_f
      refine .head (.intro stored reads isOpen late h) (ih _ (keyed_breached hk f) ?_)
      exact fun g hg => fresh_f.breached hk (fresh_rest g hg) h rfl _ _
    · rw [bind_of_ok (record_of_not_recordable hk h report)]
      exact ih _ hk fresh_rest

/-- A sweep fails at listing the open requests or not at all. -/
lemma once_atomic : once.Atomic := by
  apply (read_inert _).atomic.bind_sure
  intro requests
  exact .bind (fun c w => ⟨c, w, rfl⟩) fun c => recordAll_sure _ _

/-- All that a sweep does is to record late steps of stored requests, and to escalate these if its settings
say so. -/
theorem once_by (hk : w.store.Keyed) :
    Relation.ReflTransGen (BreachedBy c.settings.sweep.escalate c) w (once c w).2 := by
  unfold once
  cases listed : w.store.listOpen with
  | error e =>
    rw [bind_of_error (read_eq_error_iff.mpr ⟨e, listed, rfl, rfl⟩)]
  | ok requests =>
    rw [bind_of_ok (read_eq_ok_iff.mpr ⟨listed, rfl⟩), bind_of_ok (context_run)]
    exact recordAll_spec _ _ hk fun f hf => fresh_of_mem_findings listed hf

/-- A sweep that does not escalate leaves the requests as they were. -/
theorem requests_once (hk : w.store.Keyed) (calm : c.settings.sweep.escalate = false) :
    (once c w).2.store.requests = w.store.requests := by
  have breached := once_by (c := c) hk
  rw [calm] at breached
  generalize (once c w).2 = w' at breached ⊢
  induction breached with
  | refl => rfl
  | tail _ last ih =>
    cases last with
    | intro => exact ih

/-- All that a sweep does is to record late steps of stored requests. -/
theorem once_spec (hk : w.store.Keyed) : Relation.ReflTransGen (Breached c) w (once c w).2 :=
  Relation.ReflTransGen.mono (fun _ _ => BreachedBy.breached) _ _ (once_by hk)

end Approval.Sweep
