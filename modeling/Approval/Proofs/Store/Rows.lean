import Approval.Proofs.Store.ReadBack
import Approval.Store.Write
import Mathlib.Data.List.Nodup
import Mathlib.Tactic.SplitIfs

/-!
# Rows of the store

No two requests have the same identifier. Under this condition every write that succeeds is described by
an equation for the new store, and a write that fails has no new store at all.
-/

namespace Approval

namespace Store

/-- No two requests of the store have the same identifier. -/
def Keyed (s : Store) : Prop := (s.requests.map (·.id)).Nodup

/-- The requests of the store after the one with the identifier of `r` took over what changed. -/
def replaced (s : Store) (r : Request) : List Request :=
  s.requests.map fun row => if row.id = r.id then updateRow row r else row

/-! ### Finding requests -/

lemma Keyed.eq_of_id {s : Store} (hk : s.Keyed) {a b : Request} (ha : a ∈ s.requests)
    (hb : b ∈ s.requests) (h : a.id = b.id) : a = b :=
  List.inj_on_of_nodup_map hk ha hb h

/-- A member of a list without two of the same key is the one that is found by its key. -/
lemma find?_eq_of_nodup_map {α κ : Type} [DecidableEq κ] {key : α → κ} {as : List α}
    (distinct : (as.map key).Nodup) {a : α} (h : a ∈ as) : as.find? (key · = key a) = some a := by
  cases hf : as.find? (key · = key a) with
  | none =>
    have := List.find?_eq_none.mp hf a h
    simp at this
  | some found =>
    have same : key found = key a := by simpa using List.find?_some hf
    rw [List.inj_on_of_nodup_map distinct (List.mem_of_find?_eq_some hf) h same]

lemma Keyed.find?_eq {s : Store} (hk : s.Keyed) {row : Request} (h : row ∈ s.requests) :
    s.requests.find? (·.id = row.id) = some row :=
  find?_eq_of_nodup_map hk h

@[simp] lemma read_eq_ok_iff {α : Type} {f : α → Option α} {row a : α} :
    read f row = .ok a ↔ f row = some a := by
  unfold read
  cases f row <;> simp

@[simp] lemma readOption_eq_ok_some {α : Type} {f : α → Option α} {row : Option α} {a : α} :
    readOption f row = .ok (some a) ↔ ∃ b, row = some b ∧ f b = some a := by
  cases row with
  | none => simp [readOption]
  | some b => simp [readOption]

/-- The request with an identifier is a row that reads back. -/
lemma request?_eq_some {s : Store} {id : RequestId} {r : Request}
    (h : s.request? id = .ok (some r)) : ∃ row ∈ s.requests, row.id = id ∧ row.readBack? = some r := by
  obtain ⟨row, hf, hr⟩ := readOption_eq_ok_some.mp h
  exact ⟨row, List.mem_of_find?_eq_some hf, by simpa using List.find?_some hf, hr⟩

lemma Keyed.request?_eq {s : Store} (hk : s.Keyed) {row r : Request} (h : row ∈ s.requests)
    (hr : row.readBack? = some r) : s.request? row.id = .ok (some r) :=
  readOption_eq_ok_some.mpr ⟨row, hk.find?_eq h, hr⟩

/-- A workflow that is stored is found if rows read back. -/
lemma exists_workflow? {s : Store} {id : WorkflowId} (known : ∃ x ∈ s.workflows, x.id = id)
    (reads : ∀ row ∈ s.workflows, ∃ wf, row.readBack? = some wf) :
    ∃ wf, s.workflow? id = .ok (some wf) := by
  cases found : s.workflows.find? (·.id = id) with
  | none =>
    obtain ⟨x, stored, same⟩ := known
    have := List.find?_eq_none.mp found x stored
    simp [same] at this
  | some row =>
    obtain ⟨wf, read⟩ := reads row (List.mem_of_find?_eq_some found)
    exact ⟨wf, readOption_eq_ok_some.mpr ⟨row, found, read⟩⟩

lemma mem_of_readAll {α : Type} {f : α → Option α} {rows as : List α}
    (h : readAll f rows = .ok as) {a : α} (ha : a ∈ as) : ∃ row ∈ rows, f row = some a := by
  obtain ⟨row, hm, hr⟩ := exists_of_forall₂_right (forall₂_of_mapM_except h) ha
  exact ⟨row, hm, read_eq_ok_iff.mp hr⟩

/-- Rows that all read back are read one by one. -/
lemma readAll_eq_filterMap {α : Type} {f : α → Option α} {rows : List α}
    (h : ∀ row ∈ rows, ∃ a, f row = some a) : readAll f rows = .ok (rows.filterMap f) := by
  induction rows with
  | nil => rfl
  | cons row rows ih =>
    obtain ⟨a, ha⟩ := h row List.mem_cons_self
    have rest := ih fun other mem => h other (List.mem_cons_of_mem row mem)
    unfold readAll at *
    rw [List.mapM_cons, read_eq_ok_iff.mpr ha, rest, List.filterMap_cons_some ha]
    rfl

/-- Rows that read back are read. -/
lemma exists_readAll {α : Type} {f : α → Option α} {rows : List α}
    (h : ∀ row ∈ rows, ∃ a, f row = some a) : ∃ as, readAll f rows = .ok as :=
  ⟨_, readAll_eq_filterMap h⟩

/-- One row that does not read back makes reading them all fail. -/
lemma readAll_of_none {α : Type} {f : α → Option α} {rows : List α} {row : α} (mem : row ∈ rows)
    (h : f row = none) : readAll f rows = .error unreadable := by
  have refuses : read f row = .error unreadable := by simp only [read, h]
  unfold readAll
  induction mem with
  | head rows => rw [List.mapM_cons, refuses]; rfl
  | @tail other rows _ ih =>
    rw [List.mapM_cons, ih]
    unfold read
    cases f other <;> rfl

/-! ### Open rows -/

/-- The rows of open requests are those with an open status, whatever their order. -/
lemma openRows_perm (s : Store) :
    s.openRows.Perm (s.requests.filter fun r => r.status = .inProgress ∨ r.status = .escalated) := by
  refine (List.mergeSort_perm _ _).trans (List.perm_append_comm.trans ?_)
  have split := List.filter_append_perm (fun r : Request => r.status = .inProgress)
    (s.requests.filter fun r => r.status = .inProgress ∨ r.status = .escalated)
  simp only [List.filter_filter] at split
  refine (List.Perm.of_eq ?_).trans split
  congr 1 <;> refine List.filter_congr fun r _ => ?_ <;> cases r.status <;> rfl

@[simp] lemma mem_openRows {s : Store} {r : Request} :
    r ∈ s.openRows ↔ r ∈ s.requests ∧ (r.status = .inProgress ∨ r.status = .escalated) := by
  simp [(openRows_perm s).mem_iff]

/-- A listed open request is an open row that reads back. -/
lemma mem_listOpen {s : Store} {rs : List Request} (h : s.listOpen = .ok rs) {r : Request}
    (hr : r ∈ rs) :
    ∃ row ∈ s.requests, (row.status = .inProgress ∨ row.status = .escalated) ∧
      row.readBack? = some r := by
  obtain ⟨row, mem, reads⟩ := mem_of_readAll h hr
  obtain ⟨stored, isOpen⟩ := mem_openRows.mp mem
  exact ⟨row, stored, isOpen, reads⟩

/-! ### Changing requests -/

lemma mem_replaced {s : Store} {r x : Request} :
    x ∈ s.replaced r ↔
      (x ∈ s.requests ∧ x.id ≠ r.id) ∨ ∃ row ∈ s.requests, row.id = r.id ∧ x = updateRow row r := by
  simp only [replaced, List.mem_map]
  constructor
  · rintro ⟨row, hm, rfl⟩
    by_cases h : row.id = r.id
    · exact .inr ⟨row, hm, h, by simp [h]⟩
    · exact .inl (by simpa [h] using hm)
  · rintro (⟨hm, h⟩ | ⟨row, hm, h, rfl⟩)
    · exact ⟨x, hm, by simp [h]⟩
    · exact ⟨row, hm, by simp [h]⟩

@[simp] lemma map_id_replaced (s : Store) (r : Request) :
    (s.replaced r).map (·.id) = s.requests.map (·.id) := by
  simp only [replaced, List.map_map]
  apply List.map_congr_left
  intro row _
  simp only [Function.comp_apply]
  split <;> rfl

lemma exists_mem_replaced {s : Store} {x : Request} (h : x ∈ s.requests) (r : Request) :
    ∃ y ∈ s.replaced r, y.id = x.id := by
  have : x.id ∈ (s.replaced r).map (·.id) := by
    rw [map_id_replaced]
    exact List.mem_map_of_mem h
  exact List.mem_map.mp this

@[simp] lemma any_isAt {s : Store} {id : RequestId} {v : Int} :
    s.requests.any (isAt id v) = true ↔ ∃ row ∈ s.requests, row.id = id ∧ row.version = v := by
  simp [isAt]

/-- A request is stored at a version. -/
def HasAt (s : Store) (id : RequestId) (version : Int) : Prop :=
  ∃ row ∈ s.requests, row.id = id ∧ row.version = version

/-- The requests of the store after those at the expected version took over what changed. -/
def replacedAt (s : Store) (r : Request) (expected : Int) : List Request :=
  s.requests.map fun row => if row.id = r.id ∧ row.version = expected then updateRow row r else row

@[simp] lemma update_eq_ok_iff {s t : Store} {r : Request} {v : Int} :
    s.update r v = .ok t ↔ s.HasAt r.id v ∧ t = { s with requests := s.replacedAt r v } := by
  have same : (s.requests.map fun row => if isAt r.id v row then updateRow row r else row) =
      s.replacedAt r v := by
    simp only [replacedAt, isAt, Bool.and_eq_true, decide_eq_true_eq]
  unfold update
  split_ifs with h
  · have there : s.HasAt r.id v := any_isAt.mp h
    simp only [same, there, Except.ok.injEq, true_and, eq_comm (a := t)]
  · have nowhere : ¬s.HasAt r.id v := fun there => h (any_isAt.mpr there)
    simp only [nowhere, false_and]

/-- In a keyed store a change reaches the one row that has the expected version. -/
lemma Keyed.replacedAt_eq {s : Store} (hk : s.Keyed) {r : Request} {v : Int} (h : s.HasAt r.id v) :
    s.replacedAt r v = s.replaced r := by
  obtain ⟨row, hm, hid, hv⟩ := h
  apply List.map_congr_left
  intro x hx
  by_cases same : x.id = r.id
  · obtain rfl : x = row := hk.eq_of_id hx hm (same.trans hid.symm)
    simp [same, hv]
  · simp [same]

lemma update_eq_error {s : Store} {r : Request} {v : Int}
    (h : ∀ row ∈ s.requests, row.id = r.id → row.version ≠ v) :
    s.update r v = .error (.clash .stale) := by
  unfold update
  rw [ite_eq_right_iff]
  intro hm
  obtain ⟨row, hm, hid, hv⟩ := any_isAt.mp hm
  exact absurd hv (h row hm hid)

/-! ### Changing workflows -/

@[simp] lemma append_eq_ok_iff {s t : Store} {e : AuditEntry} :
    s.append e = .ok t ↔ (∀ x ∈ s.audit, x.id ≠ e.id) ∧ t = { s with audit := s.audit ++ [e] } := by
  simp [append, eq_comm (a := t)]

@[simp] lemma addWorkflow_eq_ok_iff {s t : Store} {w : Workflow} {e : AuditEntry} :
    s.addWorkflow w e = .ok t ↔
      (∀ x ∈ s.workflows, x.id ≠ w.id ∧ x.name ≠ w.name) ∧ (∀ x ∈ s.audit, x.id ≠ e.id) ∧
        t = { s with
          workflows := s.workflows ++ [w]
          workflowsStored := s.workflowsStored + 1
          audit := s.audit ++ [e] } := by
  simp [addWorkflow]

@[simp]
lemma setActive_eq_ok_iff {s t : Store} {id : WorkflowId} {isActive : Bool} {e : AuditEntry} :
    s.setActive id isActive e = .ok t ↔
      (∃ w ∈ s.workflows, w.id = id) ∧ (∀ x ∈ s.audit, x.id ≠ e.id) ∧
        t = { s with
          workflows := s.workflows.map fun w => if w.id = id then { w with isActive } else w
          audit := s.audit ++ [e] } := by
  unfold setActive
  split_ifs with h
  · have : ∃ w ∈ s.workflows, w.id = id := by simpa using h
    simp [this]
  · have : ¬∃ w ∈ s.workflows, w.id = id := by simpa using h
    simp [this]

@[simp] lemma removeWorkflow_eq_ok_iff {s t : Store} {id : WorkflowId} {e : AuditEntry} :
    s.removeWorkflow id e = .ok t ↔
      s.openCount id = 0 ∧ (∃ w ∈ s.workflows, w.id = id) ∧ (∀ x ∈ s.audit, x.id ≠ e.id) ∧
        t = { s with
          workflows := s.workflows.filter (·.id ≠ id)
          audit := s.audit ++ [e] } := by
  unfold removeWorkflow
  rw [Except.ite_error_eq_ok_iff, Nat.not_lt, Nat.le_zero]
  apply and_congr_right
  intro _
  split_ifs with h
  · have : ∃ w ∈ s.workflows, w.id = id := by simpa using h
    simp [this]
  · have : ¬∃ w ∈ s.workflows, w.id = id := by simpa using h
    simp [this]

/-! ### Changing requests with an audit entry -/

/-- A request is added only under a new identifier and for an active workflow. -/
@[simp] lemma addRequest_eq_ok_iff {s t : Store} {r : Request} {e : AuditEntry} :
    s.addRequest r e = .ok t ↔
      (∃ w, s.workflows.find? (·.id = r.workflowId) = some w ∧ w.isActive = true) ∧
        (∀ row ∈ s.requests, row.id ≠ r.id) ∧ (∀ x ∈ s.audit, x.id ≠ e.id) ∧
        t = { s with requests := s.requests ++ [r], audit := s.audit ++ [e] } := by
  unfold addRequest
  cases hw : s.workflows.find? (·.id = r.workflowId) with
  | none => simp
  | some w => simp

lemma addRequest_of_missing {s : Store} {r : Request} {e : AuditEntry}
    (gone : ∀ row ∈ s.workflows, row.id ≠ r.workflowId) : s.addRequest r e = .error .missing := by
  have nowhere : s.workflows.find? (·.id = r.workflowId) = none := by simpa using gone
  simp only [addRequest, nowhere]

lemma addRequest_of_inactive {s : Store} {r : Request} {e : AuditEntry}
    (known : ∃ row ∈ s.workflows, row.id = r.workflowId)
    (off : ∀ row ∈ s.workflows, row.id = r.workflowId → row.isActive = false) :
    s.addRequest r e = .error (.clash (.inactive r.workflowId)) := by
  cases found : s.workflows.find? (·.id = r.workflowId) with
  | none =>
    obtain ⟨row, stored, id⟩ := known
    simp only [List.find?_eq_none, decide_eq_true_eq] at found
    exact absurd id (found row stored)
  | some row =>
    have inactive := off row (List.mem_of_find?_eq_some found) (by simpa using List.find?_some found)
    simp [addRequest, found, inactive]

@[simp] lemma saveRequest_eq_ok_iff {s t : Store} {r : Request} {v : Int} {e : AuditEntry} :
    s.saveRequest r v e = .ok t ↔
      s.HasAt r.id v ∧ (∀ x ∈ s.audit, x.id ≠ e.id) ∧
        t = { s with requests := s.replacedAt r v, audit := s.audit ++ [e] } := by
  simp only [saveRequest, Except.bind_eq_ok_iff, update_eq_ok_iff]
  constructor
  · rintro ⟨_, ⟨there, rfl⟩, h⟩
    exact ⟨there, append_eq_ok_iff.mp h⟩
  · rintro ⟨there, h⟩
    exact ⟨_, ⟨there, rfl⟩, append_eq_ok_iff.mpr h⟩

lemma Keyed.saveRequest_eq_ok_iff {s t : Store} (hk : s.Keyed) {r : Request} {v : Int}
    {e : AuditEntry} :
    s.saveRequest r v e = .ok t ↔
      s.HasAt r.id v ∧ (∀ x ∈ s.audit, x.id ≠ e.id) ∧
        t = { s with requests := s.replaced r, audit := s.audit ++ [e] } := by
  rw [Store.saveRequest_eq_ok_iff]
  refine and_congr_right fun there => ?_
  rw [hk.replacedAt_eq there]

lemma saveRequest_eq_error {s : Store} {r : Request} {v : Int} {e : AuditEntry}
    (h : ∀ row ∈ s.requests, row.id = r.id → row.version ≠ v) :
    s.saveRequest r v e = .error (.clash .stale) := by
  rw [saveRequest, update_eq_error h]
  rfl

/-- The requests after one of them may have been marked as escalated. -/
def escalatedBy (s : Store) : Option Request → List Request
  | none => s.requests
  | some r => s.replaced r

/-- The requests after those at the version that was listed, if any, were marked as escalated. -/
def escalatedAt (s : Store) : Option (Request × Int) → List Request
  | none => s.requests
  | some (r, expected) => s.replacedAt r expected

/-- A breach is recorded once, for a request that exists and, if it is escalated, is still at the
version that was listed. -/
@[simp] lemma addBreach_eq_ok_iff {s t : Store} {b : Breach} {e : AuditEntry}
    {escalated : Option (Request × Int)} :
    s.addBreach b e escalated = .ok (true, t) ↔
      (∀ x ∈ s.breaches, b.isSame x = false) ∧ (∃ row ∈ s.requests, row.id = b.requestId) ∧
        (∀ r v, escalated = some (r, v) → s.HasAt r.id v) ∧ (∀ x ∈ s.audit, x.id ≠ e.id) ∧
        t = { s with
          requests := s.escalatedAt escalated
          breaches := s.breaches ++ [b]
          audit := s.audit ++ [e] } := by
  unfold addBreach
  split_ifs with known missing
  · simp only [Except.ok.injEq, Prod.mk.injEq, Bool.false_eq_true, false_and, false_iff]
    rintro ⟨new, -⟩
    obtain ⟨x, hm, hx⟩ := List.any_eq_true.mp known
    rw [new x hm] at hx
    exact Bool.noConfusion hx
  · simp only [false_iff]
    rintro ⟨-, ⟨row, hm, hid⟩, -⟩
    simp only [Bool.not_eq_true', List.any_eq_false, decide_eq_true_eq] at missing
    exact missing row hm hid
  · have new : ∀ x ∈ s.breaches, b.isSame x = false := by simpa using known
    have exists_row : ∃ row ∈ s.requests, row.id = b.requestId := by simpa using missing
    cases escalated with
    | none =>
      simp only [Except.bind_eq_ok_iff, append_eq_ok_iff, pure, Except.pure, Except.ok.injEq,
        Prod.mk.injEq, true_and]
      constructor
      · rintro ⟨_, rfl, _, ⟨fresh, rfl⟩, rfl⟩
        exact ⟨new, exists_row, by simp, fresh, rfl⟩
      · rintro ⟨-, -, -, fresh, rfl⟩
        exact ⟨_, rfl, _, ⟨fresh, rfl⟩, rfl⟩
    | some p =>
      obtain ⟨r, v⟩ := p
      simp only [Except.bind_eq_ok_iff, append_eq_ok_iff, update_eq_ok_iff, pure, Except.pure,
        Except.ok.injEq, Prod.mk.injEq, true_and]
      constructor
      · rintro ⟨_, ⟨there, rfl⟩, _, ⟨fresh, rfl⟩, rfl⟩
        refine ⟨new, exists_row, ?_, fresh, rfl⟩
        rintro _ _ ⟨⟩
        exact there
      · rintro ⟨-, -, current, fresh, rfl⟩
        exact ⟨_, ⟨current r v rfl, rfl⟩, _, ⟨fresh, rfl⟩, rfl⟩

/-- A breach that is recorded already is told as such, and nothing else is. -/
@[simp] lemma addBreach_eq_ok_false_iff {s t : Store} {b : Breach} {e : AuditEntry}
    {escalated : Option (Request × Int)} :
    s.addBreach b e escalated = .ok (false, t) ↔ (∃ x ∈ s.breaches, b.isSame x = true) ∧ t = s := by
  unfold addBreach
  rw [← List.any_eq_true]
  split_ifs with known missing
  · simp only [known, true_and, Except.ok.injEq, Prod.mk.injEq, eq_comm (a := t)]
  · simp only [known, false_and, reduceCtorEq]
  · cases escalated <;>
      simp [known, pure, Except.pure]

lemma Keyed.addBreach_eq_ok_iff {s t : Store} (hk : s.Keyed) {b : Breach} {e : AuditEntry}
    {escalated : Option (Request × Int)} :
    s.addBreach b e escalated = .ok (true, t) ↔
      (∀ x ∈ s.breaches, b.isSame x = false) ∧ (∃ row ∈ s.requests, row.id = b.requestId) ∧
        (∀ r v, escalated = some (r, v) → s.HasAt r.id v) ∧ (∀ x ∈ s.audit, x.id ≠ e.id) ∧
        t = { s with
          requests := s.escalatedBy (escalated.map (·.1))
          breaches := s.breaches ++ [b]
          audit := s.audit ++ [e] } := by
  rw [Store.addBreach_eq_ok_iff]
  refine and_congr_right fun _ => and_congr_right fun _ => and_congr_right fun current => ?_
  cases escalated with
  | none => rfl
  | some p => simp [escalatedAt, escalatedBy, hk.replacedAt_eq (current p.1 p.2 rfl)]

end Store

end Approval
