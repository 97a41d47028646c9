import Approval.Proofs.Id
import Approval.Proofs.Run.Effect

/-!
# The changes that runs are made of

Whatever is called, the world changes in one of seven ways: the directory changes, a workflow is created,
switched or removed, a request is started or decided, or a late step is recorded. What each of them keeps
holds after every run.
-/

namespace Approval

open Relation

variable [Supply]

/-- One change of the world under a context. -/
inductive Change (c : Context) (w : World) : World → Prop
  | directory {w' : World} (only : Directory.Only c w w') : Change c w w'
  | workflowCreated {d : Draft} {createdBy : Option UserId} {wf : Workflow}
      (accepted : d.normalize.verify = .ok ())
      (made : wf = Workflows.ofDraft d.normalize w.store.nextWorkflowId createdBy c.now)
      (new : ∀ x ∈ w.store.workflows, x.name ≠ wf.name)
      (fresh : ∀ e ∈ w.store.audit, e.id ≠ w.store.nextAuditId) :
      Change c w (Workflows.created wf w)
  | workflowSwitched {id : WorkflowId} (isActive : Bool) (actor : Option UserId)
      (known : ∃ x ∈ w.store.workflows, x.id = id)
      (fresh : ∀ e ∈ w.store.audit, e.id ≠ w.store.nextAuditId) :
      Change c w (Workflows.switched id isActive actor c.now w)
  | workflowRemoved {id : WorkflowId} (actor : Option UserId) (idle : w.store.openCount id = 0)
      (known : ∃ x ∈ w.store.workflows, x.id = id)
      (fresh : ∀ e ∈ w.store.audit, e.id ≠ w.store.nextAuditId) :
      Change c w (Workflows.removed id actor c.now w)
  | requestStarted {id : WorkflowId} {wf : Workflow} {requester : UserId} {payload : Json} {r : Request}
      {first : Step} (found : w.store.workflow? id = .ok (some wf)) (active : wf.isActive = true)
      (made : wf.request w.store.nextRequestId requester payload c.now = .ok r)
      (new : ∀ row ∈ w.store.requests, row.id ≠ r.id)
      (fresh : ∀ e ∈ w.store.audit, e.id ≠ w.store.nextAuditId) (begins : r.plan.step? 1 = some first) :
      Change c w (Requests.started wf r first w)
  | requestDecided {row current : Request} {actor : Actor} {d : Decision} {x : Decided}
      (stored : row ∈ w.store.requests) (reads : row.readBack? = some current)
      (decides : current.decide actor d c.now = .ok x)
      (fresh : ∀ e ∈ w.store.audit, e.id ≠ w.store.nextAuditId) : Change c w (Requests.decided x w)
  | stepLate {w' : World} (breached : Sweep.Breached c w w') : Change c w w'

/-- The entries of the audit log are numbered from 1 in the order of writing. -/
def Store.Numbered (s : Store) : Prop :=
  ∀ (n : Nat) (e : AuditEntry), s.audit[n]? = some e → e.id = Supply.id .auditEntry (n + 1)

/-- The number of the next entry is a new one. -/
lemma Store.Numbered.fresh {s : Store} (h : s.Numbered) : ∀ e ∈ s.audit, e.id ≠ s.nextAuditId := by
  intro e he same
  obtain ⟨n, found⟩ := List.mem_iff_getElem?.mp he
  have below := (List.getElem?_eq_some_iff.mp found).1
  have := Supply.id_injective _ ((h n e found).symm.trans same)
  omega

lemma Store.Numbered.append {s t : Store} (h : s.Numbered) {note : AuditNote}
    (added : t.audit = s.audit ++ [s.entry note]) : t.Numbered := by
  intro n e found
  rw [added, List.getElem?_append] at found
  split at found
  · exact h n e found
  · obtain ⟨below, rfl⟩ := List.getElem?_eq_some_iff.mp found
    have last : n = s.audit.length := by
      rw [List.length_singleton] at below
      omega
    simp [last, Store.entry, Store.nextAuditId]

/-- Requests are numbered from 1 in the order in which they were started, and each workflow has a number of
its own, none of them greater than the count of those that were ever created. -/
structure Store.Issued (s : Store) : Prop where
  requests : ∀ (n : Nat) (id : RequestId), (s.requests.map (·.id))[n]? = some id → id = Supply.id .request (n + 1)
  workflows : ∀ wf ∈ s.workflows, ∃ n < s.workflowsStored, wf.id = Supply.id .workflow (n + 1)
  distinct : (s.workflows.map (·.id)).Nodup

namespace Store.Issued

variable {s t : Store}

/-- The number of the next request is a new one. -/
lemma fresh (h : s.Issued) : ∀ row ∈ s.requests, row.id ≠ s.nextRequestId := by
  intro row stored same
  obtain ⟨n, found⟩ := List.mem_iff_getElem?.mp stored
  have below := (List.getElem?_eq_some_iff.mp found).1
  have numbered := h.requests n row.id (by rw [List.getElem?_map, found]; rfl)
  have := Supply.id_injective _ (numbered.symm.trans same)
  omega

lemma of_same_requests (h : s.Issued) (requests : t.requests.map (·.id) = s.requests.map (·.id))
    (workflows : t.workflows = s.workflows) (stored : t.workflowsStored = s.workflowsStored) :
    t.Issued where
  requests := by rw [requests]; exact h.requests
  workflows := by rw [workflows, stored]; exact h.workflows
  distinct := by rw [workflows]; exact h.distinct

lemma find?_eq (h : s.Issued) {wf : Workflow} (stored : wf ∈ s.workflows) :
    s.workflows.find? (·.id = wf.id) = some wf :=
  find?_eq_of_nodup_map h.distinct stored

end Store.Issued

namespace Change

variable {c : Context} {w w' : World}

/-- No change makes two requests share an identifier. -/
lemma keyed (h : Change c w w') (hk : w.store.Keyed) : w'.store.Keyed := by
  cases h with
  | directory only =>
    rw [Store.Keyed, only.1]
    exact hk
  | workflowCreated => exact hk
  | workflowSwitched => exact hk
  | workflowRemoved => exact hk
  | requestStarted _ _ _ new =>
    rw [Store.Keyed, Requests.started, List.map_append, List.nodup_append]
    exact ⟨hk, List.nodup_singleton _, by simpa using new⟩
  | requestDecided => exact Requests.keyed_decided hk _
  | stepLate breached =>
    cases breached with
    | intro escalate => exact Sweep.keyed_breached hk _

/-- A change writes at most one audit entry, and takes none back. -/
lemma audit (h : Change c w w') :
    w'.store.audit = w.store.audit ∨ ∃ n, w'.store.audit = w.store.audit ++ [w.store.entry n] := by
  cases h with
  | directory only =>
    rw [only.1]
    exact .inl rfl
  | workflowCreated => exact .inr ⟨_, rfl⟩
  | workflowSwitched => exact .inr ⟨_, rfl⟩
  | workflowRemoved => exact .inr ⟨_, rfl⟩
  | requestStarted => exact .inr ⟨_, rfl⟩
  | requestDecided => exact .inr ⟨_, rfl⟩
  | stepLate breached =>
    cases breached with
    | intro => exact .inr ⟨_, rfl⟩

lemma numbered (h : Change c w w') (hn : w.store.Numbered) : w'.store.Numbered := by
  rcases h.audit with same | ⟨note, added⟩
  · rw [Store.Numbered, same]
    exact hn
  · exact hn.append added

/-- A change gives the next number to what it stores, and takes none back. -/
lemma issued (h : Change c w w') (hi : w.store.Issued) : w'.store.Issued := by
  cases h with
  | directory only =>
    rw [only.1]
    exact hi.of_same_requests rfl rfl rfl
  | @workflowCreated d createdBy wf _ made =>
    have id : wf.id = Supply.id .workflow (w.store.workflowsStored + 1) := by
      rw [made]
      rfl
    refine ⟨hi.requests, ?_, ?_⟩
    · intro x hx
      rcases List.mem_append.mp hx with old | last
      · obtain ⟨n, below, numbered⟩ := hi.workflows x old
        exact ⟨n, Nat.lt_succ_of_lt below, numbered⟩
      · rw [List.mem_singleton.mp last]
        exact ⟨w.store.workflowsStored, Nat.lt_succ_self _, id⟩
    · rw [Workflows.created, List.map_append, List.nodup_append]
      refine ⟨hi.distinct, List.nodup_singleton _, ?_⟩
      intro a old b last same
      obtain ⟨x, hx, rfl⟩ := List.mem_map.mp old
      obtain ⟨n, below, numbered⟩ := hi.workflows x hx
      have next : b = Supply.id .workflow (w.store.workflowsStored + 1) := (List.mem_singleton.mp last).trans id
      have := Supply.id_injective _ (numbered.symm.trans (same.trans next))
      omega
  | @workflowSwitched id isActive actor =>
    have same : (Workflows.switched id isActive actor c.now w).store.workflows.map (·.id) =
        w.store.workflows.map (·.id) := by
      simp only [Workflows.switched, List.map_map]
      apply List.map_congr_left
      intro wf _
      simp only [Function.comp_apply]
      split <;> rfl
    refine ⟨hi.requests, ?_, same ▸ hi.distinct⟩
    intro wf hwf
    obtain ⟨x, hx, rfl⟩ := List.mem_map.mp hwf
    obtain ⟨n, below, numbered⟩ := hi.workflows x hx
    refine ⟨n, below, ?_⟩
    split <;> exact numbered
  | @workflowRemoved id actor =>
    have kept : (Workflows.removed id actor c.now w).store.workflows.Sublist w.store.workflows :=
      List.filter_sublist
    exact ⟨hi.requests, fun wf hwf => hi.workflows wf (kept.subset hwf), hi.distinct.sublist (kept.map _)⟩
  | @requestStarted id wf requester payload r first _ _ made =>
    obtain ⟨-, -, -, -, rfl⟩ := Workflow.request_eq_ok_iff.mp made
    refine ⟨?_, hi.workflows, hi.distinct⟩
    intro n id found
    rw [Requests.started, List.map_append, List.getElem?_append] at found
    split at found
    · exact hi.requests n id found
    · obtain ⟨below, rfl⟩ := List.getElem?_eq_some_iff.mp found
      have last : n = w.store.requests.length := by
        rw [List.map_singleton, List.length_singleton, List.length_map] at below
        rw [List.length_map] at *
        omega
      simp [last, Store.nextRequestId]
  | requestDecided => exact hi.of_same_requests (Store.map_id_replaced _ _) rfl rfl
  | stepLate breached =>
    cases breached with
    | intro => exact hi.of_same_requests (Sweep.map_id_breached _) rfl rfl

end Change

/-- The effect of a call is made of changes. -/
lemma ServiceCall.Effect.changes {c : Context} {w w' : World} {call : ServiceCall}
    (h : call.Effect c w w') : ReflTransGen (Change c) w w' := by
  cases h with
  | nothing => exact .refl
  | directory only => exact .single (.directory only)
  | created accepted made new fresh => exact .single (.workflowCreated accepted made new fresh)
  | switched isActive actor known fresh => exact .single (.workflowSwitched isActive actor known fresh)
  | removed actor idle known fresh => exact .single (.workflowRemoved actor idle known fresh)
  | started found active made new fresh begins =>
    exact .single (.requestStarted found active made new fresh begins)
  | decided stored reads decides fresh => exact .single (.requestDecided stored reads decides fresh)
  | swept breached => exact ReflTransGen.mono (fun _ _ => Change.stepLate) _ _ breached

/-- Every call changes the world in the described ways only. -/
theorem ServiceCall.run_changes {c : Context} {w : World} (hk : w.store.Keyed) (call : ServiceCall) :
    ReflTransGen (Change c) w (call.run c w) :=
  (call.run_effect hk).changes

/-! ### Runs -/

section Runs

variable {w : World} {P : World → Prop}

/-- What holds of a world with distinct requests and survives every change survives a call. -/
lemma World.preserved_of_changes {c : Context} {w' : World} (hk : w.store.Keyed) (hw : P w)
    (step : ∀ u v, u.store.Keyed → P u → Change c u v → P v) (h : ReflTransGen (Change c) w w') :
    w'.store.Keyed ∧ P w' := by
  induction h with
  | refl => exact ⟨hk, hw⟩
  | tail _ change ih => exact ⟨change.keyed ih.1, step _ _ ih.1 ih.2 change⟩

/-- What holds at first and survives every change holds after every run. -/
theorem World.after_preserves (hk : w.store.Keyed) (hw : P w)
    (step : ∀ c u v, u.store.Keyed → P u → Change c u v → P v) (acts : List Act) :
    (w.after acts).store.Keyed ∧ P (w.after acts) := by
  induction acts generalizing w with
  | nil => exact ⟨hk, hw⟩
  | cons a acts ih =>
    obtain ⟨hk', hw'⟩ := preserved_of_changes hk hw (step a.context) (a.call.run_changes hk)
    exact ih hk' hw'

omit [Supply] in
lemma World.keyed_empty : ({} : World).store.Keyed := List.nodup_nil

/-- What holds of the empty world and survives every change holds in every world that can come about. -/
theorem World.after_empty (h : P {}) (step : ∀ c u v, u.store.Keyed → P u → Change c u v → P v)
    (acts : List Act) : P (World.after {} acts) :=
  (after_preserves keyed_empty h step acts).2

theorem World.keyed_after (acts : List Act) : (World.after {} acts).store.Keyed :=
  (after_preserves (P := fun _ => True) keyed_empty trivial (fun _ _ _ _ _ _ => trivial) acts).1

theorem World.numbered_after (acts : List Act) : (World.after {} acts).store.Numbered :=
  after_empty (P := (·.store.Numbered)) (by simp [Store.Numbered]) (fun _ _ _ _ hn h => h.numbered hn) acts

theorem World.issued_after (acts : List Act) : (World.after {} acts).store.Issued :=
  after_empty (P := (·.store.Issued)) ⟨by simp, by simp, List.nodup_nil⟩
    (fun _ _ _ _ hi h => h.issued hi) acts

end Runs

end Approval
