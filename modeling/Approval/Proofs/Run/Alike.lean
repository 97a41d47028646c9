import Approval.Proofs.Request.Alike
import Approval.Proofs.Run.Directory
import Approval.Proofs.Service.Tasks
import Mathlib.Data.List.Perm.Basic

/-!
# Worlds that differ by sweeps

Two worlds have the same directory, the same workflows, and requests that differ by escalation only. Every
operation but a sweep answers the same in both, and leaves worlds that differ in the same way; a sweep of one of
them does so as well. Only the order of tasks with the same deadline whose requests were created at the same time
may differ, since escalated requests are found before the others.
-/

namespace Approval

open Work Operation

/-! ### The directory -/

namespace Directory

variable {α β : Type}

/-- The operation looks at the directory only: in worlds that have the same it answers the same, and it leaves
worlds that have the same. -/
def Local (x : Operation α) : Prop :=
  ∀ c w v, w.store.SameDirectory v.store →
    AgreeAt (· = ·) (fun w v => w.store.SameDirectory v.store) c w v x x

namespace Local

variable {x : Operation α} {f : α → Operation β}

lemma of_inert (hx : x.Inert)
    (same : ∀ c w v, w.store.SameDirectory v.store → (x c w).1 = (x c v).1) : Local x :=
  fun c w v h => .of_inert hx hx h (.of_eq (same c w v h))

lemma pure (a : α) : Local (Pure.pure a) := of_inert (.pure a) fun _ _ _ _ => rfl

lemma fail (e : Failure) : Local (fail e : Operation α) := of_inert (.fail e) fun _ _ _ _ => rfl

lemma ofResult (r : Except Failure α) : Local (ofResult r) := of_inert (.ofResult r) fun _ _ _ _ => rfl

lemma now : Local now := of_inert .now fun _ _ _ _ => rfl

lemma context : Local context := of_inert .context fun _ _ _ _ => rfl

lemma bind (hx : Local x) (hf : ∀ a, Local (f a)) : Local (x >>= f) :=
  fun c w v h => (hx c w v h).bind fun a _ w' v' same h' => same ▸ hf a c w' v' h'

lemma mapM {g : α → Operation β} (hg : ∀ a, Local (g a)) (as : List α) : Local (as.mapM g) := by
  induction as with
  | nil => exact .pure _
  | cons a as ih =>
    rw [List.mapM_cons]
    exact (hg a).bind fun _ => ih.bind fun _ => .pure _

lemma ask {f : Store → α} (same : ∀ s t, s.SameDirectory t → f s = f t) : Local (ask f) :=
  of_inert (ask_inert f) fun _ _ _ h => congrArg Except.ok (same _ _ h)

lemma read {f : Store → Store.Access α} (same : ∀ s t, s.SameDirectory t → f s = f t) : Local (read f) :=
  of_inert (read_inert f) fun _ _ _ h => (read_agree (.of_eq (same _ _ h))).eq

lemma readOr {m : Missing} {f : Store → Store.Access (Option α)}
    (same : ∀ s t, s.SameDirectory t → f s = f t) : Local (readOr m f) :=
  of_inert (readOr_inert m f) fun _ _ _ h => answer_readOr_eq (same _ _ h)

lemma change {g : Store → Store.Access Store}
    (made : ∀ s t, s.SameDirectory t → Agree Store.SameDirectory (g s) (g t)) : Local (change g) :=
  fun _ _ _ h => write_agreeAt h (made _ _ h) fun _ _ same => same

end Local

lemma permissionNamed_local (name : String) : Local (permissionNamed name) :=
  .readOr fun s t h => by rw [Store.permissionNamed, Store.permissionNamed, h.permissions]

lemma roleNamed_local (name : String) : Local (roleNamed name) :=
  .readOr fun s t h => by rw [Store.roleNamed, Store.roleNamed, h.roles]

lemma userNamed_local (username : String) : Local (userNamed username) :=
  .readOr fun s t h => by rw [Store.userNamed, Store.userNamed, h.users]

lemma listPermissions_local : Local listPermissions :=
  .read fun s t h => by rw [Store.listPermissions, Store.listPermissions, h.permissions]

lemma listRoles_local : Local listRoles := .read fun s t h => by rw [Store.listRoles, Store.listRoles, h.roles]

lemma listUsers_local : Local listUsers := .read fun s t h => by rw [Store.listUsers, Store.listUsers, h.users]

lemma countUsers_local : Local countUsers := .ask fun s t h => by rw [h.users]

variable [Supply] in
lemma createPermission_local (d : PermissionDraft) : Local (createPermission d) := by
  refine .bind (.ofResult _) fun name => .bind .now fun createdAt => ?_
  refine .bind (.ask fun s t h => ?_) fun id => ?_
  · rw [Store.nextPermissionId, Store.nextPermissionId, h.permissions]
  refine .bind (.change fun s t h => ?_) fun _ => .pure _
  unfold Store.addPermission
  rw [h.permissions]
  split
  · exact .error _
  · exact .ok ⟨rfl, h.roles, h.users, h.credentials⟩

variable [Supply] in
lemma createRole_local (d : RoleDraft) : Local (createRole d) := by
  refine .bind (.ofResult _) fun name => .bind (.mapM permissionNamed_local _) fun permissions => ?_
  refine .bind .now fun createdAt => ?_
  refine .bind (.ask fun s t h => by rw [Store.nextRoleId, Store.nextRoleId, h.roles]) fun id => ?_
  refine .bind (.change fun s t h => ?_) fun _ => .pure _
  unfold Store.addRole
  rw [h.roles]
  split
  · exact .error _
  · exact .ok ⟨h.permissions, rfl, h.users, h.credentials⟩

variable [Supply] in
lemma createUser_local (d : UserDraft) : Local (createUser d) := by
  refine .bind (.ofResult _) fun username => .bind (.mapM roleNamed_local _) fun roles => ?_
  refine .bind .now fun createdAt => ?_
  refine .bind (.ask fun s t h => by rw [Store.nextUserId, Store.nextUserId, h.users]) fun id => ?_
  refine .bind (.change fun s t h => ?_) fun _ => .pure _
  unfold Store.addUser
  rw [h.users]
  split
  · exact .error _
  · exact .ok ⟨h.permissions, h.roles, rfl, h.credentials⟩

lemma grant_local (role permission : String) : Local (grant role permission) := by
  refine .bind (roleNamed_local role) fun r => .bind (permissionNamed_local permission) fun p => ?_
  refine .change fun s t h => .ok ⟨h.permissions, ?_, h.users, h.credentials⟩
  rw [Store.grant, Store.grant, h.roles]

lemma assign_local (username role : String) : Local (assign username role) := by
  refine .bind (userNamed_local username) fun u => .bind (roleNamed_local role) fun r => ?_
  refine .change fun s t h => .ok ⟨h.permissions, h.roles, ?_, h.credentials⟩
  rw [Store.assign, Store.assign, h.users]

lemma deactivate_local (username : String) : Local (deactivate username) := by
  refine .change fun s t h => .ok ⟨h.permissions, h.roles, ?_, h.credentials⟩
  rw [Store.deactivate, Store.deactivate, h.users]

lemma issueToken_local (username label : String) : Local (issueToken username label) := by
  refine .bind (userNamed_local username) fun u => .bind .context fun c => ?_
  refine .bind (.ask fun s t h => by rw [h.credentials]) fun token => ?_
  refine .bind (.change fun s t h => ?_) fun _ => .pure _
  unfold Store.addCredential
  rw [h.credentials]
  split
  · exact .error _
  · exact .ok ⟨h.permissions, h.roles, h.users, rfl⟩

lemma actorFor_local (u : User) : Local (actorFor u) := by
  unfold actorFor
  split
  · exact .fail _
  · refine .bind .context fun c => .bind (.ask fun s t h => ?_) fun permissionIds => ?_
    · rw [Store.permissionsOf, Store.permissionsOf, h.roles]
    · exact .bind listRoles_local fun roles => .pure _

lemma actorNamed_local (username : String) : Local (actorNamed username) :=
  .bind (userNamed_local username) actorFor_local

lemma authenticate_local (token : String) : Local (authenticate token) := by
  unfold authenticate
  dsimp only
  split
  · exact .fail _
  · refine .bind (.read fun s t h => ?_) fun owner => ?_
    · rw [Store.ownerOf, Store.ownerOf, h.users, h.credentials]
    · cases owner with
      | none => exact .fail _
      | some u => exact actorFor_local u

end Directory

/-! ### Worlds -/

/-- The event says that a step is late. -/
def Event.isLate : Event → Bool
  | .stepLate .. => true
  | _ => false

/-- What the audit log says but for late steps, entry after entry and each without its number; one about a
decision does not say which status the request had before. -/
def Store.callLog (s : Store) : List AuditNote :=
  (s.audit.filter (·.action ≠ .breachDetected)).map (·.toAuditNote.masked)

/-- The events but those about late steps. -/
def World.callEvents (w : World) : List Event := w.events.filter (!·.isLate)

variable [Supply] in
/-- No two requests have the same identifier, and the entries of the audit log are numbered in order. -/
def World.Sound (w : World) : Prop := w.store.Keyed ∧ w.store.Numbered

variable [Supply] in
lemma World.Sound.run {w : World} (h : w.Sound) (a : Act) : (a.run w).Sound :=
  World.preserved_of_changes (P := fun w => w.store.Numbered) h.1 h.2
    (fun _ _ _ hn change => change.numbered hn) (a.call.run_changes (c := a.context) h.1)

/-- The stores differ in what sweeps wrote and in requests by escalation. -/
structure Store.Alike (N : Json → Prop) (s t : Store) : Prop where
  same : t = { s with requests := t.requests, breaches := t.breaches, audit := t.audit }
  requests : List.Forall₂ (Request.Alike (StepRecord.Alike N)) s.requests t.requests
  callLog : s.callLog = t.callLog

/-- The worlds differ in what sweeps wrote and announced, and in requests by escalation. -/
structure World.Alike (N : Json → Prop) (w v : World) : Prop where
  store : w.store.Alike N v.store
  callEvents : w.callEvents = v.callEvents

namespace Store

variable {N : Json → Prop} {s t s' t' : Store}

lemma callLog_append {e : AuditEntry} (added : t.audit = s.audit ++ [e]) :
    t.callLog = s.callLog ++ if e.action = .breachDetected then [] else [e.toAuditNote.masked] := by
  unfold callLog
  rw [added, List.filter_append, List.map_append]
  by_cases breach : e.action = .breachDetected <;> simp [breach]

/-- Two entries about the same thing leave logs that say the same. -/
lemma callLog_append_eq {e f : AuditEntry} (h : s.callLog = t.callLog) (added : s'.audit = s.audit ++ [e])
    (added' : t'.audit = t.audit ++ [f]) (masked : e.toAuditNote.masked = f.toAuditNote.masked) :
    s'.callLog = t'.callLog := by
  have action : e.action = f.action := by
    rw [← e.toAuditNote.action_masked, masked, f.toAuditNote.action_masked]
  rw [callLog_append added, callLog_append added', h, action, masked]

lemma Alike.of_sameDirectory (directory : s.SameDirectory t) (workflows : t.workflows = s.workflows)
    (stored : t.workflowsStored = s.workflowsStored)
    (requests : List.Forall₂ (Request.Alike (StepRecord.Alike N)) s.requests t.requests)
    (callLog : s.callLog = t.callLog) : s.Alike N t := by
  refine ⟨?_, requests, callLog⟩
  obtain ⟨permissions, roles, users, credentials⟩ := directory
  cases t
  simp only at permissions roles users credentials workflows stored
  subst permissions roles users credentials workflows stored
  rfl

/-- The same rows in another order are read, or cannot be read, as well. -/
lemma readAll_perm {α : Type} {f : α → Option α} {as bs : List α} (same : as.Perm bs) :
    Agree List.Perm (readAll f as) (readAll f bs) := by
  by_cases reads : ∀ row ∈ as, ∃ a, f row = some a
  · rw [readAll_eq_filterMap reads, readAll_eq_filterMap fun row mem => reads row (same.mem_iff.mpr mem)]
    exact .ok (same.filterMap f)
  · push Not at reads
    obtain ⟨row, mem, unread⟩ := reads
    have none := Option.eq_none_iff_forall_ne_some.mpr unread
    rw [readAll_of_none mem none, readAll_of_none (same.mem_iff.mp mem) none]
    exact .error _

namespace Alike

lemma refl_empty : Alike N {} {} := ⟨rfl, .nil, rfl⟩

lemma symm (h : s.Alike N t) : t.Alike N s where
  same := by rw [h.same]
  requests := (h.requests.imp fun _ _ alike => alike.symm fun _ _ => StepRecord.Alike.symm).flip
  callLog := h.callLog.symm

lemma sameDirectory (h : s.Alike N t) : s.SameDirectory t := by
  rw [h.same]
  exact ⟨rfl, rfl, rfl, rfl⟩

lemma workflows (h : s.Alike N t) : t.workflows = s.workflows := by rw [h.same]

lemma workflowsStored (h : s.Alike N t) : t.workflowsStored = s.workflowsStored := by rw [h.same]

/-! ### Reading -/

lemma workflow?_eq (h : s.Alike N t) (id : WorkflowId) : s.workflow? id = t.workflow? id := by
  rw [workflow?, workflow?, h.workflows]

variable [Supply] in
lemma nextRequestId_eq (h : s.Alike N t) : s.nextRequestId = t.nextRequestId := by
  rw [nextRequestId, nextRequestId, h.requests.length_eq]

lemma openCount_eq (h : s.Alike N t) (id : WorkflowId) : s.openCount id = t.openCount id :=
  countP_eq_of_forall₂ h.requests fun r q alike => by rw [alike.workflowId_eq, alike.isOpen_eq]

/-- As many requests are over with a status. -/
lemma countStatus_eq (h : s.Alike N t) {status : Status} (terminal : status.isTerminal = true) :
    s.countStatus status = t.countStatus status := by
  refine countP_eq_of_forall₂ h.requests fun r q alike => ?_
  rw [decide_eq_decide]
  constructor
  · rintro rfl
    exact (Status.eq_of_calm_eq alike.status terminal).symm
  · rintro rfl
    exact (Status.eq_of_calm_eq alike.status.symm terminal).symm

lemma request? (h : s.Alike N t) (id : RequestId) :
    Agree (Option.Rel (Request.Alike (StepRecord.Alike N))) (s.request? id) (t.request? id) :=
  readOption_agree (optionRel_find? h.requests fun _ _ alike => by rw [alike.id_eq])
    fun _ _ alike => alike.readBack?

/-- The rows of open requests differ by escalation and, as escalated ones are found first, in their order. -/
lemma openRows (h : s.Alike N t) :
    ∃ rows, s.openRows.Perm rows ∧ List.Forall₂ (Request.Alike (StepRecord.Alike N)) rows t.openRows := by
  have isOpen (r : Request) : (r.status = .inProgress ∨ r.status = .escalated) ↔ r.status.calm = .inProgress :=
    Status.calm_eq_inProgress_iff.symm
  have filtered : List.Forall₂ (Request.Alike (StepRecord.Alike N))
      (s.requests.filter fun r => r.status = .inProgress ∨ r.status = .escalated)
      (t.requests.filter fun r => r.status = .inProgress ∨ r.status = .escalated) :=
    forall₂_filter h.requests fun r q alike => by rw [decide_eq_decide, isOpen, isOpen, alike.status]
  obtain ⟨rows, related, rearranged⟩ := List.perm_comp_forall₂ (openRows_perm t) filtered.flip
  exact ⟨rows, (openRows_perm s).trans rearranged.symm, related.flip⟩

/-- The open requests are read in both stores or in neither, and differ as their rows do. -/
lemma listOpen (h : s.Alike N t) :
    Agree (fun rs qs => (∃ ps, rs.Perm ps ∧ List.Forall₂ (Request.Alike (StepRecord.Alike N)) ps qs) ∧
      rs = s.openRequests ∧ qs = t.openRequests) s.listOpen t.listOpen := by
  obtain ⟨rows, rearranged, related⟩ := h.openRows
  refine Agree.keep ?_ (fun _ => eq_openRequests) (fun _ => eq_openRequests)
  exact (readAll_perm rearranged).comp (readAll_agree related fun _ _ alike => alike.readBack?)

/-! ### Writing -/

variable [Supply] in
/-- Stores with the next entry each differ as before, if the entries say the same. -/
lemma append {n m : AuditNote} (h : s.Alike N t) (hs : s'.Numbered) (ht : t'.Numbered)
    (same_s : s.audit = s'.audit) (same_t : t.audit = t'.audit) (masked : n.masked = m.masked) :
    Agree (Store.Alike N) (s.append (s'.entry n)) (t.append (t'.entry m)) := by
  have left : s.append (s'.entry n) = .ok { s with audit := s.audit ++ [s'.entry n] } :=
    append_eq_ok_iff.mpr ⟨same_s ▸ hs.fresh, rfl⟩
  have right : t.append (t'.entry m) = .ok { t with audit := t.audit ++ [t'.entry m] } :=
    append_eq_ok_iff.mpr ⟨same_t ▸ ht.fresh, rfl⟩
  rw [left, right]
  refine .ok ⟨?_, h.requests, callLog_append_eq h.callLog rfl rfl masked⟩
  rw [h.same]

section Numbered

variable [Supply] (h : s.Alike N t) (hs : s.Numbered) (ht : t.Numbered)
include h hs ht

lemma addWorkflow (wf : Workflow) (n : AuditNote) :
    Agree (Store.Alike N) (s.addWorkflow wf (s.entry n)) (t.addWorkflow wf (t.entry n)) := by
  unfold Store.addWorkflow
  rw [h.workflows, h.workflowsStored]
  split
  · exact .error _
  · refine append ⟨?_, h.requests, h.callLog⟩ hs ht rfl rfl rfl
    rw [h.same]

lemma setActive (id : WorkflowId) (isActive : Bool) (n : AuditNote) :
    Agree (Store.Alike N) (s.setActive id isActive (s.entry n)) (t.setActive id isActive (t.entry n)) := by
  unfold Store.setActive
  rw [h.workflows]
  split
  · refine append ⟨?_, h.requests, h.callLog⟩ hs ht rfl rfl rfl
    rw [h.same]
  · exact .error _

lemma removeWorkflow (id : WorkflowId) (n : AuditNote) :
    Agree (Store.Alike N) (s.removeWorkflow id (s.entry n)) (t.removeWorkflow id (t.entry n)) := by
  unfold Store.removeWorkflow
  rw [h.openCount_eq, h.workflows]
  dsimp only
  split
  · exact .error _
  · split
    · refine append ⟨?_, h.requests, h.callLog⟩ hs ht rfl rfl rfl
      rw [h.same]
    · exact .error _

lemma addRequest {r : Request} (alike : r.Alike (StepRecord.Alike N) r) (n : AuditNote) :
    Agree (Store.Alike N) (s.addRequest r (s.entry n)) (t.addRequest r (t.entry n)) := by
  have known : s.requests.any (·.id = r.id) = t.requests.any (·.id = r.id) :=
    any_eq_of_forall₂ h.requests fun _ _ alike => by rw [alike.id_eq]
  unfold Store.addRequest
  rw [h.workflows, known]
  split
  · exact .error _
  · split
    · exact .error _
    · split
      · exact .error _
      · refine append ⟨?_, List.rel_append h.requests (.cons alike .nil), h.callLog⟩ hs ht rfl rfl rfl
        rw [h.same]

end Numbered

/-- The requests that decisions of the same kind were made on differ as before. -/
lemma replaced {E : StepRecord → StepRecord → Prop} {r q : Request}
    (h : List.Forall₂ (Request.Alike E) s.requests t.requests) (alike : r.Alike E q) :
    List.Forall₂ (Request.Alike E) (s.replaced r) (t.replaced q) := by
  refine forall₂_map h fun row row' rows => ?_
  rw [rows.id_eq, alike.id_eq]
  split
  · exact rows.updateRow alike
  · exact rows

end Alike

end Store

lemma World.callEvents_append {w w' : World} {e : Event} (added : w'.events = w.events ++ [e]) :
    w'.callEvents = w.callEvents ++ if e.isLate then [] else [e] := by
  unfold callEvents
  rw [added, List.filter_append]
  cases late : e.isLate <;> simp [late]

/-- Worlds that announced the same do so after the same event. -/
lemma World.callEvents_append_eq {w v w' v' : World} {e : Event} (h : w.callEvents = v.callEvents)
    (added : w'.events = w.events ++ [e]) (added' : v'.events = v.events ++ [e]) :
    w'.callEvents = v'.callEvents := by
  rw [callEvents_append added, callEvents_append added', h]

namespace World.Alike

variable {N : Json → Prop} {c : Context} {w v : World} {α : Type}

lemma refl_empty : World.Alike N {} {} := ⟨.refl_empty, rfl⟩

lemma symm (h : w.Alike N v) : v.Alike N w := ⟨h.store.symm, h.callEvents.symm⟩

/-! ### Operations -/

/-- What looks at the directory and writes to it does so in the same way. -/
lemma agreeAt_of_local (h : w.Alike N v) {x : Operation α} (hl : Directory.Local x)
    (hw : x.Within Directory.Only) : AgreeAt (· = ·) (World.Alike N) c w v x x := by
  obtain ⟨answer, directory⟩ := hl c w v h.store.sameDirectory
  refine ⟨answer, ?_⟩
  obtain ⟨left, left_events⟩ := hw c w
  obtain ⟨right, right_events⟩ := hw c v
  generalize (x c w).2 = w', (x c v).2 = v' at *
  refine ⟨.of_sameDirectory directory ?_ ?_ ?_ ?_, ?_⟩
  · exact (congrArg Store.workflows right).trans (h.store.workflows.trans (congrArg Store.workflows left).symm)
  · exact (congrArg Store.workflowsStored right).trans
      (h.store.workflowsStored.trans (congrArg Store.workflowsStored left).symm)
  · rw [left, right]
    exact h.store.requests
  · rw [left, right]
    exact h.store.callLog
  · rw [World.callEvents, World.callEvents, left_events, right_events]
    exact h.callEvents

/-- What publishes the same events leaves worlds that differ as before. -/
lemma publish (h : w.Alike N v) (e : Event) :
    AgreeAt (· = ·) (World.Alike N) c w v (publish e) (Operation.publish e) := by
  exact ⟨.ok rfl, h.store, callEvents_append_eq h.callEvents rfl rfl⟩

section Numbered

variable [Supply] (h : w.Alike N v) (hw : w.store.Numbered) (hv : v.store.Numbered)
include h hw hv

lemma create (d : Draft) (createdBy : Option UserId) :
    AgreeAt (· = ·) (World.Alike N) c w v (Workflows.create d createdBy) (Workflows.create d createdBy) := by
  have next : w.store.nextWorkflowId = v.store.nextWorkflowId := by
    rw [Store.nextWorkflowId, Store.nextWorkflowId, h.store.workflowsStored]
  refine .of_same_bind (.ofResult _) h rfl fun _ => .of_same_bind .now h rfl fun now => ?_
  refine .of_same_bind (ask_inert _) h (congrArg Except.ok next) fun id => ?_
  refine .bind_same (write_agreeAt h (h.store.addWorkflow hw hv _ _) fun _ _ alike => ⟨alike, h.callEvents⟩) ?_
  exact fun _ w' v' alike => .pure alike rfl

lemma setActive (id : WorkflowId) (isActive : Bool) (actor : Option UserId) :
    AgreeAt (· = ·) (World.Alike N) c w v (Workflows.setActive id isActive actor)
      (Workflows.setActive id isActive actor) := by
  refine .of_same_bind .now h rfl fun now => ?_
  refine .bind_same (write_agreeAt h (h.store.setActive hw hv _ _ _) fun _ _ alike => ⟨alike, h.callEvents⟩) ?_
  intro _ w' v' alike
  exact .of_inert (readOr_inert _ _) (readOr_inert _ _) alike
    (.of_eq (answer_readOr_eq (alike.store.workflow?_eq id)))

lemma remove (id : WorkflowId) (actor : Option UserId) :
    AgreeAt (· = ·) (World.Alike N) c w v (Workflows.remove id actor) (Workflows.remove id actor) := by
  refine .of_same_bind .now h rfl fun now => ?_
  exact write_agreeAt h (h.store.removeWorkflow hw hv _ _) fun _ _ alike => ⟨alike, h.callEvents⟩

lemma start (id : WorkflowId) (requester : UserId) (payload : Json) :
    AgreeAt (· = ·) (World.Alike N) c w v (Requests.start id requester payload)
      (Requests.start id requester payload) := by
  have known : AgreeAt (· = ·) (World.Alike N) c w v (Requests.workflowFor id) (Requests.workflowFor id) := by
    refine .of_same_bind (readOr_inert _ _) h (answer_readOr_eq (h.store.workflow?_eq id)) fun wf => ?_
    split
    · exact .pure h rfl
    · exact .fail h _
  refine .of_same_bind (Requests.workflowFor_inert id) h known.answer.eq fun wf => ?_
  refine .of_same_bind .now h rfl fun now => ?_
  refine .of_same_bind (ask_inert _) h (congrArg Except.ok h.store.nextRequestId_eq) fun id => ?_
  refine .of_inert_bind (.ofResult _) (.ofResult _) h (Agree.self fun r => Workflow.request_eq_ok_iff.mp) ?_
  rintro r _ ⟨rfl, first, deadline, begins, -, made⟩
  have alike : r.Alike (StepRecord.Alike N) r := by
    refine ⟨rfl, rfl, ?_, rfl⟩
    rw [made]
    exact .cons (.refl rfl fun v named => absurd named (by simp [Step.waiting])) .nil
  have found : r.plan.step? 1 = some first := made ▸ begins
  refine .bind_same (write_agreeAt h (h.store.addRequest hw hv alike _) fun _ _ same => ⟨same, h.callEvents⟩) ?_
  intro _ w' v' alike
  simp only [found]
  exact .bind_same (alike.publish _) fun _ w' v' alike => .pure alike rfl

end Numbered

end World.Alike

/-! ### Decisions -/

namespace World.Alike

variable {N : Json → Prop} {c : Context} {w v : World}

variable [Supply] in
lemma decided (h : w.Alike N v) {x y : Decided} (alike : x.Alike (StepRecord.Alike N) y) :
    (Requests.decided x w).Alike N (Requests.decided y v) := by
  refine ⟨⟨?_, Store.Alike.replaced h.store.requests alike.request, ?_⟩, ?_⟩
  · rw [Requests.decided, Requests.decided, h.store.same]
  · exact Store.callLog_append_eq h.store.callLog rfl rfl alike.note
  · exact callEvents_append_eq h.callEvents rfl (by rw [alike.event]; rfl)

variable [Supply] in
/-- A request is decided in the same way, as far as the relation of its steps says. -/
lemma process {E : StepRecord → StepRecord → Prop} (h : w.Alike N v) (hw : w.Sound) (hv : v.Sound)
    {id : RequestId} {actor : Actor} {d : Decision}
    (unversioned : d.expectedVersion = none) (le : ∀ s t, StepRecord.Alike N s t → E s t)
    (blind : StepRecord.Blind E d.context) {R : World → World → Prop} (same : R w v)
    (made : ∀ x y, x.Alike E y → R (Requests.decided x w) (Requests.decided y v)) :
    AgreeAt (Request.Alike E) R c w v (Requests.process id actor d) (Requests.process id actor d) := by
  refine .congr ?_ (Requests.process_eq hw.1 hw.2.fresh) (Requests.process_eq hv.1 hv.2.fresh)
  refine .of_inert_bind (readOr_inert _ _) (readOr_inert _ _) same (readOr_agree (h.store.request? id)) ?_
  intro r q alike
  refine .of_inert_bind (.ofResult _) (.ofResult _) same ((alike.mono le).decide blind unversioned) ?_
  exact fun x y alike => ⟨.ok alike.request, made x y alike⟩

/-! ### Tasks and counts -/

/-- Requests that differ by escalation are the same task. -/
lemma ofRequest_eq {r q : Request} (alike : r.Alike (StepRecord.Alike N) q) (actor : Actor) (now : Instant) :
    Tasks.ofRequest actor now r = Tasks.ofRequest actor now q := by
  have current := alike.current? fun _ _ h => h.bare_eq
  unfold Tasks.ofRequest
  rw [alike.id_eq, alike.workflowName_eq, alike.plan_eq, alike.payload_eq, alike.createdAt_eq]
  generalize r.current? = x, q.current? = y at current
  cases current with
  | none => rfl
  | @some s t steps =>
    have same {β : Type} (f : StepRecord → β) (blind : ∀ s, f s.bare = f s) : f s = f t :=
      StepRecord.congr_bare steps.bare_eq f blind
    simp only [Option.bind_eq_bind, Option.bind_some, same (·.order) fun _ => rfl, same (·.name) fun _ => rfl,
      same (·.deadline) fun _ => rfl, same (·.isLate now) fun _ => rfl]

/-- An actor has the same tasks, in the same order but for ties. -/
lemma tasks (h : w.Alike N v) (actor : Actor) :
    Agree Tasks.SameButTies (Tasks.of actor c w).1 (Tasks.of actor c v).1 := by
  suffices same : AgreeAt Tasks.SameButTies (World.Alike N) c w v (Tasks.of actor) (Tasks.of actor) from same.answer
  refine .of_same_bind .now h rfl fun now => ?_
  refine .of_inert_bind (read_inert _) (read_inert _) h (read_agree h.store.listOpen) ?_
  rintro rs qs ⟨⟨ps, rearranged, alike⟩, rfl, rfl⟩
  have members := rearranged.filterMap (Tasks.ofRequest actor now)
  rw [filterMap_eq_of_forall₂ alike fun r q requests => ofRequest_eq requests actor now] at members
  have stamps (s : Store) : (s.openRequests.filterMap (Tasks.ofRequest actor now)).Pairwise
      fun a b => a.createdAt.rowStamp ≤ b.createdAt.rowStamp :=
    Tasks.pairwise_createdAt (R := fun a b => a.rowStamp ≤ b.rowStamp) (Store.pairwise_rowStamp_openRequests s)
  exact .pure h (Tasks.sameButTies_mergeSort members (stamps _) (stamps _))

/-- As many requests are in progress, whether late or not. -/
lemma countStatus_open (s : Store) :
    s.countStatus .inProgress + s.countStatus .escalated = s.requests.countP (·.status.calm = .inProgress) := by
  unfold Store.countStatus
  induction s.requests with
  | nil => rfl
  | cons r rest ih =>
    rw [List.countP_cons, List.countP_cons, List.countP_cons, ← ih]
    cases r.status <;> simp [Status.calm] <;> omega

/-- The counts are the same but for how many requests are marked as escalated. -/
lemma dashboard (h : w.Alike N v) :
    Agree (fun a b => b = { a with escalated := b.escalated }) (Tasks.dashboard c w).1
      (Tasks.dashboard c v).1 := by
  suffices same : AgreeAt (fun a b => b = { a with escalated := b.escalated }) (World.Alike N) c w v
      Tasks.dashboard Tasks.dashboard from same.answer
  refine .of_same_bind .now h rfl fun now => ?_
  refine .of_inert_bind (S := fun f g => f .inProgress + f .escalated = g .inProgress + g .escalated ∧
    f .completed = g .completed ∧ f .rejected = g .rejected) (ask_inert _) (ask_inert _) h ?_ ?_
  · refine .ok ⟨?_, h.store.countStatus_eq rfl, h.store.countStatus_eq rfl⟩
    rw [countStatus_open, countStatus_open]
    exact countP_eq_of_forall₂ h.store.requests fun _ _ alike => by rw [alike.status]
  · rintro f g ⟨active, completed, rejected⟩
    refine .of_inert_bind (read_inert _) (read_inert _) h (read_agree h.store.listOpen) ?_
    rintro rs qs ⟨⟨ps, rearranged, alike⟩, -⟩
    have pending : List.Forall₂ (StepRecord.Alike N) (ps.flatMap fun r => r.steps.filter (·.isPending))
        (qs.flatMap fun r => r.steps.filter (·.isPending)) :=
      List.rel_flatMap alike fun r q alike => forall₂_filter alike.steps fun _ _ steps =>
        StepRecord.congr_bare steps.bare_eq _ fun _ => rfl
    have overdue := countP_eq_of_forall₂ (p := (·.isLate now)) (q := (·.isLate now)) pending fun _ _ steps =>
      StepRecord.congr_bare steps.bare_eq _ fun _ => rfl
    -- Counting does not depend on the order in which the requests are listed.
    have members := rearranged.flatMap_right fun r => r.steps.filter (·.isPending)
    refine .pure h ?_
    simp only [active, completed, rejected, overdue, members.countP_eq, members.length_eq, pending.length_eq]

/-! ### Sweeps -/

variable [Supply]

/-- A late step that is recorded in one of the worlds makes no difference. -/
lemma of_breachedBy {escalate : Bool} {w' : World} (h : w.Alike N v) (hk : w.store.Keyed)
    (plain : escalate = true → c.now.hasPlainYear = true) (step : Sweep.BreachedBy escalate c w w') :
    w'.Alike N v := by
  cases step with
  | @intro f row stored reads isOpen late recordable =>
    refine ⟨⟨?_, ?_, ?_⟩, ?_⟩
    · rw [Sweep.breached, h.store.same]
    · cases marks : Sweep.escalated escalate c.now f.request with
      | none =>
        rw [Sweep.breached, marks]
        exact h.store.requests
      | some marked =>
        obtain ⟨on, -, changed⟩ := Sweep.escalated_eq_some.mp marks
        rw [Sweep.breached, marks]
        refine List.forall₂_map_left_iff.mpr (forall₂_imp_mem h.store.requests fun x mem q alike => ?_)
        split
        · rename_i same
          obtain rfl := hk.eq_of_id mem stored (same.trans (by rw [changed, Request.id_of_readBack? reads]))
          exact alike.updateRow_escalated reads marks (plain on)
        · exact alike
    · rw [← h.store.callLog]
      exact (Store.callLog_append rfl).trans (List.append_nil _)
    · rw [← h.callEvents]
      exact (World.callEvents_append rfl).trans (List.append_nil _)

/-- A sweep of one of the worlds makes no difference. -/
lemma sweep_left (h : w.Alike N v) (hk : w.store.Keyed)
    (plain : c.settings.sweep.escalate = true → c.now.hasPlainYear = true) : (Sweep.once c w).2.Alike N v := by
  have steps := Sweep.once_by (c := c) hk
  generalize (Sweep.once c w).2 = w' at steps
  have kept : w'.store.Keyed ∧ w'.Alike N v := by
    induction steps with
    | refl => exact ⟨hk, h⟩
    | tail _ last ih => exact ⟨(Change.stepLate last.breached).keyed ih.1, ih.2.of_breachedBy ih.1 plain last⟩
  exact kept.2

end World.Alike

end Approval
