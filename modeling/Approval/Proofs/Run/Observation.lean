import Approval.Proofs.Run.Alike
import Approval.Proofs.Run.Growth
import Approval.Proofs.Run.Rows

/-!
# Sweeps are not observed

Sweeps that are put into a run, or left out of it, make no difference to anybody else: every other operation
answers the same, every request goes the same way, and the audit log and the events say the same about it.
What differs is what sweeps write: marks that requests are late, versions, times of the last change, and
breaches with their entries and events. A sweep that escalates also stores the steps of a request again as it
read them, and not every number in a note is read as it was written.
-/

namespace Approval

open Work Operation

/-! ### Runs with sweeps and without -/

def ServiceCall.isSweep : ServiceCall → Bool
  | .sweep => true
  | _ => false

/-- The acts that are no sweeps. -/
def Act.unswept (acts : List Act) : List Act := acts.filter (!·.call.isSweep)

/-- A decision is made on whatever version is stored. -/
def ServiceCall.Unversioned (call : ServiceCall) : Prop :=
  ∀ id actor d, call = .process id actor d → d.expectedVersion = none

/-- A sweep that escalates is made in a year of four digits. -/
def Act.Timely (a : Act) : Prop :=
  a.call = .sweep → a.context.settings.sweep.escalate = true → a.context.now.hasPlainYear = true

/-! ### What is observed -/

/-- The work answers the same in both worlds. -/
def Work.SameAnswer {ε α : Type} (x : Work ε α) (w v : World) : Prop := ∀ c, (x c w).1 = (x c v).1

section Supplied

variable [Supply]

/-- All operations on the directory answer the same. -/
structure Directory.Agrees (w v : World) : Prop where
  createPermission : ∀ d, (createPermission d).SameAnswer w v
  createRole : ∀ d, (createRole d).SameAnswer w v
  createUser : ∀ d, (createUser d).SameAnswer w v
  grant : ∀ role permission, (grant role permission).SameAnswer w v
  assign : ∀ username role, (assign username role).SameAnswer w v
  deactivate : ∀ username, (deactivate username).SameAnswer w v
  issueToken : ∀ username label, (issueToken username label).SameAnswer w v
  permissionNamed : ∀ name, (permissionNamed name).SameAnswer w v
  roleNamed : ∀ name, (roleNamed name).SameAnswer w v
  userNamed : ∀ username, (userNamed username).SameAnswer w v
  listPermissions : listPermissions.SameAnswer w v
  listRoles : listRoles.SameAnswer w v
  listUsers : listUsers.SameAnswer w v
  countUsers : countUsers.SameAnswer w v
  actorNamed : ∀ username, (actorNamed username).SameAnswer w v
  authenticate : ∀ token, (authenticate token).SameAnswer w v

/-- All operations on workflows answer the same. -/
structure Workflows.Agrees (w v : World) : Prop where
  create : ∀ d createdBy, (create d createdBy).SameAnswer w v
  setActive : ∀ id isActive actor, (setActive id isActive actor).SameAnswer w v
  remove : ∀ id actor, (remove id actor).SameAnswer w v
  get : ∀ id, (get id).SameAnswer w v
  list : list.SameAnswer w v
  count : count.SameAnswer w v

/-- Whoever does not ask about sweeps observes the same in both worlds, but for what `E` allows in steps. -/
structure World.Agrees (E : StepRecord → StepRecord → Prop) (w v : World) : Prop where
  directory : Directory.Agrees w v
  workflows : Workflows.Agrees w v
  start : ∀ id requester payload, (Requests.start id requester payload).SameAnswer w v
  process : ∀ id actor d c, d.expectedVersion = none →
    Agree (Request.Alike E) (Requests.process id actor d c w).1 (Requests.process id actor d c v).1
  get : ∀ id c, Agree (Request.Alike E) (Requests.get id c w).1 (Requests.get id c v).1
  tasks : ∀ actor c, Agree Tasks.SameButTies (Tasks.of actor c w).1 (Tasks.of actor c v).1
  dashboard : ∀ c, Agree (fun a b => b = { a with escalated := b.escalated }) (Tasks.dashboard c w).1
    (Tasks.dashboard c v).1
  requests : List.Forall₂ (Request.Alike E) w.store.requests v.store.requests
  callLog : w.store.callLog = v.store.callLog
  callEvents : w.callEvents = v.callEvents

variable {N : Json → Prop} {w v : World}

/-- Worlds that differ by sweeps are observed to be the same. -/
theorem World.Alike.agrees {E : StepRecord → StepRecord → Prop} (h : w.Alike N v) (hw : w.Sound) (hv : v.Sound)
    (le : ∀ s t, StepRecord.Alike N s t → E s t) (blind : ∀ context, StepRecord.Blind E context) :
    w.Agrees E v where
  directory :=
    have same {α : Type} {x : Operation α} (hx : Directory.Local x) : x.SameAnswer w v :=
      fun c => (hx c w v h.store.sameDirectory).answer.eq
    { createPermission := fun d => same (Directory.createPermission_local d)
      createRole := fun d => same (Directory.createRole_local d)
      createUser := fun d => same (Directory.createUser_local d)
      grant := fun role permission => same (Directory.grant_local role permission)
      assign := fun username role => same (Directory.assign_local username role)
      deactivate := fun username => same (Directory.deactivate_local username)
      issueToken := fun username label => same (Directory.issueToken_local username label)
      permissionNamed := fun name => same (Directory.permissionNamed_local name)
      roleNamed := fun name => same (Directory.roleNamed_local name)
      userNamed := fun username => same (Directory.userNamed_local username)
      listPermissions := same Directory.listPermissions_local
      listRoles := same Directory.listRoles_local
      listUsers := same Directory.listUsers_local
      countUsers := same Directory.countUsers_local
      actorNamed := fun username => same (Directory.actorNamed_local username)
      authenticate := fun token => same (Directory.authenticate_local token) }
  workflows :=
    { create := fun d createdBy _ => (h.create hw.2 hv.2 d createdBy).answer.eq
      setActive := fun id isActive actor _ => (h.setActive hw.2 hv.2 id isActive actor).answer.eq
      remove := fun id actor _ => (h.remove hw.2 hv.2 id actor).answer.eq
      get := fun id _ => answer_readOr_eq (h.store.workflow?_eq id)
      list := fun _ => by
        refine (read_agree (.of_eq ?_)).eq
        rw [Store.listWorkflows, Store.listWorkflows, h.store.workflows]
      count := fun _ => by rw [Workflows.count, ask_run, ask_run, h.store.workflows] }
  start id requester payload _ := (h.start hw.2 hv.2 id requester payload).answer.eq
  process id actor d c unversioned :=
    (h.process hw hv unversioned le (blind d.context) (R := fun _ _ => True) trivial
      fun _ _ _ => trivial).answer
  get id c := (readOr_agree (h.store.request? id)).mono fun _ _ alike => alike.mono le
  tasks actor _ := h.tasks actor
  dashboard _ := h.dashboard
  requests := h.store.requests.imp fun _ _ alike => alike.mono le
  callLog := h.store.callLog
  callEvents := h.callEvents

/-! ### Runs -/

namespace World.Alike

/-- A call that is no sweep, made in both worlds, leaves worlds that differ as before. -/
lemma run (h : w.Alike N v) (hw : w.Sound) (hv : v.Sound) {a : Act} (made : a.call.isSweep = false)
    (unversioned : a.call.Unversioned) (noted : ∀ v, a.call.context? = some v → N v) :
    (a.run w).Alike N (a.run v) := by
  rcases a with ⟨c, call⟩
  have directory {α : Type} {x : Operation α} (hl : Directory.Local x) (hx : Directory.Writes x) :
      (x c w).2.Alike N (x c v).2 := (h.agreeAt_of_local hl hx.within).world
  cases call with
  | createPermission d => exact directory (Directory.createPermission_local d) (Directory.createPermission_writes d)
  | createRole d => exact directory (Directory.createRole_local d) (Directory.createRole_writes d)
  | createUser d => exact directory (Directory.createUser_local d) (Directory.createUser_writes d)
  | grant role permission => exact directory (Directory.grant_local _ _) (Directory.grant_writes role permission)
  | assign username role => exact directory (Directory.assign_local _ _) (Directory.assign_writes username role)
  | deactivate username => exact directory (Directory.deactivate_local _) (Directory.deactivate_writes username)
  | issueToken username label =>
    exact directory (Directory.issueToken_local _ _) (Directory.issueToken_writes username label)
  | createWorkflow d createdBy => exact (h.create hw.2 hv.2 d createdBy).world
  | switchWorkflow id isActive actor => exact (h.setActive hw.2 hv.2 id isActive actor).world
  | removeWorkflow id actor => exact (h.remove hw.2 hv.2 id actor).world
  | start id requester payload => exact (h.start hw.2 hv.2 id requester payload).world
  | process id actor d =>
    exact (h.process hw hv (unversioned id actor d rfl) (fun _ _ kept => kept) (StepRecord.blind_alike noted) h
      fun _ _ => h.decided).world
  | sweep => exact Bool.noConfusion made

lemma run_sweep (h : w.Alike N v) (hw : w.Sound) {a : Act} (sweeps : a.call.isSweep = true)
    (timely : a.Timely) : (a.run w).Alike N v := by
  rcases a with ⟨c, call⟩
  cases call with
  | sweep => exact h.sweep_left hw.1 (timely rfl)
  | _ => exact Bool.noConfusion sweeps

/-- Sweeps of one of the worlds make no difference. -/
lemma after_sweeps (h : w.Alike N v) (hw : w.Sound) {acts : List Act}
    (sweeps : ∀ a ∈ acts, a.call.isSweep = true) (timely : ∀ a ∈ acts, a.Timely) : (w.after acts).Alike N v ∧ (w.after acts).Sound := by
  induction acts generalizing w with
  | nil => exact ⟨h, hw⟩
  | cons a acts ih =>
    obtain ⟨sweep, sweeps⟩ := List.forall_mem_cons.mp sweeps
    obtain ⟨timely_a, timely⟩ := List.forall_mem_cons.mp timely
    exact ih (h.run_sweep hw sweep timely_a) (hw.run a) sweeps timely

/-- Two runs with the same calls but sweeps leave worlds that differ as before. -/
theorem after (h : w.Alike N v) (hw : w.Sound) (hv : v.Sound) {acts swept : List Act}
    (same : Act.unswept acts = Act.unswept swept) (unversioned : ∀ a ∈ acts, a.call.Unversioned)
    (noted : ∀ a ∈ acts, ∀ v, a.call.context? = some v → N v) (timely : ∀ a ∈ acts, a.Timely)
    (timely' : ∀ a ∈ swept, a.Timely) : (w.after acts).Alike N (v.after swept) := by
  induction acts generalizing w v swept with
  | nil =>
    have sweeps : ∀ a ∈ swept, a.call.isSweep = true := by
      simpa [Act.unswept, eq_comm (a := [])] using same
    exact (h.symm.after_sweeps hv sweeps timely').1.symm
  | cons a acts ih =>
    obtain ⟨unversioned_a, unversioned⟩ := List.forall_mem_cons.mp unversioned
    obtain ⟨noted_a, noted⟩ := List.forall_mem_cons.mp noted
    obtain ⟨timely_a, timely⟩ := List.forall_mem_cons.mp timely
    cases sweep : a.call.isSweep with
    | true =>
      have rest : Act.unswept acts = Act.unswept swept := by simpa [Act.unswept, sweep] using same
      exact ih (h.run_sweep hw sweep timely_a) (hw.run a) hv rest unversioned noted timely timely'
    | false =>
      -- The other run makes sweeps up to the same call, which finds worlds that differ by sweeps.
      have next : Act.unswept swept = a :: Act.unswept acts := by simpa [Act.unswept, sweep] using same.symm
      obtain ⟨before, after, rfl, sweeps, -, rest⟩ := List.filter_eq_cons_iff.mp next
      have timely_before : ∀ b ∈ before, b.Timely := fun b mem => timely' b (List.mem_append_left _ mem)
      have timely_after : ∀ b ∈ after, b.Timely :=
        fun b mem => timely' b (List.mem_append_right _ (List.mem_cons_of_mem a mem))
      obtain ⟨alike, sound⟩ := h.symm.after_sweeps hv (by simpa using sweeps) timely_before
      rw [World.after_append]
      exact ih (alike.symm.run hw sound sweep unversioned_a noted_a) (hw.run a) (sound.run a) rest.symm
        unversioned noted timely timely_after

end World.Alike

/-- A run with sweeps is observed as the run without them, at the end and so at every point of it: whatever is
asked next, but for sweeps and decisions on a named version, is answered the same, up to versions, times of
the last change and marks that a request is late. Notes of steps are the same if the numbers that were handed
in are what their texts read as. Tasks are listed in the same order but for those with the same deadline whose
requests were created at the same time. Sweeps that escalate are to be made in years of four digits: a request
that is marked in another year is not read any more. -/
theorem World.agrees_after {acts swept : List Act} (same : Act.unswept acts = Act.unswept swept)
    (unversioned : ∀ a ∈ acts, a.call.Unversioned) (timely : ∀ a ∈ acts ++ swept, a.Timely) :
    (World.after {} acts).Agrees (fun s t => s.bare = t.bare) (World.after {} swept) ∧
      ((∀ a ∈ acts, ∀ v, a.call.context? = some v → v.Verbatim) →
        (World.after {} acts).Agrees (fun s t => s.tidy = t.tidy) (World.after {} swept)) := by
  obtain ⟨timely, timely'⟩ := List.forall_mem_append.mp timely
  have sound (run : List Act) : (World.after {} run).Sound := ⟨World.keyed_after run, World.numbered_after run⟩
  have alike {N : Json → Prop} (noted : ∀ a ∈ acts, ∀ v, a.call.context? = some v → N v) :
      (World.after {} acts).Alike N (World.after {} swept) :=
    World.Alike.refl_empty.after (sound []) (sound []) same unversioned noted timely timely'
  constructor
  · exact (alike (N := fun _ => True) fun _ _ _ _ => trivial).agrees (sound acts) (sound swept)
      (fun _ _ h => h.bare_eq) StepRecord.blind_bare
  · intro verbatim
    exact (alike verbatim).agrees (sound acts) (sound swept) (fun _ _ h => h.tidy_eq fun _ => id)
      StepRecord.blind_tidy

end Supplied

/-! ### A run with sweeps -/

namespace Leave

/-- So many hours after midnight of the first day, where late requests are marked as escalated. -/
def escalating (hours : Nat) : Context := { clock hours with settings := { sweep := { escalate := true } } }

/-- The request is taken again with a context and approved three hours later. -/
def takenWith (context : Option Json) : List Act :=
  [⟨clock 12, .createWorkflow draft none⟩,
   ⟨clock 12, .start (.serial .workflow 1) admin.userId .null⟩,
   ⟨clock 13, .process request admin { outcome := "MORE", context }⟩,
   ⟨clock 16, .process request admin { outcome := "APPROVED" }⟩]

/-- The same with sweeps in between, one of which finds the request late. -/
def sweptWith (context : Option Json) : List Act :=
  [⟨escalating 11, .sweep⟩,
   ⟨clock 12, .createWorkflow draft none⟩,
   ⟨clock 12, .start (.serial .workflow 1) admin.userId .null⟩,
   ⟨clock 13, .sweep⟩,
   ⟨clock 13, .process request admin { outcome := "MORE", context }⟩,
   ⟨escalating 15, .sweep⟩,
   ⟨clock 16, .process request admin { outcome := "APPROVED" }⟩]

lemma unswept_sweptWith (context : Option Json) :
    Act.unswept (takenWith context) = Act.unswept (sweptWith context) := rfl

lemma unversioned_takenWith (context : Option Json) : ∀ a ∈ takenWith context, a.call.Unversioned := by
  simp [takenWith, ServiceCall.Unversioned]

lemma timely_sweptWith (context : Option Json) : ∀ a ∈ takenWith context ++ sweptWith context, a.Timely := by
  have first : (escalating 11).now.hasPlainYear = true := by decide +kernel
  have last : (escalating 15).now.hasPlainYear = true := by decide +kernel
  have calm : (clock 13).settings.sweep.escalate = false := rfl
  simp [takenWith, sweptWith, Act.Timely, first, last, calm]

/-- The request was escalated in between, which its version shows, and nobody else observes it. -/
theorem agrees_of_sweptWith :
    (∀ r ∈ (World.after {} (takenWith (some .null))).store.requests, r.version = 3) ∧
      (∀ r ∈ (World.after {} (sweptWith (some .null))).store.requests, r.version = 4) ∧
      (World.after {} (takenWith (some .null))).Agrees (fun s t => s.tidy = t.tidy)
        (World.after {} (sweptWith (some .null))) := by
  have agrees :=
    World.agrees_after (unswept_sweptWith (some .null)) (unversioned_takenWith _) (timely_sweptWith _)
  refine ⟨by decide +kernel, by decide +kernel, agrees.2 ?_⟩
  simp [takenWith, ServiceCall.context?, Json.Verbatim, Json.reread]

/-- With a number that does not read as it is written, the note of the closed step is another one after the
sweeps. -/
theorem note_drifts_by_sweep :
    Act.unswept (takenWith (some context)) = Act.unswept (sweptWith (some context)) ∧
      (∀ a ∈ takenWith (some context), a.call.Unversioned) ∧
      ∃ r ∈ (World.after {} (takenWith (some context))).store.requests,
        ∃ q ∈ (World.after {} (sweptWith (some context))).store.requests,
          q.id = r.id ∧ r.steps.map StepRecord.tidy ≠ q.steps.map StepRecord.tidy := by
  have taken : ∃ r ∈ (World.after {} (takenWith (some context))).store.requests, r.id = request ∧
      firstNote (r.steps.map StepRecord.tidy) = some "\x7b\"x\":1e-50\x7d" := by
    decide +kernel
  have swept : ∃ q ∈ (World.after {} (sweptWith (some context))).store.requests, q.id = request ∧
      firstNote (q.steps.map StepRecord.tidy) = some "\x7b\"x\":9.999999999999999e-51\x7d" := by
    decide +kernel
  obtain ⟨r, stored, id, note⟩ := taken
  obtain ⟨q, stored', id', note'⟩ := swept
  refine ⟨rfl, unversioned_takenWith _, r, stored, q, stored', id'.trans id.symm, fun same => ?_⟩
  rw [← same, note] at note'
  exact absurd note' (by decide)

end Leave

end Approval
