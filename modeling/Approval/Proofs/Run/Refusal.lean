import Approval.Proofs.Run.Rows

/-!
# Calls that are refused

A call that fails leaves the world as it was, and a decision that succeeds changes its own request only.
All writes of a call are one, and come after all that it can fail at. Switching a workflow is the exception,
since the workflow is read afterwards; but every workflow that was accepted can be read.
-/

namespace Approval

/-! ### Operations of calls -/

namespace Work

variable {ε α : Type} {x : Work ε α} {c : Context} {w w' : World}

/-- The work without what it answers. -/
def silent (x : Work ε α) : Work ε Unit := fun c w => ((x c w).1.map fun _ => (), (x c w).2)

@[simp]
lemma silent_world (x : Work ε α) (c : Context) (w : World) : (x.silent c w).2 = (x c w).2 := rfl

@[simp]
lemma silent_eq_error_iff {e : ε} : x.silent c w = (.error e, w') ↔ x c w = (.error e, w') := by
  unfold silent
  rcases x c w with ⟨e' | a, v⟩ <;> simp [Except.map]

@[simp] lemma silent_eq_ok_iff : x.silent c w = (.ok (), w') ↔ ∃ a, x c w = (.ok a, w') := by
  unfold silent
  rcases x c w with ⟨e | a, v⟩ <;> simp [Except.map]

/-- Work that answers nothing is what it is without its answer. -/
@[simp] lemma silent_unit (x : Work ε Unit) : x.silent = x := by
  funext c w
  unfold silent
  rcases x c w with ⟨e | a, v⟩ <;> rfl

lemma Atomic.silent (h : x.Atomic) : x.silent.Atomic := by
  intro c w e v fails
  exact h c w e v (silent_eq_error_iff.mp fails)

end Work

variable [Supply] in
/-- The operation that a call asks for, without what it answers. -/
def ServiceCall.operation : ServiceCall → Operation Unit
  | .createPermission d => (Directory.createPermission d).silent
  | .createRole d => (Directory.createRole d).silent
  | .createUser d => (Directory.createUser d).silent
  | .grant role permission => Directory.grant role permission
  | .assign username role => Directory.assign username role
  | .deactivate username => Directory.deactivate username
  | .issueToken username label => (Directory.issueToken username label).silent
  | .createWorkflow d createdBy => (Workflows.create d createdBy).silent
  | .switchWorkflow id isActive actor => (Workflows.setActive id isActive actor).silent
  | .removeWorkflow id actor => Workflows.remove id actor
  | .start id requester payload => (Requests.start id requester payload).silent
  | .process id actor d => (Requests.process id actor d).silent
  | .sweep => Sweep.once.silent

namespace ServiceCall

open Work Operation

variable [Supply] {c : Context} {w w' : World}

/-- What a call comes to is the world after its operation. -/
@[simp] lemma operation_world (call : ServiceCall) : (call.operation c w).2 = call.run c w := by
  cases call with
  | grant | assign | deactivate | removeWorkflow => rfl
  | _ => exact silent_world _ _ _

/-- A call that fails has changed nothing, if the rows of workflows read back. -/
lemma operation_refused (reads : ∀ row ∈ w.store.workflows, ∃ wf, row.readBack? = some wf)
    {call : ServiceCall} {e : Failure} (fails : call.operation c w = (.error e, w')) : w' = w := by
  cases call with
  | createPermission d => exact (Directory.createPermission_writes d).atomic.silent c w e w' fails
  | createRole d => exact (Directory.createRole_writes d).atomic.silent c w e w' fails
  | createUser d => exact (Directory.createUser_writes d).atomic.silent c w e w' fails
  | grant role permission => exact (Directory.grant_writes role permission).atomic c w e w' fails
  | assign username role => exact (Directory.assign_writes username role).atomic c w e w' fails
  | deactivate username => exact (Directory.deactivate_writes username).atomic c w e w' fails
  | issueToken username label =>
    exact (Directory.issueToken_writes username label).atomic.silent c w e w' fails
  | createWorkflow d createdBy => exact (Workflows.create_atomic d createdBy).silent c w e w' fails
  | switchWorkflow id isActive actor =>
    -- This is the only call that can fail after its write.
    exact Workflows.setActive_refused reads (silent_eq_error_iff.mp fails)
  | removeWorkflow id actor => exact Workflows.remove_atomic id actor c w e w' fails
  | start id requester payload => exact (Requests.start_atomic id requester payload).silent c w e w' fails
  | process id actor d => exact (Requests.process_atomic id actor d).silent c w e w' fails
  | sweep => exact Sweep.once_atomic.silent c w e w' fails

end ServiceCall

/-! ### Workflows that can be read -/

lemma exists_mapM {α β : Type} {f : α → Option β} {as : List α} (h : ∀ a ∈ as, ∃ b, f a = some b) :
    ∃ bs, as.mapM f = some bs := by
  induction as with
  | nil => exact ⟨[], rfl⟩
  | cons a as ih =>
    obtain ⟨b, hb⟩ := h a List.mem_cons_self
    obtain ⟨bs, hbs⟩ := ih fun other mem => h other (List.mem_cons_of_mem a mem)
    exact ⟨b :: bs, by simp [hb, hbs]⟩

lemma Rule.exists_readBack? {r : Rule} {outer : Nat} (fits : ∀ v, r.value? = some v → v.Fits outer) :
    ∃ q, r.readBack? outer = some q := by
  unfold readBack?
  cases named : r.condition with
  | none => exact ⟨r, rfl⟩
  | some c =>
    have shallow : c.value.depth + outer ≤ Json.depthLimit := fits c.value (by simp [value?, named])
    exact ⟨_, by simp only [Json.readBack?, shallow, if_true]; rfl⟩

/-- A workflow can be read if none of its conditions is too deep in the row and it was created in a year of
four digits. -/
lemma Workflow.exists_readBack? {row : Workflow} (fits : ∀ v ∈ row.plan.values, v.Fits 3)
    (plain : row.createdAt.hasPlainYear = true) : ∃ wf, row.readBack? = some wf := by
  have each (r : Rule) (mem : r ∈ row.rules) : ∃ q, r.readBack? 3 = some q :=
    Rule.exists_readBack? fun v named => fits v (List.mem_filterMap.mpr ⟨r, mem, named⟩)
  obtain ⟨rules, read⟩ := exists_mapM each
  exact ⟨_, by simp only [readBack?, read, Instant.readBack?, plain, if_true]; rfl⟩

/-- The call is made in a year of four digits, and hands in no condition that is deeper than a document with
a workflow may nest it. -/
structure Act.Admitted (a : Act) : Prop where
  now : a.context.now.hasPlainYear = true
  conditions : ∀ d createdBy, a.call = .createWorkflow d createdBy →
    ∀ v ∈ d.rules.filterMap Rule.value?, v.Fits 3

/-- Admitted calls leave workflows that can be read. -/
lemma rowInvariant_readable :
    RowInvariant Act.Admitted (fun row => ∃ wf, row.readBack? = some wf) (fun _ => True) where
  created id act _ := by
    refine Workflow.exists_readBack? ?_ act.now
    rw [Workflows.values_ofDraft]
    exact act.conditions _ _ rfl
  switched isActive before := by
    obtain ⟨wf, read⟩ := before
    exact ⟨_, by rw [Workflow.readBack?_isActive, read]; rfl⟩
  started _ _ _ _ := trivial
  decided _ _ _ _ _ := trivial
  escalated _ _ _ _ _ := trivial

/-! ### Worlds -/

section Supplied

variable [Supply]

/-- The second world is the first one, but for the status, the version, the steps and the times of the
change and the end of one request, an audit entry about it, and an event. -/
def World.ChangesOnly (w : World) (r : Request) (w' : World) : Prop :=
  (∃ row ∈ w.store.requests, row.id = r.id) ∧ ∃ note event,
    note.requestId = some r.id ∧
    w' =
      { store := { w.store with
          requests := w.store.requests.map fun row =>
            if row.id = r.id then
              { row with
                status := r.status
                version := r.version
                steps := r.steps
                updatedAt := r.updatedAt
                completedAt := r.completedAt }
            else row
          audit := w.store.audit ++ [w.store.entry note] }
        events := w.events ++ [event] }

/-- A call that fails leaves the world as it is, and a decision that succeeds changes its request only. -/
structure World.AllOrNothing (w : World) : Prop where
  refused : ∀ (call : ServiceCall) (c : Context) (e : Failure) (w' : World),
    call.operation c w = (.error e, w') → w' = w
  decided : ∀ (id : RequestId) (actor : Actor) (d : Decision) (c : Context) (r : Request) (w' : World),
    Requests.process id actor d c w = (.ok r, w') → r.id = id ∧ w.ChangesOnly r w'

/-- After admitted calls, every call does all that it is for or nothing. -/
theorem World.allOrNothing_after (acts : List Act) (admitted : ∀ a ∈ acts, a.Admitted) :
    (World.after {} acts).AllOrNothing where
  refused call c e w' fails := by
    have reads := (rowInvariant_readable.after_empty acts admitted).workflows
    exact ServiceCall.operation_refused reads fails
  decided id actor d c r w' answers := by
    have hk := World.keyed_after acts
    obtain ⟨row, stored, current, x, rfl, reads, decides, -, rfl, rfl⟩ :=
      (Requests.process_eq_ok_iff hk).mp answers
    have same : x.request.id = row.id := by grind
    refine ⟨same, ⟨row, stored, same.symm⟩, x.note, x.event, ?_, rfl⟩
    rw [Request.requestId_of_decide decides, Request.id_of_decide decides]

end Supplied

/-- While the request waits, its workflow is not removed, which changes nothing, and it can be decided. -/
theorem Leave.allOrNothing_of_waiting :
    let w := World.after {} (run.take 2)
    (∀ a ∈ run.take 2, a.Admitted) ∧
      (∃ e, (ServiceCall.removeWorkflow (.serial .workflow 1) none).operation (clock 12) w = (.error e, w)) ∧
        ∃ r w', Requests.process request admin { outcome := "MORE" } (clock 12) w = (.ok r, w') ∧
          w.ChangesOnly r w' := by
  intro w
  have admitted : ∀ a ∈ run.take 2, a.Admitted := by
    have plain : (clock 12).now.hasPlainYear = true := by decide +kernel
    simp only [run, List.take, List.forall_mem_cons, List.not_mem_nil, false_implies, implies_true, and_true]
    refine ⟨⟨plain, ?_⟩, plain, ?_⟩
    · rintro _ _ ⟨⟩
      simp [draft, Rule.value?]
    · rintro _ _ ⟨⟩
  have after := World.allOrNothing_after (run.take 2) admitted
  refine ⟨admitted, ?_, ?_⟩
  · have fails : ((ServiceCall.removeWorkflow (.serial .workflow 1) none).operation (clock 12) w).1.isOk = false := by
      decide +kernel
    rcases removes : (ServiceCall.removeWorkflow (.serial .workflow 1) none).operation (clock 12) w with ⟨e | u, v⟩
    · exact ⟨e, by rw [after.refused _ _ e v removes]⟩
    · rw [removes] at fails
      exact Bool.noConfusion fails
  · have answers : (Requests.process request admin { outcome := "MORE" } (clock 12) w).1.isOk = true := by
      decide +kernel
    rcases decides : Requests.process request admin { outcome := "MORE" } (clock 12) w with ⟨e | r, v⟩
    · rw [decides] at answers
      exact Bool.noConfusion answers
    · exact ⟨r, v, rfl, (after.decided _ _ _ _ r v decides).2⟩

end Approval
