import Approval.Proofs.Run.Rows
import Approval.Proofs.Service.Tasks

/-!
# The tasks of an actor

Tasks are found by looking through the open requests, and a decision finds its request by identifier and
checks the gate among other things. After every run the two agree: an actor's tasks are the open requests
that the actor is not forbidden to decide.
-/

namespace Approval

/-- Requests are created when a call starts them. -/
lemma rowInvariant_createdAt (P : Instant → Prop) :
    RowInvariant (fun a => P a.context.now) (fun _ => True) (fun r => P r.createdAt) where
  created _ _ _ := trivial
  switched _ _ := trivial
  started act _ _ made := by
    obtain ⟨_, _, -, -, rfl⟩ := Workflow.request_eq_ok_iff.mp made
    exact act
  decided _ _ before _ _ := before
  escalated _ _ before _ _ := before

section Supplied

variable [Supply]

/-- What the tasks of an actor at a point of time say about the stored requests. -/
structure World.Lists (w : World) (actor : Actor) (now : Instant) (tasks : List Task) : Prop where
  appears : ∀ row ∈ w.store.requests, ∀ (c : Context) (d : Decision), d.IsFor row →
    (row.id ∈ tasks.map (·.requestId) ↔
      row.status.isTerminal = false ∧ ¬Forbidden (Requests.process row.id actor d c w).1)
  always : ∀ row ∈ w.store.requests,
    (row.id ∈ tasks.map (·.requestId) ↔ row.status.isTerminal = false ∧
      ∀ (c : Context) (d : Decision), d.IsFor row → ¬Forbidden (Requests.process row.id actor d c w).1)
  once : (tasks.map (·.requestId)).Nodup
  shows : ∀ t ∈ tasks, ∃ row ∈ w.store.requests, ∃ r record, row.readBack? = some r ∧ t.Shows now r record
  sorted : tasks.Pairwise fun a b => a.DueNoLater b ∧ (b.DueNoLater a → a.createdAt ≤ b.createdAt)

/-- The tasks of an actor are the open requests that the actor is not forbidden to decide, with any outcome
and context and at any time. They show the pending steps, and the most urgent ones come first. -/
theorem World.lists_tasks (acts : List Act) (civil : ∀ a ∈ acts, a.context.now.IsCivil)
    (decodes : (World.after {} acts).store.Decodes) (actor : Actor) (c : Context) :
    ∃ tasks, Tasks.of actor c (World.after {} acts) = (.ok tasks, World.after {} acts) ∧
      (World.after {} acts).Lists actor c.now tasks := by
  have hk := World.keyed_after acts
  have alive := World.alive_after acts
  have fresh := (World.numbered_after acts).fresh
  have created := ((rowInvariant_createdAt Instant.IsCivil).after_empty acts civil).requests
  generalize World.after {} acts = w at *
  have agrees (row : Request) (stored : row ∈ w.store.requests) (c' : Context) (d : Decision)
      (current : d.IsFor row) :
      row.id ∈ (Tasks.listed actor c.now w.store).map (·.requestId) ↔
        row.status.isTerminal = false ∧ ¬Forbidden (Requests.process row.id actor d c' w).1 := by
    obtain ⟨r, reads⟩ := decodes row stored
    rw [Tasks.mem_requestId_listed hk stored reads, Requests.forbidden_process_iff hk fresh stored reads,
      ← (alive row stored).isOpen_iff, Request.isOpen, Bool.not_eq_eq_eq_not, Bool.not_true]
    refine and_congr_right fun isOpen => ?_
    obtain ⟨_, step, -, -, -, pending⟩ := ((alive row stored).readBack reads).exists_pending
      (Request.isOpen_of_not_isTerminal (Request.status_of_readBack? reads ▸ isOpen))
    rw [Tasks.exists_ofRequest_iff pending, Forbidden, Request.decide_denied_iff pending, Bool.not_eq_false]
    intro v named
    rw [current v named, Request.version_of_readBack? reads]
  refine ⟨_, Tasks.of_eq decodes, agrees, ?_, Tasks.nodup_listed hk, ?_, Tasks.pairwise_listed created⟩
  · intro row stored
    constructor
    · intro listed
      exact ⟨((agrees row stored c { outcome := "" } (by simp [Decision.IsFor])).mp listed).1,
        fun c' d current => ((agrees row stored c' d current).mp listed).2⟩
    · rintro ⟨isOpen, permitted⟩
      exact (agrees row stored c { outcome := "" } (by simp [Decision.IsFor])).mpr
        ⟨isOpen, permitted _ _ (by simp [Decision.IsFor])⟩
  · intro t listed
    obtain ⟨r, mem, is_task⟩ := Tasks.mem_listed.mp listed
    obtain ⟨row, stored, isOpen, reads⟩ := Store.mem_openRequests.mp mem
    have hr := (alive row stored).readBack reads
    rw [← Request.status_of_readBack? reads] at isOpen
    obtain ⟨record, showing⟩ := Tasks.exists_shows hr (hr.isOpen_iff.mpr isOpen) is_task
    exact ⟨row, stored, r, record, reads, showing⟩

end Supplied

/-- After a run that ends one request and leaves another one open, an administrator has one task. -/
theorem Leave.lists_tasks_of_run :
    (∀ a ∈ Leave.run, a.context.now.IsCivil) ∧ (World.after {} Leave.run).store.Decodes ∧
      ∃ tasks, tasks.length = 1 ∧
        Tasks.of Leave.admin (Leave.clock 16) (World.after {} Leave.run) = (.ok tasks, World.after {} Leave.run) ∧
        (World.after {} Leave.run).Lists Leave.admin (Leave.clock 16).now tasks := by
  have civil : ∀ a ∈ Leave.run, a.context.now.IsCivil := by decide +kernel
  have decodes : (World.after {} Leave.run).store.Decodes := by decide +kernel
  obtain ⟨tasks, answers, lists⟩ := World.lists_tasks Leave.run civil decodes Leave.admin (Leave.clock 16)
  refine ⟨civil, decodes, tasks, ?_, answers, lists⟩
  obtain rfl : Tasks.listed Leave.admin (Leave.clock 16).now (World.after {} Leave.run).store = tasks :=
    Except.ok.inj (congrArg Prod.fst ((Tasks.of_eq decodes).symm.trans answers))
  decide +kernel

end Approval
