import Approval.Proofs.Run.Recording
import Approval.Proofs.Service.Tasks

/-!
# What is counted

The counts over all requests come from the statuses of the rows and from the steps of the open requests, and
the tasks of an administrator are made from these as well. They agree since an open request waits at one
step, a request that is over at none, and no request is stored that was only created.
-/

namespace Approval

/-! ### Counting -/

/-- Members of two kinds that exclude each other are counted together or apart. -/
lemma countP_add_countP {α : Type} {p q : α → Bool} {as : List α}
    (h : ∀ a ∈ as, p a = true → q a = false) :
    as.countP p + as.countP q = as.countP fun a => p a || q a := by
  induction as with
  | nil => rfl
  | cons a as ih =>
    have rest := ih fun b hb => h b (List.mem_cons_of_mem a hb)
    have first := h a List.mem_cons_self
    simp only [List.countP_cons, ← rest]
    cases hp : p a <;> cases hq : q a <;> simp_all <;> omega

/-! ### Requests that are late -/

namespace Request

/-- Some step of the request is late. -/
def isLate (now : Instant) (r : Request) : Bool := r.steps.any (·.isLate now)

/-- Some step of the view of the request is marked as late. -/
def isFlagged (now : Instant) (r : Request) : Bool := (r.view now).steps.any (·.isLate)

variable {r : Request} {now : Instant}

@[simp] lemma isFlagged_eq : r.isFlagged now = r.isLate now := by
  simp only [isFlagged, isLate, view, List.any_map]
  rfl

/-- Only a step that waits is late. -/
lemma isLate_eq_any : r.isLate now = (r.steps.filter (·.isPending)).any (·.isLate now) := by
  have waits (s : StepRecord) : (s.isPending && s.isLate now) = s.isLate now := by
    cases late : s.isLate now with
    | false => exact Bool.and_false _
    | true => rw [Sweep.isPending_of_isLate late, Bool.and_self]
  simp only [isLate, List.any_filter, waits]

/-- A request that is over is not late. -/
lemma Lifecycle.isLate_of_over (hr : r.Lifecycle) (ended : r.isOpen = false) : r.isLate now = false := by
  rw [isLate_eq_any, hr.filter_isPending_of_over ended]
  rfl

/-- The view of a request marks one step as late at most, and then the last one, at which the request
waits. -/
lemma Lifecycle.flagged (hr : r.Lifecycle) (now : Instant) :
    ((r.view now).steps.filter (·.isLate)).length ≤ 1 ∧ ∀ s ∈ (r.view now).steps, s.isLate = true →
      (r.view now).currentOrder = some s.step.order ∧ (r.view now).steps.getLast? = some s := by
  cases isOpen : r.isOpen with
  | false =>
    have never : ∀ s ∈ r.steps, s.isLate now = false := fun s hs =>
      Sweep.isLate_of_not_isPending (hr.finished isOpen s hs) now
    constructor
    · rw [view, List.filter_map, List.length_map,
        List.filter_eq_nil_iff.mpr fun s hs => by simp [never s hs]]
      exact Nat.zero_le 1
    · rintro _ mem late
      obtain ⟨s, hs, rfl⟩ := List.mem_map.mp mem
      exact Bool.noConfusion ((never s hs).symm.trans late)
  | true =>
    obtain ⟨before, last, steps, waits, closed⟩ := hr.waiting isOpen
    have never : ∀ s ∈ before, s.isLate now = false := fun s hs =>
      Sweep.isLate_of_not_isPending (closed s hs) now
    constructor
    · rw [view, List.filter_map, List.length_map, steps, List.filter_append,
        List.filter_eq_nil_iff.mpr fun s hs => by simp [never s hs]]
      exact List.length_filter_le _ [last]
    · rintro _ mem late
      obtain ⟨s, hs, rfl⟩ := List.mem_map.mp mem
      rw [steps, List.mem_append, List.mem_singleton] at hs
      rcases hs with hs | rfl
      · exact Bool.noConfusion ((never s hs).symm.trans late)
      · simp [view, current?_eq_of_steps steps waits, steps]

end Request

/-! ### Counts of a store -/

namespace Store

variable {s : Store} {now : Instant}

/-- What is active is in progress or escalated, and what is neither active nor over is not stored. -/
lemma Alive.countStatus (alive : s.Alive) :
    s.countStatus .inProgress + s.countStatus .escalated = s.requests.countP (·.isOpen) ∧
      s.countStatus .inProgress + s.countStatus .escalated + s.countStatus .completed + s.countStatus .rejected =
        s.requests.length := by
  unfold Store.countStatus
  have active : s.requests.countP (·.status = .inProgress) + s.requests.countP (·.status = .escalated) =
      s.requests.countP (·.isOpen) := by
    rw [countP_add_countP (by simp +contextual)]
    refine List.countP_congr fun r hr => ?_
    rw [(alive r hr).isOpen_iff, Bool.or_eq_true, decide_eq_true_iff, decide_eq_true_iff]
  have ended : s.requests.countP (·.status = .completed) + s.requests.countP (·.status = .rejected) =
      s.requests.countP fun r => !r.isOpen := by
    rw [countP_add_countP (by simp +contextual)]
    refine List.countP_congr fun r hr => ?_
    unfold Request.isOpen
    cases r.status <;> simp [Status.isTerminal]
  refine ⟨active, ?_⟩
  rw [active, Nat.add_assoc, ended, countP_add_countP (by simp), List.countP_eq_length]
  simp

/-- The open requests are as many as those that are listed. -/
lemma Alive.length_openRequests (alive : s.Alive) (decodes : s.Decodes) :
    s.openRequests.length = s.requests.countP (·.isOpen) := by
  rw [decodes.length_openRequests]
  refine List.countP_congr fun r hr => ?_
  rw [(alive r hr).isOpen_iff, decide_eq_true_iff]

/-- An open request is listed with the step at which it waits. -/
lemma Alive.pending_of_mem (alive : s.Alive) {r : Request} (h : r ∈ s.openRequests) :
    r.Lifecycle ∧ r.isOpen = true := by
  obtain ⟨row, stored, isOpen, reads⟩ := mem_openRequests.mp h
  have hr := (alive row stored).readBack reads
  rw [← Request.status_of_readBack? reads] at isOpen
  exact ⟨hr, hr.isOpen_iff.mpr isOpen⟩

/-- As many of all requests are late as of the open ones. -/
lemma Alive.countP_isLate (alive : s.Alive) :
    (s.requests.filterMap Request.readBack?).countP (·.isLate now) = s.openRequests.countP (·.isLate now) := by
  rw [openRequests, ((openRows_perm s).filterMap _).countP_eq, List.countP_filterMap, List.countP_filterMap,
    List.countP_filter]
  refine List.countP_congr fun row stored => ?_
  cases reads : row.readBack? with
  | none => simp
  | some r =>
    cases isOpen : row.isOpen with
    | true => simp [(alive row stored).isOpen_iff.mp isOpen]
    | false =>
      have ended : r.isOpen = false := by
        rw [Request.isOpen, Request.status_of_readBack? reads]
        exact isOpen
      simp [((alive row stored).readBack reads).isLate_of_over ended]

end Store

/-! ### Tasks and counts -/

namespace Tasks

open Work Operation

variable {c : Context} {w : World} {actor : Actor}

/-- The steps at which requests wait are as many as the requests, and as many of them are late. -/
lemma count_pending {rs : List Request} (h : ∀ r ∈ rs, r.Lifecycle ∧ r.isOpen = true) (now : Instant) :
    (rs.flatMap fun r => r.steps.filter (·.isPending)).length = rs.length ∧
      (rs.flatMap fun r => r.steps.filter (·.isPending)).countP (·.isLate now) =
        rs.countP (·.isLate now) := by
  induction rs with
  | nil => exact ⟨rfl, rfl⟩
  | cons r rest ih =>
    obtain ⟨hr, isOpen⟩ := h r List.mem_cons_self
    obtain ⟨length, late⟩ := ih fun q hq => h q (List.mem_cons_of_mem r hq)
    obtain ⟨record, -, pending, -⟩ := hr.exists_pending isOpen
    have same : r.isLate now = record.isLate now := by
      rw [Request.isLate_eq_any, pending]
      simp
    rw [List.flatMap_cons, pending, List.singleton_append, List.length_cons, List.length_cons, length,
      List.countP_cons, List.countP_cons, late, same]
    exact ⟨rfl, rfl⟩

/-- An administrator has a task for each of the requests, late or not as the request is. -/
lemma count_tasks {rs : List Request} (h : ∀ r ∈ rs, r.Lifecycle ∧ r.isOpen = true)
    (admin : actor.isAdmin = true) (now : Instant) :
    (rs.filterMap (ofRequest actor now)).length = rs.length ∧
      (rs.filterMap (ofRequest actor now)).countP (·.isLate) = rs.countP (·.isLate now) := by
  induction rs with
  | nil => exact ⟨rfl, rfl⟩
  | cons r rest ih =>
    obtain ⟨hr, isOpen⟩ := h r List.mem_cons_self
    obtain ⟨length, late⟩ := ih fun q hq => h q (List.mem_cons_of_mem r hq)
    obtain ⟨-, step, -, -, -, waits⟩ := hr.exists_pending isOpen
    obtain ⟨t, is_task⟩ : ∃ t, ofRequest actor now r = some t :=
      (exists_ofRequest_iff waits).mpr (step.isOpen_passage_of_isAdmin admin)
    obtain ⟨record, showing⟩ := exists_shows hr isOpen is_task
    have same : t.isLate = r.isLate now := by
      rw [showing.isLate, Request.isLate_eq_any, showing.pending]
      simp
    rw [List.filterMap_cons_some is_task, List.length_cons, List.length_cons, length, List.countP_cons,
      List.countP_cons, late, same]
    exact ⟨rfl, rfl⟩

/-- The counts, in terms of the rows and of the open requests. -/
lemma exists_dashboard (alive : w.store.Alive) (decodes : w.store.Decodes) :
    ∃ d, dashboard c w = (.ok d, w) ∧
      d.active = w.store.countStatus .inProgress + w.store.countStatus .escalated ∧
      d.completed = w.store.countStatus .completed ∧ d.rejected = w.store.countStatus .rejected ∧
      d.escalated = w.store.countStatus .escalated ∧ d.pending = w.store.openRequests.length ∧
      d.overdue = w.store.openRequests.countP (·.isLate c.now) := by
  obtain ⟨pending, overdue⟩ := count_pending (fun _ mem => alive.pending_of_mem mem) c.now
  rw [← pending, ← overdue]
  unfold dashboard
  rw [bind_of_ok now_run, bind_of_ok (ask_run _),
    bind_of_ok (read_eq_ok_iff.mpr ⟨decodes.listOpen_eq, rfl⟩)]
  exact ⟨_, rfl, rfl, rfl, rfl, rfl, rfl, rfl⟩

/-- An administrator has a task for each open request, and it is late if the request is. -/
lemma exists_of_isAdmin (alive : w.store.Alive) (decodes : w.store.Decodes) (admin : actor.isAdmin = true) :
    ∃ tasks, Tasks.of actor c w = (.ok tasks, w) ∧ tasks.length = w.store.openRequests.length ∧
      tasks.countP (·.isLate) = w.store.openRequests.countP (·.isLate c.now) := by
  obtain ⟨length, late⟩ := count_tasks (fun _ mem => alive.pending_of_mem mem) admin c.now
  refine ⟨_, of_eq decodes, ?_, ?_⟩
  · rw [listed, List.length_mergeSort, length]
  · rw [listed, (List.mergeSort_perm _ _).countP_eq, late]

end Tasks

end Approval
