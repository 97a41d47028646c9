import Approval.Proofs.Request.Refusal
import Approval.Proofs.Service.Requests
import Approval.Proofs.Store.Open
import Approval.Service.Tasks
import Mathlib.Data.List.Sort
import Mathlib.Order.Antisymmetrization

/-!
# What tasks are

The tasks of an actor are the open requests whose gate the actor passes, and these are the ones that the
actor is not forbidden to decide. They stand in the order of their deadlines; where these say nothing, the
order of the requests is kept.
-/

namespace Approval

/-! ### Sorting -/

/-- Sorting does not change the order of members that neither goes before the other: what holds of all
pairs of a list goes on to hold of those. -/
lemma pairwise_mergeSort_of_stable {α : Type} {le : α → α → Bool} {R : α → α → Prop} {as : List α}
    (trans : ∀ a b c, le a b = true → le b c = true → le a c = true)
    (total : ∀ a b, (le a b || le b a) = true) (refl : ∀ a, R a a) (h : as.Pairwise R) :
    (as.mergeSort le).Pairwise fun a b => le a b = true ∧ (le b a = true → R a b) := by
  have kept {x y : α} {i j : Nat} (hx : (x, i) ∈ as.zipIdx) (hy : (y, j) ∈ as.zipIdx) (le : i ≤ j) :
      R x y := by
    obtain ⟨hi, rfl⟩ := List.mk_mem_zipIdx_iff_getElem?.mp hx |> List.getElem?_eq_some_iff.mp
    obtain ⟨hj, rfl⟩ := List.mk_mem_zipIdx_iff_getElem?.mp hy |> List.getElem?_eq_some_iff.mp
    rcases Nat.lt_or_eq_of_le le with lt | rfl
    · exact List.pairwise_iff_getElem.mp h i j hi hj lt
    · exact refl _
  rw [← List.mergeSort_zipIdx, List.pairwise_map]
  refine (List.pairwise_mergeSort (List.zipIdxLE_trans trans) (List.zipIdxLE_total total) _).imp_of_mem ?_
  rintro ⟨x, i⟩ ⟨y, j⟩ hx hy order
  rw [List.mem_mergeSort] at hx hy
  simp only [List.zipIdxLE] at order
  split_ifs at order with le_xy le_yx
  · exact ⟨le_xy, fun _ => kept hx hy (of_decide_eq_true order)⟩
  · exact ⟨le_xy, fun back => absurd back le_yx⟩

/-- Two sorted lists with the same members have, at each place, members of which neither goes before the
other. -/
lemma forall₂_antisymmRel_of_perm {α : Type} [Preorder α] {as bs : List α} (same : as.Perm bs)
    (ha : as.Pairwise (· ≤ ·)) (hb : bs.Pairwise (· ≤ ·)) : List.Forall₂ (AntisymmRel (· ≤ ·)) as bs := by
  have classes : as.map (toAntisymmetrization (· ≤ ·)) = bs.map (toAntisymmetrization (· ≤ ·)) :=
    List.Perm.eq_of_pairwise' (r := (· ≤ ·)) (List.pairwise_map.mpr ha) (List.pairwise_map.mpr hb) (same.map _)
  rw [← List.forall₂_eq_eq_eq, List.forall₂_map_left_iff, List.forall₂_map_right_iff] at classes
  exact classes.imp fun _ _ => Quotient.exact

/-! ### Tasks of a request -/

/-- The task is the one pending step of a request as it stands at a point of time. -/
structure Task.Shows (t : Task) (now : Instant) (r : Request) (record : StepRecord) : Prop where
  pending : r.steps.filter (·.isPending) = [record]
  requestId : t.requestId = r.id
  order : t.order = record.order
  stepName : t.stepName = record.name
  deadline : t.deadline = record.deadline
  isLate : t.isLate = record.isLate now
  createdAt : t.createdAt = r.createdAt

/-- The first task is due no later than the second one; tasks without a deadline are due last. -/
def Task.DueNoLater (a b : Task) : Prop :=
  match a.deadline, b.deadline with
  | some x, some y => x ≤ y
  | none, some _ => False
  | _, none => True

namespace Tasks

open Work Operation

variable {r : Request} {actor : Actor} {now : Instant} {t : Task} {c : Context} {w : World}

lemma ofRequest_eq_some_iff :
    ofRequest actor now r = some t ↔
      ∃ record step, r.current? = some record ∧ r.plan.step? record.order = some step ∧
        (step.passage actor).isOpen = true ∧
        t = { requestId := r.id
              workflowName := r.workflowName
              order := record.order
              stepName := record.name
              stepDescription := step.description
              deadline := record.deadline
              isLate := record.isLate now
              payload := r.payload
              createdAt := r.createdAt } := by
  simp only [ofRequest, Option.bind_eq_bind, Option.bind_eq_some_iff, Option.ite_none_right_eq_some,
    Option.some.injEq]
  constructor
  · rintro ⟨record, current, step, planned, passes, rfl⟩
    exact ⟨record, step, current, planned, passes, rfl⟩
  · rintro ⟨record, step, current, planned, passes, rfl⟩
    exact ⟨record, current, step, planned, passes, rfl⟩

lemma requestId_of_ofRequest (h : ofRequest actor now r = some t) : t.requestId = r.id := by
  obtain ⟨record, step, -, -, -, rfl⟩ := ofRequest_eq_some_iff.mp h
  rfl

lemma createdAt_of_ofRequest (h : ofRequest actor now r = some t) : t.createdAt = r.createdAt := by
  obtain ⟨record, step, -, -, -, rfl⟩ := ofRequest_eq_some_iff.mp h
  rfl

/-- A request is a task for those who pass the gate of the step at which it waits. -/
lemma exists_ofRequest_iff {step : Step} (pending : r.pendingStep = .ok step) :
    (∃ t, ofRequest actor now r = some t) ↔ (step.passage actor).isOpen = true := by
  obtain ⟨-, record, current, planned⟩ := Request.pendingStep_eq_ok_iff.mp pending
  simp [ofRequest, current, planned]

/-- The task that an open request is shows its pending step. -/
lemma exists_shows (hr : r.Lifecycle) (isOpen : r.isOpen = true) (h : ofRequest actor now r = some t) :
    ∃ record, t.Shows now r record := by
  obtain ⟨record, step, pending, current, -, -⟩ := hr.exists_pending isOpen
  obtain ⟨_, _, current', -, -, rfl⟩ := ofRequest_eq_some_iff.mp h
  obtain rfl := Option.some.inj (current.symm.trans current')
  exact ⟨record, pending, rfl, rfl, rfl, rfl, rfl, rfl⟩

/-! ### The list of tasks -/

/-- The tasks of an actor, made from the open requests. -/
def listed (actor : Actor) (now : Instant) (s : Store) : List Task :=
  (s.openRequests.filterMap (ofRequest actor now)).mergeSort notAfter

lemma of_eq (h : w.store.Decodes) : Tasks.of actor c w = (.ok (listed actor c.now w.store), w) := by
  unfold Tasks.of
  rw [bind_of_ok now_run, bind_of_ok (read_eq_ok_iff.mpr ⟨h.listOpen_eq, rfl⟩)]
  rfl

@[simp]
lemma mem_listed {s : Store} : t ∈ listed actor now s ↔ ∃ r ∈ s.openRequests, ofRequest actor now r = some t := by
  rw [listed, List.mem_mergeSort, List.mem_filterMap]

lemma notAfter_trans (a b d : Task) (ab : notAfter a b = true) (bd : notAfter b d = true) :
    notAfter a d = true := by
  unfold notAfter at *
  split at ab <;> split at bd <;> simp_all <;> exact le_trans ab bd

@[simp] lemma notAfter_total (a b : Task) : (notAfter a b || notAfter b a) = true := by
  have total (x y : Instant) : x ≤ y ∨ y ≤ x := by
    rw [Instant.le_iff, Instant.le_iff]
    omega
  unfold notAfter
  cases a.deadline <;> cases b.deadline <;> simp [total]

lemma dueNoLater_of_notAfter {a b : Task} (h : notAfter a b = true) : a.DueNoLater b := by
  unfold notAfter at h
  unfold Task.DueNoLater
  split at h <;> simp_all

/-- Tasks without a deadline that are in order were created in this order. -/
lemma createdAt_le_of_notAfter {a b : Task} (h : notAfter a b = true)
    (stable : notAfter b a = true → a.createdAt ≤ b.createdAt) (due : b.DueNoLater a) :
    a.createdAt ≤ b.createdAt := by
  unfold notAfter at h stable
  unfold Task.DueNoLater at due
  split at h <;> simp_all

/-- Tasks are made in the order of their requests. -/
lemma pairwise_createdAt {s : Store} {R : Instant → Instant → Prop}
    (h : s.openRequests.Pairwise fun a b => R a.createdAt b.createdAt) :
    (s.openRequests.filterMap (ofRequest actor now)).Pairwise fun a b => R a.createdAt b.createdAt := by
  refine List.pairwise_filterMap.mpr (h.imp fun related a ha b hb => ?_)
  rwa [createdAt_of_ofRequest ha, createdAt_of_ofRequest hb]

/-- Tasks stand in the order of their deadlines, and those that are due at the same time in the order of
their requests. -/
lemma pairwise_listed {s : Store} (civil : ∀ r ∈ s.requests, r.createdAt.IsCivil) :
    (listed actor now s).Pairwise fun a b =>
      a.DueNoLater b ∧ (b.DueNoLater a → a.createdAt ≤ b.createdAt) := by
  refine (pairwise_mergeSort_of_stable notAfter_trans notAfter_total (fun a => le_refl a.createdAt)
    (pairwise_createdAt (Store.pairwise_openRequests civil))).imp ?_
  rintro a b ⟨order, stable⟩
  exact ⟨dueNoLater_of_notAfter order, createdAt_le_of_notAfter order stable⟩

end Tasks

/-! ### Lists up to ties -/

/-- What decides where a task stands in a list: its deadline and the stamp of the creation of its request. -/
def Task.place (t : Task) : Option Instant × String := (t.deadline, t.createdAt.rowStamp)

/-- The lists are the same but for the order of tasks with the same place. -/
structure Tasks.SameButTies (xs ys : List Task) : Prop where
  perm : xs.Perm ys
  places : xs.map Task.place = ys.map Task.place

namespace Tasks

/-- Without two tasks with the same place the lists are the same. -/
lemma SameButTies.eq_of_nodup {xs ys : List Task} (h : SameButTies xs ys) (distinct : (xs.map Task.place).Nodup) :
    xs = ys := by
  refine List.ext_getElem h.perm.length_eq fun i hx hy => ?_
  have there : ys[i] ∈ xs := h.perm.mem_iff.mpr (List.getElem_mem hy)
  refine List.inj_on_of_nodup_map distinct (List.getElem_mem hx) there ?_
  have place := List.getElem_of_eq h.places (List.length_map Task.place ▸ hx)
  rwa [List.getElem_map, List.getElem_map] at place

/-- The first task goes before the second one when tasks in the order of their stamps are sorted. -/
def Before (a b : Task) : Prop :=
  notAfter a b = true ∧ (notAfter b a = true → a.createdAt.rowStamp ≤ b.createdAt.rowStamp)

lemma before_refl (a : Task) : Before a a := ⟨by simpa using notAfter_total a a, fun _ => String.le_refl _⟩

lemma before_trans {a b d : Task} (ab : Before a b) (bd : Before b d) : Before a d :=
  ⟨notAfter_trans a b d ab.1 bd.1, fun back =>
    String.le_trans (ab.2 (notAfter_trans b d a bd.1 back)) (bd.2 (notAfter_trans d a b back ab.1))⟩

/-- Tasks neither of which goes before the other have the same place. -/
lemma place_eq_of_before {a b : Task} (ab : Before a b) (ba : Before b a) : a.place = b.place := by
  have stamps := String.le_antisymm (ab.2 ba.1) (ba.2 ab.1)
  have deadlines : a.deadline = b.deadline := by
    have due := ab.1
    have due' := ba.1
    unfold notAfter at due due'
    cases da : a.deadline <;> cases db : b.deadline <;> simp_all only [decide_eq_true_eq]
    · cases due
    · cases due'
    · rcases Instant.lt_or_eq_of_le due with less | rfl
      · exact absurd due' (not_le_of_gt less)
      · rfl
  rw [Task.place, Task.place, deadlines, stamps]

/-- The same tasks, each list in the order of the stamps, are sorted in the same way but for ties. -/
lemma sameButTies_mergeSort {xs ys : List Task} (same : xs.Perm ys)
    (hx : xs.Pairwise fun a b => a.createdAt.rowStamp ≤ b.createdAt.rowStamp)
    (hy : ys.Pairwise fun a b => a.createdAt.rowStamp ≤ b.createdAt.rowStamp) :
    SameButTies (xs.mergeSort notAfter) (ys.mergeSort notAfter) := by
  have members := (List.mergeSort_perm xs notAfter).trans (same.trans (List.mergeSort_perm ys notAfter).symm)
  refine ⟨members, ?_⟩
  let _ : Preorder Task := { le := Before, le_refl := before_refl, le_trans := fun _ _ _ => before_trans }
  have sorted {ts : List Task} (h : ts.Pairwise fun a b => a.createdAt.rowStamp ≤ b.createdAt.rowStamp) :
      (ts.mergeSort notAfter).Pairwise (· ≤ ·) :=
    pairwise_mergeSort_of_stable notAfter_trans notAfter_total (fun _ => String.le_refl _) h
  rw [← List.forall₂_eq_eq_eq, List.forall₂_map_left_iff, List.forall₂_map_right_iff]
  exact (forall₂_antisymmRel_of_perm members (sorted hx) (sorted hy)).imp fun a b h => place_eq_of_before h.1 h.2

/-! ### Members -/

/-- A stored request is among the tasks if it is open and a task. -/
lemma mem_requestId_listed {s : Store} (hk : s.Keyed) {row : Request} (stored : row ∈ s.requests)
    (reads : row.readBack? = some r) :
    row.id ∈ (listed actor now s).map (·.requestId) ↔
      (row.status = .inProgress ∨ row.status = .escalated) ∧ ∃ t, ofRequest actor now r = some t := by
  simp only [List.mem_map, mem_listed, Store.mem_openRequests]
  constructor
  · rintro ⟨t, ⟨r', ⟨row', stored', isOpen, reads'⟩, is_task⟩, same⟩
    rw [requestId_of_ofRequest is_task, Request.id_of_readBack? reads'] at same
    obtain rfl := hk.eq_of_id stored' stored same
    obtain rfl := Option.some.inj (reads'.symm.trans reads)
    exact ⟨isOpen, t, is_task⟩
  · rintro ⟨isOpen, t, is_task⟩
    refine ⟨t, ⟨r, ⟨row, stored, isOpen, reads⟩, is_task⟩, ?_⟩
    rw [requestId_of_ofRequest is_task, Request.id_of_readBack? reads]

/-- No request is a task twice. -/
lemma nodup_listed {s : Store} (hk : s.Keyed) : ((listed actor now s).map (·.requestId)).Nodup := by
  refine ((List.mergeSort_perm _ _).map _).nodup_iff.mpr ?_
  refine List.pairwise_map.mpr (List.pairwise_filterMap.mpr ?_)
  refine (List.pairwise_map.mp hk.nodup_openRequests).imp fun differ a ha b hb => ?_
  rwa [requestId_of_ofRequest ha, requestId_of_ofRequest hb]

end Tasks

/-! ### Forbidden calls -/

/-- The answer is that the actor lacks something. -/
def Forbidden {α : Type} (answer : Except Failure α) : Prop := ∃ cause, answer = .error (.denied cause)

variable [Supply] in
/-- A call that decides a request is forbidden if the decision on what is stored is. -/
lemma Requests.forbidden_process_iff {c : Context} {w : World} (hk : w.store.Keyed)
    (fresh : ∀ e ∈ w.store.audit, e.id ≠ w.store.nextAuditId) {row r : Request}
    (stored : row ∈ w.store.requests) (reads : row.readBack? = some r) {actor : Actor} {d : Decision} :
    Forbidden (process row.id actor d c w).1 ↔ Forbidden (r.decide actor d c.now) := by
  cases decides : r.decide actor d c.now with
  | error e => simp [Forbidden, process_of_decide_error hk stored reads decides]
  | ok x =>
    have answers : process row.id actor d c w = (.ok x.request, decided x w) :=
      (process_eq_ok_iff hk).mpr ⟨row, stored, r, x, rfl, reads, decides, fresh, rfl, rfl⟩
    rw [answers]
    simp [Forbidden]

end Approval
