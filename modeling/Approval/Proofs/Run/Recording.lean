import Approval.Proofs.Run.Lifecycle
import Approval.Proofs.Store.Open

/-!
# What a sweep records

A sweep passes over what the store refuses, so that a refusal does not show in its answer. As long as calls
come one after the other there is none: a request waits at one step, so that no two findings of a sweep are
about one request, and what was listed of a request is current until its own finding is recorded.
-/

namespace Approval

namespace Sweep

open Work Operation

variable [Supply] {escalate : Bool} {c : Context} {w : World} {f : Finding} {rest : List Finding} {report : Report}

/-- What the store answers when a finding is to be recorded. -/
def write (escalate : Bool) (now : Instant) (f : Finding) (s : Store) : Store.Access (Bool × Store) :=
  s.addBreach (f.breach now) (s.entry (f.note now))
    ((escalated escalate now f.request).map (·, f.request.version))

/-- The refusals of the store that are passed over while findings are recorded one after the other. -/
def refusals (escalate : Bool) (c : Context) : World → Report → List Finding → List StoreFault
  | _, _, [] => []
  | w, report, f :: rest =>
    let refusal := match write escalate c.now f w.store with
      | .ok _ => []
      | .error fault => [fault]
    refusal ++ match record escalate c.now f report c w with
      | (.ok after, w') => refusals escalate c w' after rest
      | (.error _, _) => []

/-- The refusals of the store that a sweep passes over. -/
def refusalsOfOnce (c : Context) (w : World) : List StoreFault :=
  match w.store.listOpen with
  | .ok requests =>
    refusals c.settings.sweep.escalate c w { scanned := requests.length } (findings c.now requests)
  | .error _ => []

/-- The findings are about different requests, and each request is at the version that was listed. -/
structure Waiting (s : Store) (findings : List Finding) : Prop where
  keyed : s.Keyed
  numbered : s.Numbered
  distinct : (findings.map (·.request.id)).Nodup
  current : ∀ f ∈ findings, ∃ row ∈ s.requests, row.id = f.request.id ∧ row.version = f.request.version

/-- The late step is recorded. -/
def Finding.IsRecorded (f : Finding) (s : Store) : Prop :=
  ∃ b ∈ s.breaches, f.request.id = b.requestId ∧ f.position = b.position

omit [Supply] in
lemma Finding.isRecorded_iff (now : Instant) {s : Store} :
    f.IsRecorded s ↔ ∃ b ∈ s.breaches, (f.breach now).isSame b = true :=
  exists_congr fun b => and_congr_right fun _ => by
    rw [Breach.isSame, Bool.and_eq_true, decide_eq_true_iff, decide_eq_true_iff]
    rfl

/-- A late step that is recorded is not recorded again. -/
lemma Finding.IsRecorded.not_recordable {s : Store} (known : f.IsRecorded s) (now : Instant) :
    ¬Recordable escalate now f s := by
  intro recordable
  obtain ⟨b, mem, same⟩ := (Finding.isRecorded_iff now).mp known
  exact Bool.noConfusion (same.symm.trans (recordable.new b mem))

namespace Waiting

/-- A finding that waits is recorded already or can be recorded. -/
lemma recordable (h : Waiting w.store (f :: rest)) (now : Instant) (new : ¬f.IsRecorded w.store) :
    Recordable escalate now f w.store := by
  obtain ⟨row, stored, id, version⟩ := h.current f List.mem_cons_self
  refine ⟨?_, ⟨row, stored, id⟩, fun _ => ⟨row, stored, id, version⟩, h.numbered.fresh⟩
  rw [Finding.isRecorded_iff now] at new
  simpa using new

/-- The store refuses no finding that waits. -/
lemma exists_write (h : Waiting w.store (f :: rest)) (escalate : Bool) (now : Instant) :
    ∃ new s, write escalate now f w.store = .ok (new, s) := by
  by_cases known : f.IsRecorded w.store
  · refine ⟨false, w.store, ?_⟩
    unfold write Store.addBreach
    rw [if_pos (by simpa using (Finding.isRecorded_iff now).mp known)]
  · exact ⟨true, _, (addBreach_eq_ok_iff h.keyed).mpr ⟨h.recordable now known, rfl⟩⟩

/-- When the first finding was recorded, the others still wait. -/
lemma breached (h : Waiting w.store (f :: rest)) (now : Instant) :
    Waiting (Sweep.breached escalate now f w).store rest where
  keyed := keyed_breached h.keyed f
  numbered := h.numbered.append rfl
  distinct := (List.nodup_cons.mp h.distinct).2
  current := by
    intro g hg
    obtain ⟨row, stored, id, version⟩ := h.current g (List.mem_cons_of_mem f hg)
    refine ⟨row, ?_, id, version⟩
    have other : row.id ≠ f.request.id := fun same =>
      (List.nodup_cons.mp h.distinct).1 (List.mem_map.mpr ⟨g, hg, id.symm.trans same⟩)
    change row ∈ w.store.escalatedBy _
    cases marks : escalated escalate now f.request with
    | none => exact stored
    | some marked =>
      obtain ⟨-, -, rfl⟩ := escalated_eq_some.mp marks
      exact Store.mem_replaced.mpr (.inl ⟨stored, other⟩)

lemma tail (h : Waiting w.store (f :: rest)) : Waiting w.store rest where
  keyed := h.keyed
  numbered := h.numbered
  distinct := (List.nodup_cons.mp h.distinct).2
  current := fun g hg => h.current g (List.mem_cons_of_mem f hg)

/-- When the first finding was recorded or passed over, the others still wait. -/
lemma record (h : Waiting w.store (f :: rest)) (escalate : Bool) (c : Context) (report : Report) :
    ∃ after w', Sweep.record escalate c.now f report c w = (.ok after, w') ∧ Waiting w'.store rest := by
  by_cases known : f.IsRecorded w.store
  · have passed : ¬Recordable escalate c.now f w.store := known.not_recordable c.now
    exact ⟨_, w, record_of_not_recordable h.keyed passed report, h.tail⟩
  · exact ⟨_, _, record_of_recordable h.keyed (h.recordable c.now known) report, h.breached c.now⟩

/-- The store refuses none of the findings. -/
lemma refusals_eq_nil {findings : List Finding} (h : Waiting w.store findings) :
    refusals escalate c w report findings = [] := by
  induction findings generalizing w report with
  | nil => rfl
  | cons f rest ih =>
    obtain ⟨new, s, written⟩ := h.exists_write escalate c.now
    obtain ⟨after, w', recorded, waits⟩ := h.record escalate c report
    simp only [refusals, written, recorded, List.nil_append]
    exact ih waits

end Waiting

/-! ### A whole sweep -/

omit [Supply] in
lemma isLate_of_not_isPending {s : StepRecord} (h : s.isPending = false) (now : Instant) :
    s.isLate now = false :=
  Bool.eq_false_iff.mpr fun late => Bool.noConfusion (h.symm.trans (isPending_of_isLate late))

omit [Supply] in
/-- An open request is late at one step at most. -/
lemma length_findingsOf {r : Request} (hr : r.Lifecycle) (isOpen : r.isOpen = true) (now : Instant) :
    (findingsOf now r).length ≤ 1 := by
  obtain ⟨before, last, steps, -, closed⟩ := hr.waiting isOpen
  rw [findingsOf, steps, List.zipIdx_append, List.filterMap_append,
    List.filterMap_eq_nil_iff.mpr, List.nil_append]
  · exact List.length_filterMap_le _ _
  · rintro ⟨s, i⟩ mem
    have late := isLate_of_not_isPending (closed s (List.fst_mem_of_mem_zipIdx mem)) now
    cases due : s.deadline <;> simp [due, late]

/-- The findings of the open requests wait to be recorded. -/
lemma waiting_findings {s : Store} (hk : s.Keyed) (numbered : s.Numbered) (alive : s.Alive) (now : Instant) :
    Waiting s (findings now s.openRequests) where
  keyed := hk
  numbered := numbered
  distinct := by
    refine List.pairwise_map.mpr (List.pairwise_flatMap.mpr ⟨fun r mem => ?_, ?_⟩)
    · obtain ⟨row, stored, isOpen, reads⟩ := Store.mem_openRequests.mp mem
      have hr := (alive row stored).readBack reads
      rw [← Request.status_of_readBack? reads] at isOpen
      have one := length_findingsOf hr (hr.isOpen_iff.mpr isOpen) now
      generalize findingsOf now r = found at one ⊢
      rcases found with _ | ⟨f, _ | ⟨g, others⟩⟩
      · exact .nil
      · exact List.pairwise_singleton _ f
      · simp at one
    · refine (List.pairwise_map.mp hk.nodup_openRequests).imp fun differ f hf g hg => ?_
      rwa [(mem_findingsOf.mp hf).1, (mem_findingsOf.mp hg).1]
  current := by
    intro f hf
    obtain ⟨r, mem, about⟩ := List.mem_flatMap.mp hf
    obtain ⟨row, stored, -, reads⟩ := Store.mem_openRequests.mp mem
    obtain rfl := (mem_findingsOf.mp about).1
    exact ⟨row, stored, (Request.id_of_readBack? reads).symm, (Request.version_of_readBack? reads).symm⟩

/-- A sweep passes over no refusal. -/
lemma refusalsOfOnce_eq_nil (hk : w.store.Keyed) (numbered : w.store.Numbered) (alive : w.store.Alive) :
    refusalsOfOnce c w = [] := by
  unfold refusalsOfOnce
  split
  · rename_i requests listed
    obtain rfl := Store.eq_openRequests listed
    exact (waiting_findings hk numbered alive c.now).refusals_eq_nil
  · rfl

end Sweep

/-! ### Late steps -/

/-- A request of the store is late at a step: the one at a position. -/
def Store.LateAt (s : Store) (now : Instant) (id : RequestId) (position : Nat) : Prop :=
  ∃ row ∈ s.requests, row.id = id ∧ ∃ step, row.steps[position]? = some step ∧ step.isLate now = true

/-- A step is read as late if it is. -/
lemma Request.Lifecycle.isLate_asRead {r : Request} (hr : r.Lifecycle) {s : StepRecord} (hs : s ∈ r.steps)
    (now : Instant) : s.asRead.isLate now = s.isLate now := by
  rw [StepRecord.isLate, hr.isPending_asRead hs, StepRecord.asRead_deadline, StepRecord.isLate]

/-- What a row reads back as is late where the row is. -/
lemma Request.Lifecycle.late_readBack_iff {row r : Request} (hr : row.Lifecycle) (reads : row.readBack? = some r)
    (now : Instant) (position : Nat) :
    (∃ s, r.steps[position]? = some s ∧ s.isLate now = true) ↔
      ∃ s, row.steps[position]? = some s ∧ s.isLate now = true := by
  simp only [Request.getElem?_steps_of_readBack? reads]
  constructor
  · rintro ⟨_, ⟨s, found, rfl⟩, late⟩
    exact ⟨s, found, (hr.isLate_asRead (List.mem_of_getElem? found) now).symm.trans late⟩
  · rintro ⟨s, found, late⟩
    exact ⟨_, ⟨s, found, rfl⟩, (hr.isLate_asRead (List.mem_of_getElem? found) now).trans late⟩

variable [Supply]

/-- Recording a late step makes no request late. -/
lemma Sweep.Breached.lateAt {c : Context} {w w' : World} (h : Breached c w w') (hk : w.store.Keyed)
    (alive : w.store.Alive) {now : Instant} {id : RequestId} {position : Nat}
    (late : w'.store.LateAt now id position) : w.store.LateAt now id position := by
  cases h with
  | intro escalate stored reads =>
    obtain ⟨x, mem, rfl, late⟩ := late
    rcases mem_escalatedBy_of_reads hk (fun _ => ⟨_, stored, reads⟩) mem with
      old | ⟨row, stored, reads, marked, marks, rfl⟩
    · exact ⟨x, old, rfl, late⟩
    · obtain ⟨-, -, rfl⟩ := escalated_eq_some.mp marks
      exact ⟨row, stored, rfl, ((alive row stored).late_readBack_iff reads now position).mp late⟩

/-- A sweep makes no request late. -/
lemma Sweep.lateAt_of_once {c : Context} {w : World} (hk : w.store.Keyed) (alive : w.store.Alive)
    {now : Instant} {id : RequestId} {position : Nat} (late : (once c w).2.store.LateAt now id position) :
    w.store.LateAt now id position := by
  have steps := once_spec (c := c) hk
  generalize (once c w).2 = w' at steps late
  have all : w'.store.Keyed ∧ w'.store.Alive ∧ (w'.store.LateAt now id position → w.store.LateAt now id position) := by
    clear late
    induction steps with
    | refl => exact ⟨hk, alive, fun late => late⟩
    | tail _ last ih =>
      obtain ⟨hk', alive', back⟩ := ih
      have change := Change.stepLate last
      exact ⟨change.keyed hk', change.alive hk' alive', fun late => back (last.lateAt hk' alive' late)⟩
  exact all.2.2 late

/-- A sweep keeps what it relies on. -/
lemma Sweep.sound_once {c : Context} {w : World} (hk : w.store.Keyed) (numbered : w.store.Numbered)
    (alive : w.store.Alive) :
    (once c w).2.store.Keyed ∧ (once c w).2.store.Numbered ∧ (once c w).2.store.Alive :=
  World.preserved_of_changes (P := fun w => w.store.Numbered ∧ w.store.Alive) hk ⟨numbered, alive⟩
    (fun _ _ hk kept change => ⟨change.numbered kept.1, change.alive hk kept.2⟩)
    (ServiceCall.run_changes (c := c) hk .sweep)

omit [Supply] in
/-- A late step of a request that reads back is found by a sweep. -/
lemma Store.LateAt.exists_finding {s : Store} {now : Instant} {id : RequestId} {position : Nat}
    (late : s.LateAt now id position) (decodes : s.Decodes) (alive : s.Alive) :
    ∃ f ∈ Sweep.findings now s.openRequests, f.request.id = id ∧ f.position = position := by
  obtain ⟨row, stored, same, late⟩ := late
  obtain ⟨r, reads⟩ := decodes row stored
  have isOpen : row.isOpen = true := by
    obtain ⟨s, found, late⟩ := late
    refine Bool.not_eq_false _ ▸ fun ended => ?_
    have waits := (alive row stored).finished ended s (List.mem_of_getElem? found)
    exact Bool.noConfusion ((Sweep.isPending_of_isLate late).symm.trans waits)
  obtain ⟨s, found, late⟩ := ((alive row stored).late_readBack_iff reads now position).mpr late
  obtain ⟨deadline, due⟩ : ∃ deadline, s.deadline = some deadline := by
    unfold StepRecord.isLate at late
    split at late
    · exact ⟨_, ‹_›⟩
    · exact Bool.noConfusion late
  have listed : r ∈ _ := Store.mem_openRequests.mpr ⟨row, stored, (alive row stored).isOpen_iff.mp isOpen, reads⟩
  refine ⟨⟨r, position, s, deadline⟩, ?_, (Request.id_of_readBack? reads).trans same, rfl⟩
  exact List.mem_flatMap.mpr ⟨r, listed, Sweep.mem_findingsOf.mpr ⟨rfl, found, due, late⟩⟩

end Approval
