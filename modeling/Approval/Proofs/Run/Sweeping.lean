import Approval.Proofs.Run.Observation
import Approval.Proofs.Run.Recording
import Approval.Proofs.Service.Counts

/-!
# What one sweep does

A sweep records the late steps that are not recorded yet, each once and nothing else, and if its settings say
so marks their requests as escalated. The steps of a request that is marked are stored again as they were
read, which may change a note. A second sweep at the same time finds nothing new.
-/

namespace Approval

open Work Operation

/-! ### Late steps that are not recorded -/

/-- Which request is late, and at which position. -/
def Sweep.Finding.place (f : Sweep.Finding) : RequestId × Nat := (f.request.id, f.position)

/-- Which request was late, and at which position. -/
def Breach.place (b : Breach) : RequestId × Nat := (b.requestId, b.position)

instance (f : Sweep.Finding) (s : Store) : Decidable (f.IsRecorded s) :=
  inferInstanceAs <| Decidable <| ∃ b ∈ s.breaches, f.request.id = b.requestId ∧ f.position = b.position

/-- The late steps of open requests that are not recorded, in the order in which a sweep comes to them. -/
def Store.unrecorded (s : Store) (now : Instant) : List Sweep.Finding :=
  (Sweep.findings now s.openRequests).filter fun f => ¬f.IsRecorded s

lemma Sweep.Finding.isRecorded_iff_mem {f : Finding} {s : Store} :
    f.IsRecorded s ↔ f.place ∈ s.breaches.map Breach.place := by
  simp only [IsRecorded, place, Breach.place, List.mem_map, Prod.mk.injEq, eq_comm]

/-! ### What is recorded -/

/-- A record with its note as it is read. -/
def StepRecord.renoted (s : StepRecord) : StepRecord := { s with note := s.asRead.note }

/-- The note of a record that is read as it was written changes at most from null to none. -/
lemma StepRecord.Verbatim.tidy_renoted {s : StepRecord} (h : s.Verbatim) (labelled : s.Labelled) :
    s.renoted.tidy = s.tidy := by
  rcases h.asRead_cases labelled with same | same
  · simp only [renoted, same]
  · rw [renoted, same]
    exact s.tidy_tidy

/-- In the life of a request, steps are read as they were but for their notes. -/
lemma Request.Lifecycle.map_asRead {r : Request} (hr : r.Lifecycle) :
    r.steps.map StepRecord.asRead = r.steps.map StepRecord.renoted :=
  List.map_congr_left fun s hs => by
    rw [StepRecord.asRead_eq, hr.status_asRead hs, StepRecord.renoted]

/-- The request is marked as escalated when the findings are recorded: late requests are, it is in progress,
and one of the findings is about it. -/
def Request.IsMarked (escalate : Bool) (new : List Sweep.Finding) (row : Request) : Prop :=
  escalate = true ∧ row.status = .inProgress ∧ ∃ f ∈ new, f.request.id = row.id

instance (escalate : Bool) (new : List Sweep.Finding) (row : Request) : Decidable (row.IsMarked escalate new) :=
  inferInstanceAs <| Decidable <| escalate = true ∧ row.status = .inProgress ∧ ∃ f ∈ new, f.request.id = row.id

/-- The row of a request that is marked as escalated. -/
def Request.marked (now : Instant) (row : Request) : Request :=
  { row with
    status := .escalated
    version := row.version + 1
    updatedAt := now
    steps := row.steps.map StepRecord.renoted }

/-- The rows of requests after the findings were recorded. -/
def Store.markedBy (s : Store) (escalate : Bool) (now : Instant) (new : List Sweep.Finding) : List Request :=
  s.requests.map fun row => if row.IsMarked escalate new then row.marked now else row

section Supplied

variable [Supply]

/-- The audit entries about findings, numbered from `n`. -/
def Sweep.entries (now : Instant) (new : List Finding) (n : Nat) : List AuditEntry :=
  (new.zipIdx n).map fun (f, i) => { f.note now with id := Supply.id .auditEntry i }

/-- The world after the findings were recorded: one breach, one audit entry and one event for each, and the
marks. -/
def World.recorded (escalate : Bool) (now : Instant) (new : List Sweep.Finding) (w : World) : World where
  store := { w.store with
    requests := w.store.markedBy escalate now new
    breaches := w.store.breaches ++ new.map (·.breach now)
    audit := w.store.audit ++ Sweep.entries now new (w.store.audit.length + 1) }
  events := w.events ++ new.map (·.event)

/-- The world after a sweep. -/
def World.swept (c : Context) (w : World) : World :=
  w.recorded c.settings.sweep.escalate c.now (w.store.unrecorded c.now)

/-- What a sweep answers: how many requests are open, how many late steps are recorded, and how many requests
are marked. -/
def World.sweepReport (c : Context) (w : World) : Sweep.Report where
  scanned := w.store.requests.countP (·.isOpen)
  breaches := (w.store.unrecorded c.now).length
  escalated := w.store.requests.countP fun row =>
    row.IsMarked c.settings.sweep.escalate (w.store.unrecorded c.now)

section Recorded

variable {escalate : Bool} {now : Instant} {w : World} {f : Sweep.Finding} {rest : List Sweep.Finding}

omit [Supply] in
lemma Request.not_isMarked_marked (row : Request) : ¬(row.marked now).IsMarked escalate rest := by
  rintro ⟨-, inProgress, -⟩
  cases inProgress

@[simp] lemma World.recorded_nil : w.recorded escalate now [] = w := by
  simp [World.recorded, Store.markedBy, Request.IsMarked, Sweep.entries]

omit [Supply] in
/-- Marking for the first finding and then for the others is marking for all. -/
lemma Store.markedBy_cons {s t : Store} (first : t.requests = s.markedBy escalate now [f]) :
    t.markedBy escalate now rest = s.markedBy escalate now (f :: rest) := by
  rw [markedBy, first, markedBy, markedBy, List.map_map]
  refine List.map_congr_left fun row _ => ?_
  by_cases marks : row.IsMarked escalate [f]
  · have marks' : row.IsMarked escalate (f :: rest) := by
      obtain ⟨on, inProgress, g, hg, id⟩ := marks
      exact ⟨on, inProgress, f, List.mem_cons_self, List.mem_singleton.mp hg ▸ id⟩
    simp only [Function.comp_apply, marks, marks', if_true, Request.not_isMarked_marked, if_false]
  · have same : row.IsMarked escalate rest ↔ row.IsMarked escalate (f :: rest) := by
      refine and_congr_right fun on => and_congr_right fun inProgress => ?_
      have other : f.request.id ≠ row.id := fun id => marks ⟨on, inProgress, f, List.mem_cons_self, id⟩
      simp [other]
    simp only [Function.comp_apply, marks, if_false, same]

/-- Recording the first finding and then the others is recording all. -/
lemma World.recorded_cons :
    (w.recorded escalate now [f]).recorded escalate now rest = w.recorded escalate now (f :: rest) := by
  have marks : (w.recorded escalate now [f]).store.markedBy escalate now rest =
      w.store.markedBy escalate now (f :: rest) := Store.markedBy_cons rfl
  rw [World.recorded, marks]
  simp [World.recorded, Sweep.entries, List.zipIdx_cons]

section Reads

variable (hk : w.store.Keyed) {row : Request} (stored : row ∈ w.store.requests)
  (reads : row.readBack? = some f.request)
include hk stored reads

omit [Supply] in
/-- One finding can mark the row that it was read of and no other. -/
lemma Request.isMarked_singleton_iff (escalate : Bool) {x : Request} (hx : x ∈ w.store.requests) :
    x.IsMarked escalate [f] ↔ x = row ∧ escalate = true ∧ f.request.status = .inProgress := by
  have id : f.request.id = row.id := Request.id_of_readBack? reads
  have status : f.request.status = row.status := Request.status_of_readBack? reads
  constructor
  · rintro ⟨on, inProgress, g, hg, same⟩
    obtain rfl := List.mem_singleton.mp hg
    obtain rfl := hk.eq_of_id hx stored (same.symm.trans id)
    exact ⟨rfl, on, status.trans inProgress⟩
  · rintro ⟨rfl, on, inProgress⟩
    exact ⟨on, status.symm.trans inProgress, f, List.mem_singleton_self f, id⟩

omit [Supply] in
/-- The rows after one finding was recorded. -/
lemma Sweep.escalatedBy_eq_markedBy (alive : w.store.Alive) :
    w.store.escalatedBy (escalated escalate now f.request) = w.store.markedBy escalate now [f] := by
  have id : f.request.id = row.id := Request.id_of_readBack? reads
  have marks_iff (x : Request) (hx : x ∈ w.store.requests) :=
    Request.isMarked_singleton_iff hk stored reads escalate hx
  cases marks : escalated escalate now f.request with
  | none =>
    have unmarked : ¬(escalate = true ∧ f.request.status = .inProgress) := by
      rintro ⟨on, inProgress⟩
      simp [escalated, on, inProgress] at marks
    refine (List.map_id _).symm.trans (List.map_congr_left fun x hx => ?_)
    rw [if_neg fun h => unmarked ((marks_iff x hx).mp h).2]
    rfl
  | some marked =>
    obtain ⟨on, inProgress, rfl⟩ := escalated_eq_some.mp marks
    refine List.map_congr_left fun x hx => ?_
    by_cases same : x = row
    · subst same
      rw [if_pos id.symm, if_pos ((marks_iff x hx).mpr ⟨rfl, on, inProgress⟩), Store.updateRow, Request.marked,
        Request.version_of_readBack? reads, Request.steps_of_readBack? reads,
        Request.completedAt_of_readBack? reads, (alive x hx).map_asRead]
    · rw [if_neg fun other => same (hk.eq_of_id hx stored (other.trans id)),
        if_neg fun h => same ((marks_iff x hx).mp h).1]

/-- What is left by recording one finding. -/
lemma Sweep.breached_eq_recorded (alive : w.store.Alive) :
    breached escalate now f w = w.recorded escalate now [f] := by
  rw [breached, escalatedBy_eq_markedBy hk stored reads alive]
  rfl

end Reads

end Recorded

namespace Sweep

variable {escalate : Bool} {c : Context} {w : World} {f : Finding} {rest : List Finding}

/-! ### Recording findings one after the other -/

/-- The findings wait to be recorded and are about what rows read back as. -/
structure Listed (s : Store) (findings : List Finding) : Prop extends Waiting s findings where
  alive : s.Alive
  reads : ∀ f ∈ findings, ∃ row ∈ s.requests, row.readBack? = some f.request

namespace Listed

lemma sublist {s : Store} {findings part : List Finding} (h : Listed s findings)
    (sub : part.Sublist findings) : Listed s part where
  keyed := h.keyed
  numbered := h.numbered
  distinct := h.distinct.sublist (sub.map _)
  current := fun f hf => h.current f (sub.subset hf)
  alive := h.alive
  reads := fun f hf => h.reads f (sub.subset hf)

lemma breached_eq (h : Listed w.store (f :: rest)) (escalate : Bool) (now : Instant) :
    breached escalate now f w = w.recorded escalate now [f] := by
  obtain ⟨row, stored, reads⟩ := h.reads f List.mem_cons_self
  exact breached_eq_recorded h.keyed stored reads h.alive

/-- When the first finding was recorded, the others are still about what rows read back as. -/
lemma breached (h : Listed w.store (f :: rest)) (escalate : Bool) (now : Instant) :
    Listed (Sweep.breached escalate now f w).store rest where
  toWaiting := h.toWaiting.breached now
  alive := alive_breached h.keyed h.alive fun _ => h.reads f List.mem_cons_self
  reads := by
    intro g hg
    obtain ⟨row, stored, reads⟩ := h.reads g (List.mem_cons_of_mem f hg)
    have other : row.id ≠ f.request.id := fun same =>
      (List.nodup_cons.mp h.distinct).1
        (List.mem_map.mpr ⟨g, hg, (Request.id_of_readBack? reads).trans same⟩)
    refine ⟨row, ?_, reads⟩
    rcases mem_escalatedBy_or h.keyed (fun _ => h.reads f List.mem_cons_self) stored with kept | ⟨reads', -⟩
    · exact kept
    · exact absurd (Request.id_of_readBack? reads').symm other

/-- Recording the first finding does not record the others. -/
lemma filter_breached (h : Listed w.store (f :: rest)) (escalate : Bool) (now : Instant) :
    rest.filter (fun g => ¬g.IsRecorded (Sweep.breached escalate now f w).store) =
      rest.filter (fun g => ¬g.IsRecorded w.store) := by
  refine List.filter_congr fun g hg => ?_
  have other : g.place ≠ (f.breach now).place := fun same =>
    (List.nodup_cons.mp h.distinct).1 (List.mem_map.mpr ⟨g, hg, congrArg Prod.fst same⟩)
  simp [Finding.isRecorded_iff_mem, Sweep.breached, other]

/-- The findings that were not recorded yet are, and no others. -/
lemma recordAll_eq {findings : List Finding} (h : Listed w.store findings) (escalate : Bool) (c : Context)
    (report : Report) :
    let new := findings.filter fun f => ¬f.IsRecorded w.store
    recordAll escalate c.now findings report c w =
      (.ok { report with
          breaches := report.breaches + new.length
          escalated := report.escalated + new.countP fun f => (escalated escalate c.now f.request).isSome },
        w.recorded escalate c.now new) := by
  induction findings generalizing w report with
  | nil => simp [recordAll]
  | cons f rest ih =>
    rw [recordAll]
    by_cases known : f.IsRecorded w.store
    · have passed : ¬Recordable escalate c.now f w.store := known.not_recordable c.now
      rw [bind_of_ok (record_of_not_recordable h.keyed passed report), ih (h.sublist (List.sublist_cons_self f rest))]
      simp [known]
    · have recordable : Recordable escalate c.now f w.store := h.recordable c.now known
      rw [bind_of_ok (record_of_recordable h.keyed recordable report), ih (h.breached escalate c.now)]
      rw [h.filter_breached, h.breached_eq, World.recorded_cons]
      simp [known, Report.more, List.countP_cons]
      omega

/-- A request is marked if a finding about it is one that escalates. -/
lemma isMarked_iff {s : Store} {new : List Finding} (h : Listed s new) (hf : f ∈ new) {row : Request}
    (stored : row ∈ s.requests) (about : f.request.id = row.id) (now : Instant) :
    row.IsMarked escalate new ↔ (escalated escalate now f.request).isSome = true := by
  have status : f.request.status = row.status := by
    obtain ⟨row', stored', reads⟩ := h.reads f hf
    obtain rfl := h.keyed.eq_of_id stored' stored ((Request.id_of_readBack? reads).symm.trans about)
    exact Request.status_of_readBack? reads
  simp only [Option.isSome_iff_exists, escalated_eq_some, exists_and_left, exists_eq, and_true, status]
  exact and_congr_right fun _ => and_iff_left ⟨f, hf, about⟩

/-- As many findings escalate as requests are marked. -/
lemma countP_isSome {s : Store} {new : List Finding} (h : Listed s new) (escalate : Bool) (now : Instant) :
    new.countP (fun f => (escalated escalate now f.request).isSome) =
      s.requests.countP fun row => row.IsMarked escalate new := by
  have ids : ((new.filter fun f => (escalated escalate now f.request).isSome).map (·.request.id)).Perm
      ((s.requests.filter fun row => row.IsMarked escalate new).map (·.id)) := by
    refine (List.perm_ext_iff_of_nodup (h.distinct.sublist (List.filter_sublist.map _))
      (h.keyed.sublist (List.filter_sublist.map _))).mpr fun id => ?_
    simp only [List.mem_map, List.mem_filter, decide_eq_true_eq]
    constructor
    · rintro ⟨f, ⟨hf, escalates⟩, rfl⟩
      obtain ⟨row, stored, reads⟩ := h.reads f hf
      have about := Request.id_of_readBack? reads
      exact ⟨row, ⟨stored, (h.isMarked_iff hf stored about now).mpr escalates⟩, about.symm⟩
    · rintro ⟨row, ⟨stored, marks⟩, rfl⟩
      obtain ⟨f, hf, about⟩ := marks.2.2
      exact ⟨f, ⟨hf, (h.isMarked_iff hf stored about now).mp marks⟩, about⟩
  rw [List.countP_eq_length_filter, List.countP_eq_length_filter]
  simpa using ids.length_eq

end Listed

/-- The findings of the open requests are about what rows read back as. -/
lemma listed_findings {s : Store} (hk : s.Keyed) (numbered : s.Numbered) (alive : s.Alive) (now : Instant) :
    Listed s (findings now s.openRequests) where
  toWaiting := waiting_findings hk numbered alive now
  alive := alive
  reads := by
    intro f hf
    obtain ⟨r, mem, about⟩ := List.mem_flatMap.mp hf
    obtain ⟨row, stored, -, reads⟩ := Store.mem_openRequests.mp mem
    obtain rfl := (mem_findingsOf.mp about).1
    exact ⟨row, stored, reads⟩

/-! ### The late steps that a sweep finds -/

omit [Supply] in
/-- A late step that is not recorded is one of a stored request that is open and reads back. -/
@[simp] lemma mem_unrecorded {s : Store} {now : Instant} :
    f ∈ s.unrecorded now ↔
      (∃ row ∈ s.requests, (row.status = .inProgress ∨ row.status = .escalated) ∧
        row.readBack? = some f.request) ∧
        f.request.steps[f.position]? = some f.step ∧ f.step.deadline = some f.deadline ∧
        f.step.isLate now = true ∧ ¬f.IsRecorded s := by
  simp only [Store.unrecorded, List.mem_filter, findings, List.mem_flatMap, mem_findingsOf,
    Store.mem_openRequests, decide_eq_true_eq]
  constructor
  · rintro ⟨⟨r, listed, rfl, found, due, late⟩, new⟩
    exact ⟨listed, found, due, late, new⟩
  · rintro ⟨listed, found, due, late, new⟩
    exact ⟨⟨f.request, listed, rfl, found, due, late⟩, new⟩

omit [Supply] in
/-- A sweep finds the places at which requests are late and no breach is recorded. -/
lemma mem_place_unrecorded {s : Store} (decodes : s.Decodes) (alive : s.Alive) {now : Instant}
    {id : RequestId} {position : Nat} :
    (id, position) ∈ (s.unrecorded now).map (·.place) ↔
      s.LateAt now id position ∧ (id, position) ∉ s.breaches.map (·.place) := by
  rw [List.mem_map]
  constructor
  · rintro ⟨f, hf, place⟩
    obtain ⟨⟨row, stored, -, reads⟩, found, -, late, new⟩ := mem_unrecorded.mp hf
    obtain ⟨rfl, rfl⟩ := Prod.mk.inj place
    refine ⟨⟨row, stored, (Request.id_of_readBack? reads).symm, ?_⟩, ?_⟩
    · exact ((alive row stored).late_readBack_iff reads now f.position).mp ⟨f.step, found, late⟩
    · exact fun known => new (Finding.isRecorded_iff_mem.mpr known)
  · rintro ⟨late, new⟩
    obtain ⟨f, hf, rfl, rfl⟩ := late.exists_finding decodes alive
    refine ⟨f, List.mem_filter.mpr ⟨hf, ?_⟩, rfl⟩
    exact decide_eq_true fun known => new (Finding.isRecorded_iff_mem.mp known)

section Once

variable (decodes : w.store.Decodes) (hk : w.store.Keyed) (numbered : w.store.Numbered)
  (alive : w.store.Alive)
include hk numbered alive

lemma listed_unrecorded (now : Instant) : Listed w.store (w.store.unrecorded now) :=
  (listed_findings hk numbered alive now).sublist List.filter_sublist

include decodes

/-- A sweep of rows that read back records what was not recorded, and answers how much that is. -/
theorem once_eq (c : Context) : once c w = (.ok (w.sweepReport c), w.swept c) := by
  have count := (listed_unrecorded hk numbered alive c.now).countP_isSome c.settings.sweep.escalate c.now
  have recorded := (listed_findings hk numbered alive c.now).recordAll_eq c.settings.sweep.escalate c
    { scanned := w.store.openRequests.length }
  unfold once
  rw [bind_of_ok (read_eq_ok_iff.mpr ⟨decodes.listOpen_eq, rfl⟩), bind_of_ok context_run, recorded,
    World.sweepReport, ← count, alive.length_openRequests decodes]
  simp only [Nat.zero_add]
  rfl

/-- After a sweep every late step is recorded, as it was before the sweep and as it is after it. -/
lemma exists_breach_of_late (c : Context) {id : RequestId} {position : Nat}
    (late : w.store.LateAt c.now id position ∨ (w.swept c).store.LateAt c.now id position) :
    ∃ b ∈ (w.swept c).store.breaches, b.requestId = id ∧ b.position = position := by
  have before : w.store.LateAt c.now id position := by
    rcases late with before | after
    · exact before
    · exact lateAt_of_once (c := c) hk alive (by rwa [once_eq decodes hk numbered alive c])
  obtain ⟨f, found, rfl, rfl⟩ := before.exists_finding decodes alive
  by_cases known : f.IsRecorded w.store
  · obtain ⟨b, mem, about, position⟩ := known
    exact ⟨b, List.mem_append_left _ mem, about.symm, position.symm⟩
  · have new : f ∈ w.store.unrecorded c.now := List.mem_filter.mpr ⟨found, decide_eq_true known⟩
    exact ⟨f.breach c.now, List.mem_append_right _ (List.mem_map_of_mem new), rfl, rfl⟩

/-- After a sweep no late step is left that is not recorded. -/
lemma unrecorded_swept (c : Context) : (w.swept c).store.unrecorded c.now = [] := by
  have alive' := (sound_once (c := c) hk numbered alive).2.2
  rw [once_eq decodes hk numbered alive c] at alive'
  rw [List.eq_nil_iff_forall_not_mem]
  intro f hf
  obtain ⟨⟨row, stored, -, reads⟩, found, -, late, new⟩ := mem_unrecorded.mp hf
  have late' := ((alive' row stored).late_readBack_iff reads c.now f.position).mp ⟨f.step, found, late⟩
  obtain ⟨b, mem, about, position⟩ := exists_breach_of_late decodes hk numbered alive c
    (.inr ⟨row, stored, (Request.id_of_readBack? reads).symm, late'⟩)
  exact new ⟨b, mem, about.symm, position.symm⟩

end Once

end Sweep

/-! ### The rows after a sweep -/

omit [Supply] in
/-- A row that is marked as escalated differs from itself by escalation. -/
lemma Request.Lifecycle.alike_marked {row r : Request} (hr : row.Lifecycle) (reads : row.readBack? = some r)
    (inProgress : row.status = .inProgress) {now : Instant} (plain : now.hasPlainYear = true) :
    row.Alike (StepRecord.Alike fun _ => True) (row.marked now) where
  same := rfl
  status := by
    rw [inProgress]
    rfl
  steps := by
    rw [Request.marked, ← hr.map_asRead]
    refine List.forall₂_map_right_iff.mpr (List.forall₂_same.mpr fun s hs => ?_)
    exact (StepRecord.Alike.refl (hr.ofLabel_status hs) fun _ _ => trivial).asRead_right
  updatedAt := (Request.hasPlainYear_of_readBack? reads).trans plain.symm

omit [Supply] in
/-- A row that is marked as escalated reads back exactly in years of four digits. -/
lemma Request.Lifecycle.isSome_readBack?_marked {row r : Request} (hr : row.Lifecycle)
    (reads : row.readBack? = some r) (inProgress : row.status = .inProgress) (now : Instant) :
    (row.marked now).readBack?.isSome = now.hasPlainYear := by
  cases plain : now.hasPlainYear with
  | true =>
    have both := (hr.alike_marked reads inProgress plain).readBack?
    rw [reads] at both
    cases same : (row.marked now).readBack? with
    | none => rw [same] at both; cases both
    | some q => rfl
  | false =>
    refine Option.isSome_eq_false_iff.mpr (Option.isNone_iff_eq_none.mpr ?_)
    rw [Option.eq_none_iff_forall_ne_some]
    intro q read
    have := Request.hasPlainYear_of_readBack? read
    exact Bool.noConfusion (plain.symm.trans this)

section Rows

variable {w : World} {escalate : Bool} {now : Instant} {new : List Sweep.Finding}

lemma World.decodes_recorded (decodes : w.store.Decodes) (alive : w.store.Alive)
    (plain : (∃ row ∈ w.store.requests, row.IsMarked escalate new) → now.hasPlainYear = true) :
    (w.recorded escalate now new).store.Decodes := by
  intro x hx
  obtain ⟨row, stored, rfl⟩ := List.mem_map.mp hx
  obtain ⟨r, reads⟩ := decodes row stored
  split_ifs with marks
  · rw [← Option.isSome_iff_exists, (alive row stored).isSome_readBack?_marked reads marks.2.1]
    exact plain ⟨row, stored, marks⟩
  · exact ⟨r, reads⟩

/-- Open requests stay open when findings are recorded. -/
@[simp] lemma World.countP_isOpen_recorded :
    (w.recorded escalate now new).store.requests.countP (·.isOpen) = w.store.requests.countP (·.isOpen) := by
  rw [World.recorded, Store.markedBy, List.countP_map]
  refine List.countP_congr fun row _ => ?_
  by_cases marks : row.IsMarked escalate new
  · have isOpen : row.isOpen = true := by
      rw [Request.isOpen, marks.2.1]
      rfl
    simp only [Function.comp_apply, marks, if_true, isOpen]
    exact iff_of_true rfl trivial
  · simp only [Function.comp_apply, marks, if_false]

/-- A request that is marked outside of the years of four digits makes listing the open requests fail. -/
lemma World.listOpen_recorded_of_not_plain (decodes : w.store.Decodes) (alive : w.store.Alive)
    (marks : ∃ row ∈ w.store.requests, row.IsMarked escalate new) (late : now.hasPlainYear = false) :
    (w.recorded escalate now new).store.listOpen = .error Store.unreadable := by
  obtain ⟨row, stored, marks⟩ := marks
  obtain ⟨r, reads⟩ := decodes row stored
  have unread := (alive row stored).isSome_readBack?_marked reads marks.2.1 now
  rw [late, Option.isSome_eq_false_iff, Option.isNone_iff_eq_none] at unread
  have there : row.marked now ∈ (w.recorded escalate now new).store.requests :=
    List.mem_map.mpr ⟨row, stored, if_pos marks⟩
  exact Store.readAll_of_none (Store.mem_openRows.mpr ⟨there, .inr rfl⟩) unread

end Rows

/-! ### Sweeping again -/

namespace Sweep

variable {c : Context} {w : World}

omit [Supply] in
/-- The report counts some escalated requests exactly if one is marked. -/
lemma escalated_ne_zero_iff : (w.sweepReport c).escalated ≠ 0 ↔
    ∃ row ∈ w.store.requests, row.IsMarked c.settings.sweep.escalate (w.store.unrecorded c.now) := by
  rw [World.sweepReport, ← Nat.pos_iff_ne_zero, List.countP_pos_iff]
  simp only [decide_eq_true_eq]

variable (decodes : w.store.Decodes) (hk : w.store.Keyed) (numbered : w.store.Numbered)
  (alive : w.store.Alive)
include decodes alive

/-- If a request was marked outside of the years of four digits, another sweep fails. -/
lemma once_swept_of_not_plain (marks : (w.sweepReport c).escalated ≠ 0) (late : c.now.hasPlainYear = false) :
    once c (w.swept c) = (.error (.ofStore Store.unreadable), w.swept c) := by
  have unlisted : (w.swept c).store.listOpen = .error Store.unreadable :=
    World.listOpen_recorded_of_not_plain decodes alive (escalated_ne_zero_iff.mp marks) late
  unfold once
  rw [bind_of_error (read_eq_error_iff.mpr ⟨_, unlisted, rfl, rfl⟩)]

include hk numbered

/-- Otherwise it finds nothing and does nothing. -/
lemma once_swept (timely : (w.sweepReport c).escalated = 0 ∨ c.now.hasPlainYear = true) :
    once c (w.swept c) = (.ok { scanned := (w.sweepReport c).scanned }, w.swept c) := by
  have none_left := unrecorded_swept decodes hk numbered alive c
  obtain ⟨hk', numbered', alive'⟩ := sound_once (c := c) hk numbered alive
  rw [once_eq decodes hk numbered alive c] at hk' numbered' alive'
  have decodes' : (w.swept c).store.Decodes := World.decodes_recorded decodes alive fun marks =>
    timely.resolve_left (escalated_ne_zero_iff.mpr marks)
  have same : (w.swept c).swept c = w.swept c := by
    rw [World.swept, none_left, World.recorded_nil]
  have report : (w.swept c).sweepReport c = { scanned := (w.sweepReport c).scanned } := by
    rw [World.sweepReport, none_left]
    simp [World.swept, World.sweepReport, Request.IsMarked]
  rw [once_eq decodes' hk' numbered' alive' c, same, report]

end Sweep

/-! ### Breaches of a run -/

/-- No breach is recorded twice. -/
def Store.RecordsOnce (s : Store) : Prop := (s.breaches.map (·.place)).Nodup

lemma Change.recordsOnce {c : Context} {w w' : World} (h : Change c w w') (once : w.store.RecordsOnce) :
    w'.store.RecordsOnce := by
  cases h with
  | directory only =>
    rw [Store.RecordsOnce, only.1]
    exact once
  | workflowCreated => exact once
  | workflowSwitched => exact once
  | workflowRemoved => exact once
  | requestStarted => exact once
  | requestDecided => exact once
  | stepLate breached =>
    cases breached with
    | @intro escalate f row stored reads isOpen late recordable =>
      have new : (f.breach c.now).place ∉ w.store.breaches.map (·.place) := by
        intro known
        have recorded : f.IsRecorded w.store := Sweep.Finding.isRecorded_iff_mem.mpr known
        exact recorded.not_recordable c.now recordable
      rw [Store.RecordsOnce, Sweep.breached, List.map_append, List.map_singleton]
      exact List.nodup_append.mpr ⟨once, List.nodup_singleton _, by simpa using new⟩

lemma World.recordsOnce_after (acts : List Act) : (World.after {} acts).store.RecordsOnce :=
  after_empty (P := (·.store.RecordsOnce)) List.nodup_nil (fun _ _ _ _ once change => change.recordsOnce once) acts

/-! ### A sweep after a run -/

/-- What a sweep answers and makes of a world, in terms of the late steps that were not recorded. -/
structure World.Sweeps (c : Context) (w : World) : Prop where
  /-- The late steps that were not recorded are, their requests are marked, and nothing else is done. -/
  once : Sweep.once c w = (.ok (w.sweepReport c), w.swept c)
  /-- These steps are at the places where a request is late and no breach is recorded. -/
  places : ∀ id position, (id, position) ∈ (w.store.unrecorded c.now).map (·.place) ↔
    w.store.LateAt c.now id position ∧ (id, position) ∉ w.store.breaches.map (·.place)
  /-- No two of them are at the same place. -/
  distinct : ((w.store.unrecorded c.now).map (·.place)).Nodup
  /-- What is told about each of them is what is read of its request. -/
  findings : ∀ f ∈ w.store.unrecorded c.now, (∃ row ∈ w.store.requests, row.readBack? = some f.request) ∧
    f.request.steps[f.position]? = some f.step ∧ f.step.deadline = some f.deadline
  /-- Notes that are read as they were written do not change when a request is marked. -/
  notes : ∀ row ∈ w.store.requests, ∀ s ∈ row.steps, s.Verbatim → s.renoted.tidy = s.tidy
  /-- Another sweep at the same time finds nothing and does nothing. -/
  again : (w.sweepReport c).escalated = 0 ∨ c.now.hasPlainYear = true →
    Sweep.once c (w.swept c) = (.ok { scanned := (w.sweepReport c).scanned }, w.swept c)
  /-- If a request was marked outside of the years of four digits, it fails. -/
  unread : (w.sweepReport c).escalated ≠ 0 → c.now.hasPlainYear = false →
    Sweep.once c (w.swept c) = (.error (.ofStore Store.unreadable), w.swept c)

/-- After any calls no step has two breaches, and if all rows read back, a sweep at any time answers and does
exactly what is due. -/
theorem World.sweeps_after (acts : List Act) (c : Context) :
    (World.after {} acts).store.RecordsOnce ∧
      ((World.after {} acts).store.Decodes → (World.after {} acts).Sweeps c) := by
  refine ⟨World.recordsOnce_after acts, fun decodes => ?_⟩
  have hk := World.keyed_after acts
  have numbered := World.numbered_after acts
  have alive := World.alive_after acts
  generalize World.after {} acts = w at *
  exact
    { once := Sweep.once_eq decodes hk numbered alive c
      places := fun _ _ => Sweep.mem_place_unrecorded decodes alive
      distinct := .of_map Prod.fst (by
        rw [List.map_map]
        exact (Sweep.listed_unrecorded hk numbered alive c.now).distinct)
      findings := fun f hf => by
        obtain ⟨⟨row, stored, -, reads⟩, found, due, -⟩ := Sweep.mem_unrecorded.mp hf
        exact ⟨⟨row, stored, reads⟩, found, due⟩
      notes := fun row stored s hs verbatim => verbatim.tidy_renoted ((alive row stored).ofLabel_status hs)
      again := Sweep.once_swept decodes hk numbered alive
      unread := Sweep.once_swept_of_not_plain decodes alive }

end Supplied

namespace Leave

/-- A request that was taken again with a context waits at its next step. -/
def waitingWith (context : Option Json) : List Act := (takenWith context).take 3

/-- Two hours later the sweep finds the step late, records it and marks the request. -/
theorem sweeps_of_waiting :
    (World.after {} (waitingWith none)).store.Decodes ∧ (World.after {} (waitingWith none)).Sweeps (escalating 15) ∧
      (World.after {} (waitingWith none)).sweepReport (escalating 15) =
        { scanned := 1, breaches := 1, escalated := 1 } := by
  have decodes : (World.after {} (waitingWith none)).store.Decodes := by decide +kernel
  exact ⟨decodes, (World.sweeps_after (waitingWith none) (escalating 15)).2 decodes, by decide +kernel⟩

/-- With a number that does not read as it is written, the sweep changes the note of the step before. -/
theorem steps_drift_by_sweep :
    (World.after {} (waitingWith (some context))).store.Decodes ∧
      ∃ row ∈ (World.after {} (waitingWith (some context))).store.requests,
        ∃ after ∈ (Sweep.once (escalating 15) (World.after {} (waitingWith (some context)))).2.store.requests,
          after.id = row.id ∧ after.steps.map StepRecord.tidy ≠ row.steps.map StepRecord.tidy := by
  have before : ∃ row ∈ (World.after {} (waitingWith (some context))).store.requests, row.id = request ∧
      firstNote (row.steps.map StepRecord.tidy) = some "\x7b\"x\":9.999999999999999e-51\x7d" := by
    decide +kernel
  have swept : ∃ row ∈ (Sweep.once (escalating 15) (World.after {} (waitingWith (some context)))).2.store.requests,
      row.id = request ∧
        firstNote (row.steps.map StepRecord.tidy) = some "\x7b\"x\":1e-50\x7d" := by
    decide +kernel
  obtain ⟨row, stored, id, note⟩ := before
  obtain ⟨after, stored', id', note'⟩ := swept
  refine ⟨by decide +kernel, row, stored, after, stored', id'.trans id.symm, fun same => ?_⟩
  rw [same, note] at note'
  exact absurd note' (by decide)

end Leave

end Approval
