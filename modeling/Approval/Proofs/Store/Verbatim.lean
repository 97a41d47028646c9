import Approval.Proofs.Request.Lifecycle
import Approval.Proofs.Service.Sweep

/-!
# Rows that are read as they were written

If the numbers in the JSON values of a row are what their texts read as, the row reads back exactly when
its times lie in years of four digits and its values do not nest too deep, and then as it was written,
except that a note that is null is none.
-/

namespace Approval

/-! ### Values -/

/-- Every number in the value is the one that its text reads as. -/
def Json.Verbatim (v : Json) : Prop := v.reread = v

/-- The value can be read inside of `outer` arrays and objects. -/
def Json.Fits (outer : Nat) (v : Json) : Prop := v.depth + outer ≤ depthLimit

lemma Json.Verbatim.readBack?_eq_some_iff {v u : Json} (hv : v.Verbatim) {outer : Nat} :
    v.readBack? outer = some u ↔ v.Fits outer ∧ u = v := by
  rw [readBack?, Option.ite_none_right_eq_some, Option.some.injEq, hv, eq_comm (a := v)]
  rfl

/-- The value that the condition of a rule names. -/
def Rule.value? (r : Rule) : Option Json := r.condition.map (·.value)

/-- The values that the conditions of a plan name. -/
def Plan.values (p : Plan) : List Json := p.rules.filterMap Rule.value?

/-- The notes of a request, null ones as well. -/
def Request.notes (r : Request) : List Json := r.steps.filterMap (·.note)

/-- All JSON values of a request. -/
def Request.values (r : Request) : List Json := r.payload :: (r.plan.values ++ r.notes)

/-- The numbers in all values of a request are what their texts read as. -/
def Request.Verbatim (r : Request) : Prop := ∀ v ∈ r.values, v.Verbatim

lemma Request.verbatim_iff {r : Request} :
    r.Verbatim ↔ r.payload.Verbatim ∧ (∀ v ∈ r.plan.values, v.Verbatim) ∧ ∀ v ∈ r.notes, v.Verbatim := by
  simp [Verbatim, values, or_imp, forall_and]

/-! ### Null notes -/

/-- A note that is null is none. -/
def tidyNote : Option Json → Option Json
  | some .null => none
  | note => note

def StepRecord.tidy (s : StepRecord) : StepRecord := { s with note := tidyNote s.note }

/-- A request with none in place of each note that is null. -/
def Request.tidy (r : Request) : Request := { r with steps := r.steps.map StepRecord.tidy }

lemma tidyNote_of_ne_null {note : Option Json} (h : note ≠ some .null) : tidyNote note = note := by
  unfold tidyNote
  split
  · exact absurd rfl h
  · rfl

@[simp]
lemma tidyNote_tidyNote (note : Option Json) : tidyNote (tidyNote note) = tidyNote note := by
  rcases note with _ | _ | _ <;> rfl

@[simp] lemma StepRecord.tidy_tidy (s : StepRecord) : s.tidy.tidy = s.tidy := by
  simp [tidy]

lemma Request.id_of_tidy_eq {r q : Request} (h : r.tidy = q.tidy) : r.id = q.id := by
  change r.tidy.id = q.tidy.id
  rw [h]

lemma Request.tidy_of_ne_null {r : Request} (h : ∀ v ∈ r.notes, v ≠ .null) : r.tidy = r := by
  have same (s : StepRecord) (hs : s ∈ r.steps) : s.tidy = s := by
    rw [StepRecord.tidy, tidyNote_of_ne_null]
    intro null
    exact h .null (List.mem_filterMap.mpr ⟨s, hs, null⟩) rfl
  rw [tidy, List.map_congr_left same, List.map_id']

/-! ### Reading -/

lemma Rule.readBack?_eq_some_iff {r q : Rule} {outer : Nat} (h : ∀ v, r.value? = some v → v.Verbatim) :
    r.readBack? outer = some q ↔ (∀ v, r.value? = some v → v.Fits outer) ∧ q = r := by
  unfold readBack?
  cases hc : r.condition with
  | none => simp [value?, hc, eq_comm]
  | some c =>
    have named : r.value? = some c.value := by simp [value?, hc]
    simp only [Option.bind_eq_bind, Option.bind_eq_some_iff, Option.some.injEq,
      (h _ named).readBack?_eq_some_iff, named, forall_eq']
    constructor
    · rintro ⟨_, ⟨fits, rfl⟩, rfl⟩
      exact ⟨fits, by rw [← hc]⟩
    · rintro ⟨fits, rfl⟩
      exact ⟨_, ⟨fits, rfl⟩, by rw [← hc]⟩

/-- If each member of a list is mapped on a condition, so is the list. -/
lemma mapM_eq_some_iff {α β : Type} {f : α → Option β} {g : α → β} {p : α → Prop} {as : List α}
    (h : ∀ a ∈ as, ∀ b, f a = some b ↔ p a ∧ b = g a) {bs : List β} :
    as.mapM f = some bs ↔ (∀ a ∈ as, p a) ∧ bs = as.map g := by
  induction as generalizing bs with
  | nil => simp [eq_comm]
  | cons a as ih =>
    have ha := h a List.mem_cons_self
    have has (cs : List β) := @ih (fun b hb => h b (List.mem_cons_of_mem _ hb)) cs
    simp only [List.mapM_cons, Option.bind_eq_bind, Option.bind_eq_some_iff, Option.pure_def,
      Option.some.injEq, ha, has, List.forall_mem_cons, List.map_cons]
    constructor
    · rintro ⟨_, ⟨pa, rfl⟩, _, ⟨pas, rfl⟩, rfl⟩
      exact ⟨⟨pa, pas⟩, rfl⟩
    · rintro ⟨⟨pa, pas⟩, rfl⟩
      exact ⟨_, ⟨pa, rfl⟩, _, ⟨pas, rfl⟩, rfl⟩

lemma Rule.mapM_readBack?_eq_some_iff {rules read : List Rule} {outer : Nat}
    (h : ∀ v ∈ rules.filterMap value?, v.Verbatim) :
    rules.mapM (readBack? outer) = some read ↔
      (∀ v ∈ rules.filterMap value?, v.Fits outer) ∧ read = rules := by
  simp only [List.mem_filterMap, forall_exists_index, and_imp] at h ⊢
  have reads (r : Rule) (hr : r ∈ rules) (q : Rule) :
      r.readBack? outer = some q ↔ (∀ v, r.value? = some v → v.Fits outer) ∧ q = id r :=
    readBack?_eq_some_iff fun v hv => h v r hr hv
  rw [mapM_eq_some_iff reads, List.map_id]
  exact and_congr_left' ⟨fun fits v r hr hv => fits r hr v hv, fun fits r hr v hv => fits v r hr hv⟩

lemma Plan.readBack?_eq_some_iff {p q : Plan} (h : ∀ v ∈ p.values, v.Verbatim) :
    p.readBack? = some q ↔ (∀ v ∈ p.values, v.Fits 4) ∧ q = p := by
  simp only [readBack?, Option.bind_eq_bind, Option.bind_eq_some_iff, Option.some.injEq,
    Rule.mapM_readBack?_eq_some_iff h]
  constructor
  · rintro ⟨_, ⟨fits, rfl⟩, rfl⟩
    exact ⟨fits, rfl⟩
  · rintro ⟨fits, rfl⟩
    exact ⟨_, ⟨fits, rfl⟩, rfl⟩

lemma Workflow.readBack?_eq_some_iff {row wf : Workflow} (h : ∀ v ∈ row.plan.values, v.Verbatim) :
    row.readBack? = some wf ↔
      (∀ v ∈ row.plan.values, v.Fits 3) ∧ row.createdAt.hasPlainYear = true ∧ wf = row := by
  have named : ∀ v ∈ row.rules.filterMap Rule.value?, v.Verbatim := h
  simp only [readBack?, Option.bind_eq_bind, Option.bind_eq_some_iff, Option.some.injEq,
    Rule.mapM_readBack?_eq_some_iff named, Instant.readBack?, Option.ite_none_right_eq_some]
  constructor
  · rintro ⟨_, ⟨fits, rfl⟩, _, ⟨plain, rfl⟩, rfl⟩
    exact ⟨fits, plain, rfl⟩
  · rintro ⟨fits, plain, rfl⟩
    exact ⟨_, ⟨fits, rfl⟩, _, ⟨plain, rfl⟩, rfl⟩

lemma readNote?_eq_some_iff (outer : Nat) (bound : outer ≤ Json.depthLimit) {note read : Option Json}
    (h : ∀ v, note = some v → v.Verbatim) :
    readNote? outer note = some read ↔ (∀ v, note = some v → v.Fits outer) ∧ read = tidyNote note := by
  cases note with
  | none => simp [readNote?, tidyNote, eq_comm]
  | some v =>
    by_cases null : v = .null
    · subst null
      simp [readNote?, tidyNote, Json.Fits, Json.depth, bound, eq_comm]
    · have kept : tidyNote (some v) = some v := tidyNote_of_ne_null (by simpa using null)
      have reads : readNote? outer (some v) = (v.readBack? outer).map some := by
        unfold readNote?
        split <;> simp_all
      rw [reads, kept]
      simp only [Option.map_eq_some_iff, (h v rfl).readBack?_eq_some_iff, Option.some.injEq, forall_eq']
      constructor
      · rintro ⟨_, ⟨fits, rfl⟩, rfl⟩
        exact ⟨fits, rfl⟩
      · rintro ⟨fits, rfl⟩
        exact ⟨v, ⟨fits, rfl⟩, rfl⟩

lemma StepRecord.readBack?_eq_some_iff {s t : StepRecord} (h : ∀ v, s.note = some v → v.Verbatim)
    (status : StepStatus.ofLabel s.status.label = s.status) :
    s.readBack? = some t ↔ (∀ v, s.note = some v → v.Fits 2) ∧ t = s.tidy := by
  simp only [readBack?, Option.bind_eq_bind, Option.bind_eq_some_iff, Option.some.injEq, status,
    readNote?_eq_some_iff 2 (by decide) h]
  constructor
  · rintro ⟨_, ⟨fits, rfl⟩, rfl⟩
    exact ⟨fits, rfl⟩
  · rintro ⟨fits, rfl⟩
    exact ⟨_, ⟨fits, rfl⟩, rfl⟩

@[simp] lemma readTime?_eq_some_iff {t u : Option Instant} :
    readTime? t = some u ↔ (∀ v, t = some v → v.hasPlainYear = true) ∧ u = t := by
  cases t with
  | none => simp [readTime?, eq_comm (a := u)]
  | some t =>
    simp only [readTime?, Instant.readBack?, Option.map_eq_some_iff, Option.ite_none_right_eq_some,
      Option.some.injEq, forall_eq']
    constructor
    · rintro ⟨_, ⟨plain, rfl⟩, rfl⟩
      exact ⟨plain, rfl⟩
    · rintro ⟨plain, rfl⟩
      exact ⟨t, ⟨plain, rfl⟩, rfl⟩

namespace Request

/-- What it takes for the row of a request to read back: none of its values nests too deep where it
stands, and its times lie in years of four digits. -/
structure Readable (r : Request) : Prop where
  payload : r.payload.Fits 0
  conditions : ∀ v ∈ r.plan.values, v.Fits 4
  notes : ∀ v ∈ r.notes, v.Fits 2
  createdAt : r.createdAt.hasPlainYear = true
  updatedAt : r.updatedAt.hasPlainYear = true
  completedAt : ∀ t, r.completedAt = some t → t.hasPlainYear = true

/-- The conditions and the notes of the request can be read where they stand in its row. -/
structure Shallow (r : Request) : Prop where
  conditions : ∀ v ∈ r.plan.values, v.Fits 4
  notes : ∀ v ∈ r.notes, v.Fits 2

/-- The payload of the request can be read, and its times lie in years of four digits. -/
structure Plain (r : Request) : Prop where
  payload : r.payload.Fits 0
  createdAt : r.createdAt.hasPlainYear = true
  updatedAt : r.updatedAt.hasPlainYear = true
  completedAt : ∀ t, r.completedAt = some t → t.hasPlainYear = true

lemma readable_iff {r : Request} : r.Readable ↔ r.Plain ∧ r.Shallow where
  mp := fun h => ⟨⟨h.payload, h.createdAt, h.updatedAt, h.completedAt⟩, h.conditions, h.notes⟩
  mpr := fun ⟨plain, shallow⟩ =>
    ⟨plain.payload, shallow.conditions, shallow.notes, plain.createdAt, plain.updatedAt, plain.completedAt⟩

namespace Verbatim

variable {row r : Request}

/-- A row reads back exactly if it is readable, and then as it was written but for null notes. -/
theorem readBack?_eq_some_iff (hv : row.Verbatim) (hr : row.Lifecycle) :
    row.readBack? = some r ↔ row.Readable ∧ r = row.tidy := by
  obtain ⟨payload, conditions, notes⟩ := verbatim_iff.mp hv
  simp only [Request.notes, List.mem_filterMap, forall_exists_index, and_imp] at notes
  have steps (s : StepRecord) (hs : s ∈ row.steps) (t : StepRecord) :
      s.readBack? = some t ↔ (∀ v, s.note = some v → v.Fits 2) ∧ t = s.tidy :=
    StepRecord.readBack?_eq_some_iff (fun v hn => notes v s hs hn) (hr.ofLabel_status hs)
  have notes_iff : (∀ s ∈ row.steps, ∀ v, s.note = some v → v.Fits 2) ↔ ∀ v ∈ row.notes, v.Fits 2 := by
    simp only [Request.notes, List.mem_filterMap, forall_exists_index, and_imp]
    exact ⟨fun fits v s hs hn => fits s hs v hn, fun fits s hs v hn => fits v s hs hn⟩
  simp only [Request.readBack?, Option.bind_eq_bind, Option.bind_eq_some_iff, Option.some.injEq,
    payload.readBack?_eq_some_iff, Plan.readBack?_eq_some_iff conditions, mapM_eq_some_iff steps,
    readTime?_eq_some_iff, Instant.readBack?, Option.ite_none_right_eq_some]
  constructor
  · rintro ⟨_, ⟨hp, rfl⟩, _, ⟨hc, rfl⟩, _, ⟨hn, rfl⟩, _, ⟨created, rfl⟩, _, ⟨updated, rfl⟩, _,
      ⟨completed, rfl⟩, rfl⟩
    exact ⟨⟨hp, hc, notes_iff.mp hn, created, updated, completed⟩, rfl⟩
  · rintro ⟨h, rfl⟩
    exact ⟨_, ⟨h.payload, rfl⟩, _, ⟨h.conditions, rfl⟩, _, ⟨notes_iff.mpr h.notes, rfl⟩, _, ⟨h.createdAt, rfl⟩, _,
      ⟨h.updatedAt, rfl⟩, _, ⟨h.completedAt, rfl⟩, rfl⟩

lemma eq_tidy_of_readBack? (hv : row.Verbatim) (hr : row.Lifecycle) (h : row.readBack? = some r) :
    r = row.tidy :=
  ((hv.readBack?_eq_some_iff hr).mp h).2

end Verbatim

/-- The numbers in all values of a request are what their texts read as, and no note is null. -/
structure Faithful (r : Request) : Prop where
  verbatim : r.Verbatim
  notes : ∀ v ∈ r.notes, v ≠ .null

/-- A row without null notes that reads back does so as it was written. -/
lemma Faithful.readBack?_eq_some_iff {row r : Request} (h : row.Faithful) (hr : row.Lifecycle) :
    row.readBack? = some r ↔ row.Readable ∧ r = row := by
  rw [h.verbatim.readBack?_eq_some_iff hr, tidy_of_ne_null h.notes]

/-! ### Changing -/

/-- The notes of a request after a decision are those before and the context of the decision. -/
lemma mem_notes_of_decide {r : Request} (hr : r.Lifecycle) {actor : Actor} {d : Decision} {now : Instant}
    {x : Decided} (h : r.decide actor d now = .ok x) {v : Json} (hv : v ∈ x.request.notes) :
    v ∈ r.notes ∨ d.context = some v := by
  obtain ⟨before, record, step, overridden, outcome, rule, hs, -, -, -, advanced, -⟩ := hr.decide_eq_ok h
  obtain ⟨s, mem, hn⟩ := List.mem_filterMap.mp hv
  have kept (old : s ∈ before) : v ∈ r.notes ∨ d.context = some v :=
    .inl (List.mem_filterMap.mpr ⟨s, by simp [hs, old], hn⟩)
  rcases advanced.next_eq with ⟨order, target, deadline, -, -, -, next⟩ | ⟨status, -, next⟩
  · rw [next] at mem
    simp only [onward, List.mem_append, List.mem_singleton] at mem
    rcases mem with (old | rfl) | rfl
    · exact kept old
    · exact .inr hn
    · exact absurd hn (by simp [Step.waiting])
  · rw [next] at mem
    simp only [ended, List.mem_append, List.mem_singleton] at mem
    rcases mem with old | rfl
    · exact kept old
    · exact .inr hn

/-- Notes of a tidied request are notes of the request. -/
lemma mem_notes_of_tidy {r : Request} {v : Json} (h : v ∈ r.tidy.notes) : v ∈ r.notes := by
  simp only [notes, tidy, List.filterMap_map, List.mem_filterMap, Function.comp_apply] at h ⊢
  obtain ⟨s, hs, hn⟩ := h
  refine ⟨s, hs, ?_⟩
  cases note : s.note with
  | none => simp [StepRecord.tidy, tidyNote, note] at hn
  | some u =>
    by_cases null : u = .null
    · simp [StepRecord.tidy, tidyNote, note, null] at hn
    · rwa [StepRecord.tidy, note, tidyNote_of_ne_null (by simpa using null)] at hn

lemma Plain.tidy {r : Request} (h : r.Plain) : r.tidy.Plain :=
  ⟨h.payload, h.createdAt, h.updatedAt, h.completedAt⟩

lemma Shallow.tidy {r : Request} (h : r.Shallow) : r.tidy.Shallow :=
  ⟨h.conditions, fun v hv => h.notes v (mem_notes_of_tidy hv)⟩

lemma Readable.tidy {r : Request} (h : r.Readable) : r.tidy.Readable := by
  obtain ⟨plain, shallow⟩ := readable_iff.mp h
  exact readable_iff.mpr ⟨plain.tidy, shallow.tidy⟩

section Decide

variable {r : Request} {actor : Actor} {d : Decision} {now : Instant} {x : Decided}

/-- A decision in a year of four digits keeps the times of a request in such years. -/
lemma Plain.decide (h : r.Plain) (decides : r.decide actor d now = .ok x) (plain : now.hasPlainYear = true) :
    x.request.Plain where
  payload := by rw [payload_of_decide decides]; exact h.payload
  createdAt := by rw [createdAt_of_decide decides]; exact h.createdAt
  updatedAt := by rw [updatedAt_of_decide decides]; exact plain
  completedAt := by
    intro t ends
    rcases completedAt_of_decide decides with same | last
    · exact h.completedAt t (same.symm.trans ends)
    · rw [Option.some.inj (ends.symm.trans last)]
      exact plain

/-- A decision with a context that can be read as a note leaves nothing that is too deep. -/
lemma Shallow.decide (h : r.Shallow) (hr : r.Lifecycle) (decides : r.decide actor d now = .ok x)
    (context : ∀ v, d.context = some v → v.Fits 2) : x.request.Shallow where
  conditions := by rw [plan_of_decide decides]; exact h.conditions
  notes := fun v hv => (mem_notes_of_decide hr decides hv).elim (h.notes v) (context v)

/-- A decision in a year of four digits with a context that can be read as a note keeps a request
readable. -/
lemma Readable.decide (h : r.Readable) (hr : r.Lifecycle) (decides : r.decide actor d now = .ok x)
    (plain : now.hasPlainYear = true) (context : ∀ v, d.context = some v → v.Fits 2) :
    x.request.Readable := by
  obtain ⟨plain_r, shallow⟩ := readable_iff.mp h
  exact readable_iff.mpr ⟨plain_r.decide decides plain, shallow.decide hr decides context⟩

end Decide

lemma Verbatim.tidy {r : Request} (h : r.Verbatim) : r.tidy.Verbatim := by
  obtain ⟨payload, conditions, notes⟩ := verbatim_iff.mp h
  exact verbatim_iff.mpr ⟨payload, conditions, fun v hv => notes v (mem_notes_of_tidy hv)⟩

/-- A decision with a context whose numbers are what their texts read as keeps this of the request. -/
lemma Verbatim.decide {r : Request} (h : r.Verbatim) (hr : r.Lifecycle) {actor : Actor} {d : Decision}
    {now : Instant} {x : Decided} (decides : r.decide actor d now = .ok x)
    (context : ∀ v, d.context = some v → v.Verbatim) : x.request.Verbatim := by
  obtain ⟨payload, conditions, notes⟩ := verbatim_iff.mp h
  rw [verbatim_iff, payload_of_decide decides, plan_of_decide decides]
  refine ⟨payload, conditions, ?_⟩
  intro v hv
  exact (mem_notes_of_decide hr decides hv).elim (notes v) (context v)

/-- The row takes over all that a decision on what it reads back as has changed. -/
lemma Verbatim.updateRow_decide {row r : Request} (hv : row.Verbatim) (hr : row.Lifecycle)
    (reads : row.readBack? = some r) {actor : Actor} {d : Decision} {now : Instant} {x : Decided}
    (decides : r.decide actor d now = .ok x) : Store.updateRow row x.request = x.request := by
  rw [eq_of_decide decides, hv.eq_tidy_of_readBack? hr reads]
  rfl

/-- The row takes over all that marking it as escalated has changed. -/
lemma Verbatim.updateRow_escalated {row r marked : Request} (hv : row.Verbatim) (hr : row.Lifecycle)
    (reads : row.readBack? = some r) {escalate : Bool} {now : Instant}
    (marks : Sweep.escalated escalate now r = some marked) : Store.updateRow row marked = marked := by
  obtain ⟨-, -, rfl⟩ := Sweep.escalated_eq_some.mp marks
  rw [hv.eq_tidy_of_readBack? hr reads]
  rfl

end Request

end Approval
