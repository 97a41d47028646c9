import Approval.Proofs.Store.Verbatim

/-!
# What becomes of a request

A request keeps what it was started with and the steps that it left behind. Each change of it moves its
version on by one and stores its steps again as they were read, so that what is written again of an old step
is the record with the numbers that the text of its note read as. A request that is over does not change any
more.
-/

namespace Approval

/-! ### Records that are stored again -/

namespace StepRecord

variable {s : StepRecord}

/-- The record without its note. -/
def bare (s : StepRecord) : StepRecord := { s with note := none }

lemma Settled.isPending (h : s.Settled) : s.isPending = false := by
  obtain ⟨outcome, -, -, -, -, -, status, -⟩ := h
  rw [StepRecord.isPending, status]
  exact StepStatus.isPending_ofOutcome outcome

lemma Settled.iterate (h : s.Settled) (n : Nat) : (StepRecord.asRead^[n] s).Settled := by
  induction n with
  | zero => exact h
  | succ n ih =>
    rw [Function.iterate_succ_apply']
    exact ih.asRead

/-- The status of the record is the one that its label reads as. -/
def Labelled (s : StepRecord) : Prop := StepStatus.ofLabel s.status.label = s.status

lemma Settled.labelled (h : s.Settled) : s.Labelled := h.ofLabel_status

lemma Labelled.asRead (h : s.Labelled) : s.asRead.Labelled := by
  rw [Labelled, asRead_status h]
  exact h

lemma Labelled.iterate (h : s.Labelled) (n : Nat) : (StepRecord.asRead^[n] s).Labelled := by
  induction n with
  | zero => exact h
  | succ n ih =>
    rw [Function.iterate_succ_apply']
    exact ih.asRead

lemma Labelled.bare_asRead (h : s.Labelled) : s.asRead.bare = s.bare := by
  rw [asRead_eq, bare, bare, asRead_status h]

/-- A record that is stored again any number of times is the same one but for its note. -/
lemma Labelled.bare_iterate (h : s.Labelled) (n : Nat) : (StepRecord.asRead^[n] s).bare = s.bare := by
  induction n with
  | zero => rfl
  | succ n ih => rw [Function.iterate_succ_apply', (h.iterate n).bare_asRead, ih]

/-- The numbers in the note of the record are what their texts read as. -/
def Verbatim (s : StepRecord) : Prop := ∀ v, s.note = some v → v.Verbatim

lemma Verbatim.tidy (h : s.Verbatim) : s.tidy.Verbatim := by
  intro v named
  apply h v
  unfold StepRecord.tidy at named
  unfold tidyNote at named
  split at named
  · exact absurd named (by simp)
  · exact named

/-- A record whose numbers are what their texts read as is read with or without its null note. -/
lemma Verbatim.asRead_cases (h : s.Verbatim) (labelled : s.Labelled) : s.asRead = s ∨ s.asRead = s.tidy := by
  unfold asRead
  cases reads : s.readBack? with
  | none => exact .inl rfl
  | some t => exact .inr ((StepRecord.readBack?_eq_some_iff h labelled).mp reads).2

lemma Verbatim.tidy_iterate (h : s.Verbatim) (labelled : s.Labelled) (n : Nat) :
    (StepRecord.asRead^[n] s).Verbatim ∧ (StepRecord.asRead^[n] s).tidy = s.tidy := by
  induction n with
  | zero => exact ⟨h, rfl⟩
  | succ n ih =>
    obtain ⟨verbatim, same⟩ := ih
    rw [Function.iterate_succ_apply']
    rcases verbatim.asRead_cases (labelled.iterate n) with read | read
    · rw [read]
      exact ⟨verbatim, same⟩
    · rw [read, tidy_tidy]
      exact ⟨verbatim.tidy, same⟩

end StepRecord

/-! ### Steps that were left behind -/

namespace Request

/-- The steps that are closed, in order. -/
def past (r : Request) : List StepRecord := r.steps.filter fun s => !s.isPending

variable {r q : Request}

@[simp] lemma mem_past {s : StepRecord} : s ∈ r.past ↔ s ∈ r.steps ∧ s.isPending = false := by
  simp [past]

lemma past_of_steps {before : List StepRecord} {last : StepRecord} (hs : r.steps = before ++ [last])
    (pending : last.isPending = true) (closed : ∀ s ∈ before, s.isPending = false) : r.past = before := by
  rw [past, hs, List.filter_append, List.filter_eq_self.mpr (by simpa using closed)]
  simp [pending]

/-- The closed steps of a row are read as the closed steps. -/
lemma past_of_readBack? {row : Request} (hr : row.Lifecycle) (reads : row.readBack? = some r) :
    r.past = row.past.map StepRecord.asRead := by
  rw [past, past, steps_of_readBack? reads, List.filter_map]
  congr 1
  apply List.filter_congr
  intro s hs
  simp [hr.isPending_asRead hs]

namespace Lifecycle

lemma settled_of_mem_past (hr : r.Lifecycle) {s : StepRecord} (h : s ∈ r.past) : s.Settled := by
  obtain ⟨mem, closed⟩ := mem_past.mp h
  exact hr.settled s mem closed

/-- The closed steps are the first ones. -/
lemma past_isPrefix (hr : r.Lifecycle) : r.past <+: r.steps := by
  cases isOpen : r.isOpen with
  | false =>
    have all : r.past = r.steps := List.filter_eq_self.mpr (by simpa using hr.finished isOpen)
    exact all ▸ List.prefix_rfl
  | true =>
    obtain ⟨before, last, hs, pending, closed⟩ := hr.waiting isOpen
    rw [past_of_steps hs pending closed, hs]
    exact List.prefix_append before [last]

/-- A decision keeps the closed steps. -/
lemma past_isPrefix_decide (hr : r.Lifecycle) {actor : Actor} {d : Decision} {now : Instant} {x : Decided}
    (decides : r.decide actor d now = .ok x) : r.past <+: x.request.steps := by
  obtain ⟨before, record, step, overridden, outcome, rule, hs, pending, closed, -, advanced, -⟩ :=
    hr.decide_eq_ok decides
  obtain ⟨rest, steps⟩ := advanced.exists_steps
  rw [past_of_steps hs pending closed, steps, List.append_assoc]
  exact List.prefix_append before _

end Lifecycle

/-! ### What becomes of a request -/

/-- The second request is what has become of the first one. -/
structure Becomes (r q : Request) : Prop where
  /-- Only the status, the version, the steps and the times of the last change and of the end differ. -/
  same : q =
    { r with
      status := q.status
      version := q.version
      steps := q.steps
      updatedAt := q.updatedAt
      completedAt := q.completedAt }
  version : r.version ≤ q.version
  /-- The closed steps come first, read and stored again with each version. -/
  past : r.past.map StepRecord.asRead^[(q.version - r.version).toNat] <+: q.steps
  /-- Whatever changes has another version. -/
  unchanged : q.version = r.version → q = r
  /-- What is over stays as it is. -/
  final : r.isOpen = false → q = r

namespace Becomes

lemma refl (hr : r.Lifecycle) : r.Becomes r where
  same := rfl
  version := Int.le_refl _
  past := by
    rw [Int.sub_self, Int.toNat_zero, Function.iterate_zero, List.map_id]
    exact hr.past_isPrefix
  unchanged := fun _ => rfl
  final := fun _ => rfl

/-- The closed steps are among those of what the request becomes. -/
lemma past_isPrefix_past (h : r.Becomes q) (hr : r.Lifecycle) :
    r.past.map StepRecord.asRead^[(q.version - r.version).toNat] <+: q.past := by
  have closed : ∀ s ∈ r.past.map StepRecord.asRead^[(q.version - r.version).toNat], s.isPending = false := by
    intro s mem
    obtain ⟨t, ht, rfl⟩ := List.mem_map.mp mem
    exact ((hr.settled_of_mem_past ht).iterate _).isPending
  have kept := h.past.filter fun s => !s.isPending
  rwa [List.filter_eq_self.mpr (by simpa using closed)] at kept

lemma trans {p : Request} (h : r.Becomes q) (h' : q.Becomes p) (hr : r.Lifecycle) : r.Becomes p where
  same := by rw [h'.same, h.same]
  version := Int.le_trans h.version h'.version
  past := by
    -- What was closed at the first point is stored again up to the second one, and from there on with the rest.
    have total : (p.version - r.version).toNat =
        (p.version - q.version).toNat + (q.version - r.version).toNat := by
      have := h.version
      have := h'.version
      omega
    rw [total, Function.iterate_add, ← List.map_map]
    exact ((h.past_isPrefix_past hr).map _).trans h'.past
  unchanged := by
    intro same
    have between : q.version = r.version := Int.le_antisymm (same ▸ h'.version) h.version
    rw [h'.unchanged (same.trans between.symm), h.unchanged between]
  final := by
    intro closed
    have first := h.final closed
    rw [h'.final (by rw [first]; exact closed), first]

/-- A row that is stored again with the next version, from what it read back as. -/
lemma of_next {row new : Request} (reads : row.readBack? = some r) (isOpen : r.isOpen = true)
    (version : new.version = r.version + 1) (hr : row.Lifecycle) (past : r.past <+: new.steps) :
    row.Becomes (Store.updateRow row new) where
  same := rfl
  version := by
    simp only [Store.updateRow, version, version_of_readBack? reads]
    omega
  past := by
    have once : ((Store.updateRow row new).version - row.version).toNat = 1 := by
      simp only [Store.updateRow, version, version_of_readBack? reads]
      omega
    rw [once, Function.iterate_one, ← past_of_readBack? hr reads]
    exact past
  unchanged := by
    simp only [Store.updateRow, version, version_of_readBack? reads]
    omega
  final := by
    rw [Request.isOpen, status_of_readBack? reads] at isOpen
    simp [Request.isOpen, isOpen]

lemma updateRow_decide {row : Request} (hr : row.Lifecycle) (reads : row.readBack? = some r) {actor : Actor}
    {d : Decision} {now : Instant} {x : Decided} (decides : r.decide actor d now = .ok x) :
    row.Becomes (Store.updateRow row x.request) := by
  obtain ⟨_, _, _, _, _, grounds, -⟩ := decide_eq_ok_iff.mp decides
  exact of_next reads (isOpen_of_not_isTerminal grounds.isOpen) (version_of_decide decides) hr
    ((hr.readBack reads).past_isPrefix_decide decides)

lemma updateRow_escalated {row marked : Request} (hr : row.Lifecycle) (reads : row.readBack? = some r)
    {escalate : Bool} {now : Instant} (marks : Sweep.escalated escalate now r = some marked) :
    row.Becomes (Store.updateRow row marked) := by
  obtain ⟨-, inProgress, rfl⟩ := Sweep.escalated_eq_some.mp marks
  refine of_next reads ?_ rfl hr (hr.readBack reads).past_isPrefix
  rw [Request.isOpen, inProgress]
  rfl

end Becomes

/-- What has become of a request, and what is the same in the closed steps: all but their notes, and these
as well if their numbers are what their texts read as. -/
structure Extends (r q : Request) : Prop extends r.Becomes q where
  bare : r.past.map StepRecord.bare <+: q.steps.map StepRecord.bare
  verbatim : (∀ s ∈ r.past, s.Verbatim) → r.past.map StepRecord.tidy <+: q.steps.map StepRecord.tidy

/-- What reading and storing a closed step does not change is the same in what the request becomes. -/
lemma Becomes.map_isPrefix {f : StepRecord → StepRecord} (h : r.Becomes q)
    (same : ∀ s ∈ r.past, ∀ n, f (StepRecord.asRead^[n] s) = f s) : r.past.map f <+: q.steps.map f := by
  have kept := h.past.map f
  have read : (r.past.map StepRecord.asRead^[(q.version - r.version).toNat]).map f = r.past.map f := by
    rw [List.map_map]
    exact List.map_congr_left fun s mem => same s mem _
  rwa [read] at kept

lemma Becomes.toExtends (h : r.Becomes q) (hr : r.Lifecycle) : r.Extends q where
  toBecomes := h
  bare := h.map_isPrefix fun _ mem n => (hr.settled_of_mem_past mem).labelled.bare_iterate n
  verbatim := fun verbatim => h.map_isPrefix fun s mem n =>
    ((verbatim s mem).tidy_iterate (hr.settled_of_mem_past mem).labelled n).2

end Request

end Approval
