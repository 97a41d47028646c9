import Approval.Json.Writer
import Approval.Proofs.Request.Growth
import Approval.Proofs.Run.Lifecycle

/-!
# What is never taken back

Whatever is asked of the service, a stored request stays and is only added to, and so does the audit log.
What was written of a closed step is the exception: it is read and written again with each change of its
request, and not every number is read as it was written.
-/

namespace Approval

/-- The second store is what has become of the first one: each request has gone on, and the audit log was
only added to. -/
structure Store.Grows (s t : Store) : Prop where
  requests : ∀ r ∈ s.requests, ∃ q ∈ t.requests, r.Becomes q
  audit : s.audit <+: t.audit

namespace Store.Grows

variable {s t u : Store}

lemma of_subset (alive : s.Alive) (requests : s.requests ⊆ t.requests) (audit : s.audit <+: t.audit) :
    s.Grows t where
  requests := fun r hr => ⟨r, requests hr, .refl (alive r hr)⟩
  audit := audit

lemma refl (alive : s.Alive) : s.Grows s := .of_subset alive (List.Subset.refl _) List.prefix_rfl

lemma trans (h : s.Grows t) (h' : t.Grows u) (alive : s.Alive) : s.Grows u where
  requests := by
    intro r hr
    obtain ⟨q, hq, becomes⟩ := h.requests r hr
    obtain ⟨p, hp, becomes'⟩ := h'.requests q hq
    exact ⟨p, hp, becomes.trans becomes' (alive r hr)⟩
  audit := h.audit.trans h'.audit

end Store.Grows

/-! ### Changes -/

section Supplied

variable [Supply]

section Changes

variable {c : Context} {w w' : World}

/-- Recording a finding makes the store grow if it is about what a row reads back as. -/
lemma Sweep.grows_breached {escalate : Bool} {now : Instant} {f : Finding} (hk : w.store.Keyed)
    (alive : w.store.Alive)
    (current : (escalated escalate now f.request).isSome = true →
      ∃ row ∈ w.store.requests, row.readBack? = some f.request) :
    w.store.Grows (breached escalate now f w).store where
  requests := by
    intro r hr
    rcases mem_escalatedBy_or hk current hr with same | ⟨reads, marked, marks, mem⟩
    · exact ⟨r, same, .refl (alive r hr)⟩
    · exact ⟨_, mem, .updateRow_escalated (alive r hr) reads marks⟩
  audit := List.prefix_append _ _

/-- With every change the store grows. -/
lemma Change.grows (h : Change c w w') (hk : w.store.Keyed) (alive : w.store.Alive) :
    w.store.Grows w'.store := by
  have audit : w.store.audit <+: w'.store.audit := by
    rcases h.audit with same | ⟨note, added⟩
    · exact same ▸ List.prefix_rfl
    · exact added ▸ List.prefix_append _ _
  cases h with
  | directory only =>
    rw [only.1]
    exact .of_subset alive (List.Subset.refl _) List.prefix_rfl
  | workflowCreated | workflowSwitched | workflowRemoved =>
    exact .of_subset alive (List.Subset.refl _) audit
  | requestStarted => exact .of_subset alive (List.subset_append_left _ _) audit
  | @requestDecided row _ _ _ _ stored reads decides =>
    refine ⟨fun r hr => ?_, audit⟩
    have member {q : Request} := Requests.mem_requests_decided (q := q) hk stored reads decides
    by_cases same : r.id = row.id
    · obtain rfl := hk.eq_of_id hr stored same
      exact ⟨_, member.mpr (.inr rfl), .updateRow_decide (alive r hr) reads decides⟩
    · exact ⟨r, member.mpr (.inl ⟨hr, same⟩), .refl (alive r hr)⟩
  | stepLate breached =>
    cases breached with
    | intro escalate stored reads => exact Sweep.grows_breached hk alive fun _ => ⟨_, stored, reads⟩

end Changes

/-! ### Runs -/

@[simp] lemma World.after_append (w : World) (acts more : List Act) :
    w.after (acts ++ more) = (w.after acts).after more :=
  List.foldl_append

/-- What a store has become, and what is the same in it. -/
structure Store.Extends (s t : Store) : Prop where
  requests : ∀ r ∈ s.requests, ∃ q ∈ t.requests, r.Extends q
  audit : s.audit <+: t.audit

/-- At any two points of a run, the store at the later one is what has become of the store at the earlier
one. -/
theorem World.extends_after (acts more : List Act) :
    (World.after {} acts).store.Extends (World.after {} (acts ++ more)).store := by
  -- The invariant speaks of the earlier store, so the induction is on the calls after it only.
  have alive := World.alive_after acts
  have start : (World.after {} acts).store.Alive ∧
      (World.after {} acts).store.Grows (World.after {} acts).store := ⟨alive, .refl alive⟩
  rw [World.after_append]
  obtain ⟨-, -, grows⟩ := World.after_preserves
    (P := fun u => u.store.Alive ∧ (World.after {} acts).store.Grows u.store) (World.keyed_after acts) start
    (fun c u v hk before change =>
      ⟨change.alive hk before.1, before.2.trans (change.grows hk before.1) alive⟩) more
  refine ⟨fun r hr => ?_, grows.audit⟩
  obtain ⟨q, hq, becomes⟩ := grows.requests r hr
  exact ⟨q, hq, becomes.toExtends (alive r hr)⟩

end Supplied

/-! ### A step that is written again -/

namespace Leave

/-- A context with a number that does not read as it is written: `1e-50` and `9.999999999999999e-51` each
read as the other one. -/
def context : Json := (Json.read? "\x7b\"x\":1e-50\x7d").getD .null

/-- The request is taken again twice, the first time with the context. -/
def twiceAgain : List Act :=
  [⟨clock 12, .createWorkflow draft none⟩,
   ⟨clock 12, .start (.serial .workflow 1) admin.userId .null⟩,
   ⟨clock 13, .process request admin { outcome := "MORE", context := some context }⟩,
   ⟨clock 14, .process request admin { outcome := "MORE" }⟩]

/-- The text of the first note of steps. -/
def firstNote (steps : List StepRecord) : Option String := (steps.head?.bind (·.note)).map Json.compact

lemma firstNote_of_isPrefix {before after : List StepRecord} (h : before <+: after)
    (named : (firstNote before).isSome = true) : firstNote after = firstNote before := by
  obtain ⟨rest, rfl⟩ := h
  cases before with
  | nil => exact Bool.noConfusion named
  | cons s before => rfl

/-- Once the second step of the request is decided, its first step, closed before, is another one. -/
theorem past_drifts :
    ∃ r ∈ (World.after {} (twiceAgain.take 3)).store.requests, ∀ q ∈ (World.after {} twiceAgain).store.requests,
      q.id = r.id → ¬r.past.map StepRecord.tidy <+: q.steps.map StepRecord.tidy := by
  have first : ∃ r ∈ (World.after {} (twiceAgain.take 3)).store.requests,
      firstNote (r.past.map StepRecord.tidy) = some "\x7b\"x\":9.999999999999999e-51\x7d" := by
    decide +kernel
  have second : ∀ q ∈ (World.after {} twiceAgain).store.requests,
      firstNote (q.steps.map StepRecord.tidy) = some "\x7b\"x\":1e-50\x7d" := by
    decide +kernel
  obtain ⟨r, stored, note⟩ := first
  refine ⟨r, stored, fun q later _ kept => ?_⟩
  have same := firstNote_of_isPrefix kept (by rw [note]; rfl)
  rw [second q later, note] at same
  exact absurd same (by decide)

end Leave

end Approval
