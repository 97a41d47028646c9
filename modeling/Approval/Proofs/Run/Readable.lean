import Approval.Proofs.Run.Rows
import Approval.Service.Requests
import Approval.Service.Tasks

/-!
# Rows that can be read

After calls in years of four digits, with payloads that text may nest, a stored request can be read unless
a condition or a note nests too deep where it stands in the row. One open request that cannot be read is
enough for tasks, counts and sweeps to fail.
-/

namespace Approval

/-! ### Runs -/

/-- The call is made in a year of four digits, and a payload that it hands in is no deeper than text may
nest. -/
structure Act.Plain (a : Act) : Prop where
  now : a.context.now.hasPlainYear = true
  payload : ∀ id requester payload, a.call = .start id requester payload → payload.Fits 0

/-- Plain calls leave plain requests. -/
lemma readInvariant_plain : ReadInvariant Act.Plain (fun _ => True) Request.Plain where
  created _ _ := trivial
  switched _ _ := trivial
  started act _ made := by
    obtain ⟨_, _, -, -, rfl⟩ := Workflow.request_eq_ok_iff.mp made
    exact ⟨act.payload _ _ _ rfl, act.now, act.now, by simp⟩
  tidy before := before.tidy
  decided act _ before decides := before.decide decides act.now
  escalated act _ before marks := by
    obtain ⟨-, -, rfl⟩ := Sweep.escalated_eq_some.mp marks
    exact ⟨before.payload, before.createdAt, act.now, before.completedAt⟩

/-- What holds of the requests of a store so that they can be read but for what nests too deep. -/
structure Store.Legible (s : Store) : Prop where
  keyed : s.Keyed
  alive : s.Alive
  verbatim : ∀ r ∈ s.requests, r.Verbatim
  plain : ∀ r ∈ s.requests, r.Plain

variable [Supply] in
/-- After plain calls requests can be read but for what nests too deep. -/
theorem World.legible_after (acts : List Act) (plain : ∀ a ∈ acts, a.Plain)
    (verbatim : ∀ a ∈ acts, a.Verbatim) : (World.after {} acts).store.Legible := by
  have holds := (readInvariant_plain.rowInvariant.after_empty acts fun a ha =>
    ⟨plain a ha, verbatim a ha⟩).requests
  exact ⟨World.keyed_after acts, World.alive_after acts, fun r hr => (holds r hr).1, fun r hr => (holds r hr).2⟩

/-- A context that the call hands in can be read as a note, and conditions can be read in a plan. -/
structure ServiceCall.Modest (call : ServiceCall) : Prop where
  context : ∀ v, call.context? = some v → v.Fits 2
  conditions : ∀ d createdBy, call = .createWorkflow d createdBy → ∀ v ∈ d.rules.filterMap Rule.value?, v.Fits 4

/-- Modest calls leave requests of which nothing is too deep. -/
lemma readInvariant_shallow :
    ReadInvariant (fun a => a.call.Modest) (fun wf => ∀ v ∈ wf.plan.values, v.Fits 4) Request.Shallow where
  created id act := by
    rw [Workflows.values_ofDraft]
    exact act.conditions _ _ rfl
  switched _ before := before
  started _ stored made := by
    obtain ⟨plan, -, notes⟩ := Workflow.parts_of_request made
    exact ⟨by rwa [plan], by simp [notes]⟩
  tidy before := before.tidy
  decided act alive before decides := before.decide alive decides act.context
  escalated _ _ before marks := by
    obtain ⟨-, -, rfl⟩ := Sweep.escalated_eq_some.mp marks
    exact ⟨before.conditions, before.notes⟩

variable [Supply] in
/-- After modest calls nothing of a request is too deep. -/
theorem World.shallow_after (acts : List Act) (modest : ∀ a ∈ acts, a.call.Modest)
    (verbatim : ∀ a ∈ acts, a.Verbatim) : ∀ r ∈ (World.after {} acts).store.requests, r.Shallow :=
  fun r hr => ((readInvariant_shallow.rowInvariant.after_empty acts fun a ha =>
    ⟨modest a ha, verbatim a ha⟩).requests r hr).2

/-! ### Reading -/

/-- If the condition holds the operation answers; else it fails as a row does not read back. -/
structure Operation.ReadsIf {α : Type} (p : Prop) (x : Operation α) (c : Context) (w : World) : Prop where
  answers : p → ∃ a w', x c w = (.ok a, w')
  fails : ¬p → x c w = (.error (.ofStore Store.unreadable), w)

/-- No open request nests too deep. -/
def Store.OpenShallow (s : Store) : Prop :=
  ∀ r ∈ s.requests, r.status = .inProgress ∨ r.status = .escalated → r.Shallow

lemma Store.mem_of_mem_page {s : Store} {f : RequestFilter} {r : Request}
    (h : r ∈ f.page (latestFirst (s.requests.filter f.accepts))) : r ∈ s.requests := by
  have of_page (rows : List Request) (h : r ∈ f.page rows) : r ∈ rows := by
    unfold RequestFilter.page at h
    split at h
    · exact h
    · dsimp only at h
      split_ifs at h
      · exact List.mem_of_mem_drop h
      · exact List.mem_of_mem_drop (List.mem_of_mem_take h)
  exact (List.mem_filter.mp (List.mem_mergeSort.mp (of_page _ h))).1

namespace Store.Legible

open Work Operation

variable {w : World} {c : Context} {r : Request}

lemma readBack?_eq_some_iff (h : w.store.Legible) (stored : r ∈ w.store.requests) {q : Request} :
    r.readBack? = some q ↔ r.Shallow ∧ q = r.tidy := by
  rw [(h.verbatim r stored).readBack?_eq_some_iff (h.alive r stored), Request.readable_iff,
    and_iff_right (h.plain r stored)]

lemma readBack?_eq_none (h : w.store.Legible) (stored : r ∈ w.store.requests) (deep : ¬r.Shallow) :
    r.readBack? = none := by
  rw [Option.eq_none_iff_forall_ne_some]
  exact fun q reads => deep ((h.readBack?_eq_some_iff stored).mp reads).1

/-- A request that is not too deep is read as it was stored but for null notes. -/
lemma get_eq (h : w.store.Legible) (stored : r ∈ w.store.requests) (shallow : r.Shallow) :
    Requests.get r.id c w = (.ok r.tidy, w) :=
  Requests.get_eq_ok_iff.mpr
    ⟨h.keyed.request?_eq stored ((h.readBack?_eq_some_iff stored).mpr ⟨shallow, rfl⟩), rfl⟩

/-- A request that is too deep is not read. -/
lemma get_fails (h : w.store.Legible) (stored : r ∈ w.store.requests) (deep : ¬r.Shallow) :
    Requests.get r.id c w = (.error (.ofStore unreadable), w) := by
  have found : w.store.request? r.id = .error unreadable := by
    unfold request?
    rw [h.keyed.find?_eq stored]
    simp only [readOption, Store.read, h.readBack?_eq_none stored deep]
    rfl
  simp only [Requests.get, readOr, found]

lemma listOpen (h : w.store.Legible) :
    (w.store.OpenShallow → ∃ rs, w.store.listOpen = .ok rs) ∧
      (¬w.store.OpenShallow → w.store.listOpen = .error unreadable) := by
  constructor
  · intro shallow
    refine exists_readAll fun r hr => ?_
    obtain ⟨stored, isOpen⟩ := mem_openRows.mp hr
    exact ⟨r.tidy, (h.readBack?_eq_some_iff stored).mpr ⟨shallow r stored isOpen, rfl⟩⟩
  · intro deep
    simp only [OpenShallow, not_forall] at deep
    obtain ⟨r, stored, isOpen, deep⟩ := deep
    exact readAll_of_none (mem_openRows.mpr ⟨stored, isOpen⟩) (h.readBack?_eq_none stored deep)

/-- Work that goes on from the open requests and is not given up reads if none of them is too deep. -/
lemma readsIf_of_listOpen {α : Type} (h : w.store.Legible) {x : Operation α}
    {f : List Request → Operation α} (run : x c w = (Operation.read (·.listOpen) >>= f) c w)
    (sure : ∀ rs, ∃ a w', f rs c w = (.ok a, w')) : x.ReadsIf w.store.OpenShallow c w where
  answers := by
    intro shallow
    obtain ⟨rs, listed⟩ := h.listOpen.1 shallow
    rw [run, bind_of_ok (Operation.read_eq_ok_iff.mpr ⟨listed, rfl⟩)]
    exact sure rs
  fails := by
    intro deep
    rw [run, bind_of_error (Operation.read_eq_error_iff.mpr ⟨_, h.listOpen.2 deep, rfl, rfl⟩)]

lemma readsIf_tasks (h : w.store.Legible) (actor : Actor) :
    (Tasks.of actor).ReadsIf w.store.OpenShallow c w :=
  h.readsIf_of_listOpen rfl fun _ => ⟨_, w, rfl⟩

lemma readsIf_dashboard (h : w.store.Legible) : Tasks.dashboard.ReadsIf w.store.OpenShallow c w :=
  h.readsIf_of_listOpen rfl fun _ => ⟨_, w, rfl⟩

variable [Supply] in
lemma readsIf_sweep (h : w.store.Legible) : Sweep.once.ReadsIf w.store.OpenShallow c w :=
  h.readsIf_of_listOpen rfl fun _ => Sweep.recordAll_sure _ _ c w

/-- A list of requests is read if none of them is too deep. -/
lemma list_eq (h : w.store.Legible) (shallow : ∀ r ∈ w.store.requests, r.Shallow) (f : RequestFilter) :
    ∃ rs, Requests.list f c w = (.ok rs, w) := by
  have reads (row : Request) (stored : row ∈ w.store.requests) : ∃ r, row.readBack? = some r :=
    ⟨row.tidy, (h.readBack?_eq_some_iff stored).mpr ⟨shallow row stored, rfl⟩⟩
  obtain ⟨rs, listed⟩ := exists_readAll fun row hr => reads row (mem_of_mem_page hr)
  exact ⟨rs, Operation.read_eq_ok_iff.mpr ⟨listed, rfl⟩⟩

end Store.Legible

end Approval
