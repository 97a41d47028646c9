import Approval.Proofs.Run.History

/-!
# What versions and escalations count

Every decision and, if late requests are escalated, every recorded breach moves the version of its request on
by one. An open request is then marked as escalated exactly while a breach of the step that it waits at is
recorded: the two are written at once, and a decision leads to a step of a new position.
-/

namespace Approval

open Relation

/-! ### Requests -/

namespace Request

/-- A breach of the step that the request waits at is among the recorded ones. -/
def KnownLate (r : Request) (breaches : List Breach) : Prop :=
  ∃ b ∈ breaches, ∃ s : StepRecord, r.steps[b.position]? = some s ∧ s.isPending = true

/-- What the version of a request counts, and when it is marked as escalated, given its recorded breaches. -/
structure Tallied (escalate : Bool) (r : Request) (breaches : List Breach) : Prop where
  /-- The version counts the closed steps and, if late requests are escalated, the breaches. -/
  version : r.version = 1 + r.closedCount + if escalate then breaches.length else 0
  /-- If late requests are not escalated, no request is. -/
  calm : escalate = false → r.status ≠ .escalated
  /-- If they are, an open request is marked as escalated exactly if its pending step is known to be late. -/
  marked : escalate = true → r.isOpen = true → (r.status = .escalated ↔ r.KnownLate breaches)

variable {r : Request} {escalate : Bool} {breaches : List Breach}

/-- The steps that a request had are closed after a decision. -/
lemma Lifecycle.closed_of_decide (hr : r.Lifecycle) {actor : Actor} {d : Decision} {now : Instant}
    {x : Decided} (decides : r.decide actor d now = .ok x) {i : Nat} {s : StepRecord}
    (below : i < r.steps.length) (found : x.request.steps[i]? = some s) : s.isPending = false := by
  obtain ⟨before, record, step, overridden, outcome, rule, hs, -, closed, -, advanced, -⟩ :=
    hr.decide_eq_ok decides
  obtain ⟨rest, steps⟩ := advanced.exists_steps
  rw [hs, List.length_append, List.length_singleton] at below
  rw [steps, List.getElem?_append_left (by simpa using below)] at found
  rcases List.mem_append.mp (List.mem_of_getElem? found) with old | last
  · exact closed s old
  · rw [List.mem_singleton.mp last, StepRecord.isPending_close]

namespace Tallied

lemma of_request {wf : Workflow} {id : RequestId} {requester : UserId} {payload : Json} {now : Instant}
    (made : wf.request id requester payload now = .ok r) : r.Tallied escalate [] := by
  obtain ⟨first, deadline, -, -, rfl⟩ := Workflow.request_eq_ok_iff.mp made
  exact
    { version := by simp [closedCount]
      calm := by simp
      marked := by simp [KnownLate] }

/-- Breaches do not count if late requests are not escalated. -/
lemma of_calm (h : r.Tallied false breaches) {others : List Breach} : r.Tallied false others where
  version := h.version
  calm := h.calm
  marked := fun on => Bool.noConfusion on

/-- A row that takes over a decision counts one more closed step, and waits at a new step or nowhere. -/
lemma updateRow_decide {row : Request} (h : row.Tallied escalate breaches) (hr : row.Lifecycle)
    (known : ∀ b ∈ breaches, b.position < row.steps.length) (reads : row.readBack? = some r) {actor : Actor}
    {d : Decision} {now : Instant} {x : Decided} (decides : r.decide actor d now = .ok x) :
    (Store.updateRow row x.request).Tallied escalate breaches where
  version := by
    have count : (Store.updateRow row x.request).closedCount = row.closedCount + 1 := by
      rw [← closedCount_of_readBack? hr reads, ← closedCount_of_decide (hr.readBack reads) decides]
      rfl
    have version : (Store.updateRow row x.request).version = row.version + 1 := by
      rw [← version_of_readBack? reads, ← version_of_decide decides]
      rfl
    rw [count, version, h.version]
    omega
  calm := fun _ => status_ne_escalated_of_decide decides
  marked := by
    intro _ _
    -- Breaches are of steps that were there before, and these are all closed now.
    refine iff_of_false (status_ne_escalated_of_decide decides) ?_
    rintro ⟨b, hb, s, found, pending⟩
    have below : b.position < r.steps.length := by
      rw [steps_of_readBack? reads, List.length_map]
      exact known b hb
    rw [(hr.readBack reads).closed_of_decide decides below found] at pending
    exact Bool.noConfusion pending

/-- A request whose pending step is late, and not known to be, is in progress, and escalating it counts the
breach. -/
lemma late {row : Request} (h : row.Tallied escalate breaches) (hr : row.Lifecycle)
    (reads : row.readBack? = some r) (isOpen : row.status = .inProgress ∨ row.status = .escalated)
    {now : Instant} {f : Sweep.Finding} (found : f ∈ Sweep.findingsOf now r)
    (new : ∀ b ∈ breaches, b.position ≠ f.position) (on : escalate = true) :
    ∃ marked, Sweep.escalated escalate now r = some marked ∧
      (Store.updateRow row marked).Tallied escalate (breaches ++ [f.breach now]) := by
  obtain ⟨-, at_position, -, is_late⟩ := Sweep.mem_findingsOf.mp found
  have pending := Sweep.isPending_of_isLate is_late
  have last : f.position + 1 = row.steps.length := by
    rw [(hr.readBack reads).succ_eq_length at_position pending, steps_of_readBack? reads, List.length_map]
  have inProgress : row.status = .inProgress := by
    refine isOpen.resolve_right fun escalated => ?_
    have is_open : row.isOpen = true := by
      rw [Request.isOpen, escalated]
      rfl
    -- A mark tells of a breach of the last step, which is the late one.
    obtain ⟨b, hb, s, known, waits⟩ := (h.marked on is_open).mp escalated
    have same := hr.succ_eq_length known waits
    exact new b hb (by omega)
  refine ⟨_, Sweep.escalated_eq_some.mpr ⟨on, (status_of_readBack? reads).trans inProgress, rfl⟩, ?_⟩
  exact
    { version := by
        have count : r.closedCount = row.closedCount := closedCount_of_readBack? hr reads
        have version : r.version = row.version := version_of_readBack? reads
        change r.version + 1 = 1 + (r.closedCount : Int) + _
        rw [version, count, h.version]
        simp [on]
        omega
      calm := by simp [on]
      marked := fun _ _ => iff_of_true rfl ⟨f.breach now, by simp, f.step, at_position, pending⟩ }

end Tallied

end Request

/-! ### Stores -/

/-- The versions and the marks of all requests are right. -/
def Store.Tallies (escalate : Bool) (s : Store) : Prop :=
  ∀ r ∈ s.requests, r.Tallied escalate (s.breachesOf r.id)

section Supplied

variable [Supply]

section Stores

variable {c : Context} {w w' : World} {escalate : Bool}

omit [Supply] in
lemma Store.Tallies.of_same {s t : Store} (h : s.Tallies escalate) (requests : t.requests = s.requests)
    (breaches : t.breaches = s.breaches) : t.Tallies escalate := by
  rw [Tallies, requests]
  unfold Store.breachesOf
  rw [breaches]
  exact h

lemma Sweep.BreachedBy.tallies (h : BreachedBy escalate c w w') (hk : w.store.Keyed) (told : w.store.Told)
    (tallies : w.store.Tallies escalate) : w'.store.Tallies escalate := by
  cases h with
  | @intro f row stored reads isOpen late recordable =>
    have about : f.request.id = row.id := Request.id_of_readBack? reads
    have own : (Sweep.breached escalate c.now f w).store.breachesOf row.id =
        w.store.breachesOf row.id ++ [f.breach c.now] :=
      Store.breachesOf_append rfl (by simpa [Finding.breach] using about)
    have new : ∀ b ∈ w.store.breachesOf row.id, b.position ≠ f.position := by
      intro b hb same
      obtain ⟨mem, hid⟩ := List.mem_filter.mp hb
      have other := recordable.new b mem
      simp [Breach.isSame, Finding.breach, same, about, of_decide_eq_true hid] at other
    have marks (on : escalate = true) :=
      (tallies row stored).late (told.alive row stored) reads isOpen late new on
    intro q hq
    rcases mem_escalatedBy hq with ⟨old, unmarked⟩ | ⟨found, mem, marked, same, marked_eq, rfl⟩
    · by_cases same : q.id = row.id
      · obtain rfl := hk.eq_of_id old stored same
        -- A late request that is not marked is one that is not to be.
        have off : escalate = false := by
          refine Bool.eq_false_iff.mpr fun on => ?_
          obtain ⟨marked, some_marked, -⟩ := marks on
          rw [unmarked about.symm] at some_marked
          cases some_marked
        subst off
        exact (tallies q old).of_calm
      · have others : (Sweep.breached escalate c.now f w).store.breachesOf q.id = w.store.breachesOf q.id :=
          Store.breachesOf_append_of_ne rfl (by simpa [Finding.breach, about] using Ne.symm same)
        rw [others]
        exact tallies q old
    · obtain rfl := hk.eq_of_id mem stored (same.trans about)
      obtain ⟨marked', some_marked, tallied⟩ := marks (escalated_eq_some.mp marked_eq).1
      obtain rfl := Option.some.inj (some_marked.symm.trans marked_eq)
      change (Store.updateRow found marked').Tallied escalate (Store.breachesOf _ found.id)
      rw [own]
      exact tallied

/-- What a sweep under the setting keeps right. -/
lemma Sweep.tallies_once (setting : c.settings.sweep.escalate = escalate) (hk : w.store.Keyed)
    (told : w.store.Told) (tallies : w.store.Tallies escalate) : (once c w).2.store.Tallies escalate := by
  have breached := once_by (c := c) hk
  rw [setting] at breached
  generalize (once c w).2 = w' at breached ⊢
  have all : w'.store.Keyed ∧ w'.store.Told ∧ w'.store.Tallies escalate := by
    induction breached with
    | refl => exact ⟨hk, told, tallies⟩
    | tail _ step ih =>
      obtain ⟨hk, told, tallies⟩ := ih
      have change := Change.stepLate step.breached
      exact ⟨change.keyed hk, change.told hk told, step.tallies hk told tallies⟩
  exact all.2.2

/-- Every call under the setting keeps versions and marks right. -/
lemma ServiceCall.tallies_run (setting : c.settings.sweep.escalate = escalate) (hk : w.store.Keyed)
    (told : w.store.Told) (tallies : w.store.Tallies escalate) (call : ServiceCall) :
    (call.run c w).store.Tallies escalate := by
  by_cases sweeps : call = .sweep
  · rw [sweeps]
    exact Sweep.tallies_once setting hk told tallies
  · have effect := call.run_effect (c := c) hk
    generalize call.run c w = w' at effect ⊢
    cases effect with
    | nothing => exact tallies
    | directory only =>
      obtain ⟨only, -⟩ := only
      refine tallies.of_same ?_ ?_
      all_goals rw [only]
    | created => exact tallies.of_same rfl rfl
    | switched => exact tallies.of_same rfl rfl
    | removed => exact tallies.of_same rfl rfl
    | started found active made new =>
      intro q hq
      rcases List.mem_append.mp hq with old | last
      · exact tallies q old
      · obtain rfl := List.mem_singleton.mp last
        change q.Tallied escalate (w.store.breachesOf q.id)
        rw [told.breachesOf_eq_nil new]
        exact .of_request made
    | @decided row _ _ _ _ stored reads decides =>
      intro q hq
      rcases (Requests.mem_requests_decided hk stored reads decides).mp hq with ⟨old, -⟩ | rfl
      · exact tallies q old
      · refine (tallies row stored).updateRow_decide (told.alive row stored) ?_ reads decides
        intro b hb
        obtain ⟨s, found, -⟩ := (told.history row stored).known b hb
        exact (List.getElem?_eq_some_iff.mp found).1
    | swept => exact absurd rfl sweeps

end Stores

/-! ### Runs -/

/-- Calls under the setting keep versions and marks right. -/
lemma World.tallies_after {escalate : Bool} {w : World} (hk : w.store.Keyed) (told : w.store.Told)
    (tallies : w.store.Tallies escalate) (acts : List Act)
    (setting : ∀ a ∈ acts, a.context.settings.sweep.escalate = escalate) :
    (w.after acts).store.Tallies escalate := by
  induction acts generalizing w with
  | nil => exact tallies
  | cons a acts ih =>
    obtain ⟨hk', told'⟩ := World.after_preserves (P := (·.store.Told)) hk told
      (fun _ _ _ hk told change => change.told hk told) [a]
    have tallies' := ServiceCall.tallies_run (setting a List.mem_cons_self) hk told tallies a.call
    exact ih hk' told' tallies' fun b hb => setting b (List.mem_cons_of_mem a hb)

/-- After any calls under one setting of escalation, the version of every request is one more than its closed
steps and, if late requests are escalated, its breaches, and it is marked as escalated accordingly. -/
theorem World.tallied_after (acts : List Act) (escalate : Bool)
    (setting : ∀ a ∈ acts, a.context.settings.sweep.escalate = escalate) {r : Request}
    (h : r ∈ (World.after {} acts).store.requests) :
    r.Tallied escalate ((World.after {} acts).store.breachesOf r.id) :=
  World.tallies_after World.keyed_empty (World.told_after []) (by simp [Store.Tallies]) acts setting r h

end Supplied

/-- The act under another setting of escalation. -/
def Act.escalating (escalate : Bool) (a : Act) : Act :=
  let settings := a.context.settings
  { a with context := { a.context with settings := { settings with sweep := { settings.sweep with escalate } } } }

/-- Where late requests are escalated, the request that is late has the mark, and its version counts the
breach. -/
theorem Leave.tallied_of_late :
    (∀ a ∈ (run.take 3).map (Act.escalating true), a.context.settings.sweep.escalate = true) ∧
      let s := (World.after {} ((run.take 3).map (Act.escalating true))).store
      ∃ r ∈ s.requests, r.status = .escalated ∧ r.version = 2 ∧ (s.breachesOf r.id).length = 1 ∧
        r.Tallied true (s.breachesOf r.id) := by
  have setting : ∀ a ∈ (run.take 3).map (Act.escalating true), a.context.settings.sweep.escalate = true := by
    intro a mem
    obtain ⟨b, -, rfl⟩ := List.mem_map.mp mem
    rfl
  have late : let s := (World.after {} ((run.take 3).map (Act.escalating true))).store
      ∃ r ∈ s.requests, r.status = .escalated ∧ r.version = 2 ∧ (s.breachesOf r.id).length = 1 := by
    decide +kernel
  obtain ⟨r, stored, marked, version, one⟩ := late
  exact ⟨setting, r, stored, marked, version, one, World.tallied_after _ true setting stored⟩

end Approval
