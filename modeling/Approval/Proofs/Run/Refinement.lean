import Approval.Proofs.Request.Turns
import Approval.Proofs.Run.Rows
import Approval.Proofs.Time.Instant
import Approval.Proofs.Workflow.Validity

/-!
# The service does what decisions in turn do

A request that is started and then decided by calls, with other calls in between, goes the way that it
goes when the decisions are made on it in turn, and each call is answered with what its turn comes to.
Storing and reading it in between makes no difference, but for null notes.
-/

namespace Approval

open Work Operation

/-! ### Turns of a run -/

/-- The turn that an act is for a request, if it decides it. -/
def Act.turn? (id : RequestId) (a : Act) : Option Turn :=
  match a.call with
  | .process i actor d => if i = id then some ⟨actor, d, a.context.now⟩ else none
  | _ => none

section Supplied

variable [Supply]

/-- The answers of the calls that decide a request. -/
def World.answersOn (id : RequestId) (w : World) : List Act → List (Except Failure Request)
  | [] => []
  | a :: acts =>
    let rest := (a.run w).answersOn id acts
    match a.turn? id with
    | some t => (Requests.process id t.actor t.decision a.context w).1 :: rest
    | none => rest

/-- An act that decides the request does so in a year of four digits, with a context that reads back as a
note. Other acts may be any but sweeps that escalate. -/
structure Act.Calm (id : RequestId) (a : Act) : Prop where
  turn : ∀ t, a.turn? id = some t →
    t.now.hasPlainYear = true ∧ ∀ v, t.decision.context = some v → v.reread = v ∧ v.depth + 2 ≤ Json.depthLimit
  sweep : a.call = .sweep → a.context.settings.sweep.escalate = false

omit [Supply] in
lemma Act.turn?_eq_some {id : RequestId} {a : Act} {t : Turn} (h : a.turn? id = some t) :
    a = ⟨a.context, .process id t.actor t.decision⟩ ∧ t.now = a.context.now := by
  rcases a with ⟨c, call⟩
  cases call with
  | process i actor d =>
    simp only [turn?, Option.ite_none_right_eq_some, Option.some.injEq] at h
    obtain ⟨rfl, rfl⟩ := h
    exact ⟨rfl, rfl⟩
  | _ => simp [turn?] at h

/-- An act that neither decides a request nor escalates leaves it as it is stored. -/
lemma Act.mem_requests_run {w : World} (hk : w.store.Keyed) (a : Act) {row : Request}
    (stored : row ∈ w.store.requests) (other : ∀ actor d, a.call ≠ .process row.id actor d)
    (calm : a.call = .sweep → a.context.settings.sweep.escalate = false) :
    row ∈ (a.run w).store.requests := by
  rcases a with ⟨c, call⟩
  by_cases sweeps : call = .sweep
  · subst sweeps
    change row ∈ (Sweep.once c w).2.store.requests
    rw [Sweep.requests_once hk (calm rfl)]
    exact stored
  · have effect := call.run_effect (c := c) hk
    change row ∈ (call.run c w).store.requests
    generalize call.run c w = w' at effect ⊢
    cases effect with
    | nothing => exact stored
    | directory only =>
      rw [only.1]
      exact stored
    | created => exact stored
    | switched => exact stored
    | removed => exact stored
    | started => exact List.mem_append_left _ stored
    | @decided found current actor d x mem reads decides =>
      refine (Requests.mem_requests_decided hk mem reads decides).mpr (.inl ⟨stored, ?_⟩)
      intro same
      exact other actor d (by rw [same])
    | swept => exact absurd rfl sweeps

/-! ### Starting -/

omit [Supply] in
/-- The plans of stored workflows are valid. -/
lemma rowInvariant_valid :
    RowInvariant (fun _ => True) (fun wf => wf.plan.Valid) (fun _ => True) where
  created id _ accepted := Workflows.valid_ofDraft accepted id _ _
  switched _ before := before
  started _ _ _ _ := trivial
  decided _ _ _ _ _ := trivial
  escalated _ _ _ _ _ := trivial

lemma World.valid_after (acts : List Act) {wf : Workflow}
    (h : wf ∈ (World.after {} acts).store.workflows) : wf.plan.Valid :=
  (rowInvariant_valid.after_empty acts fun _ _ => trivial).workflows wf h

/-- An active workflow that is stored and reads back can be started in a year of four digits. -/
theorem World.start_eq_ok {acts : List Act} {w : World} (hw : w = World.after {} acts) {row wf : Workflow}
    (stored : row ∈ w.store.workflows) (active : row.isActive = true) (reads : row.readBack? = some wf)
    {c : Context} (plain : c.now.hasPlainYear = true) (requester : UserId) (payload : Json) :
    ∃ r first, wf.request w.store.nextRequestId requester payload c.now = .ok r ∧
      Requests.start row.id requester payload c w = (.ok r, Requests.started wf r first w) := by
  subst hw
  have issued := World.issued_after acts
  have passable := Workflow.passable_readBack (World.valid_after acts stored).passable reads
  obtain ⟨r, made⟩ := Workflow.exists_request passable plain (World.after {} acts).store.nextRequestId
    requester payload
  obtain ⟨first, deadline, begins, -, hr⟩ := Workflow.request_eq_ok_iff.mp made
  have found := issued.find?_eq stored
  have same : wf.id = row.id ∧ wf.isActive = row.isActive := by
    rw [Workflow.eq_of_readBack? reads]
    exact ⟨rfl, rfl⟩
  refine ⟨r, first, made, Requests.start_eq_ok_iff.mpr ⟨wf, ?_, same.2.trans active, ?_⟩⟩
  · exact Store.readOption_eq_ok_some.mpr ⟨row, found, reads⟩
  · subst hr
    refine Requests.enter_eq_ok_iff.mpr ⟨made, ⟨row, ?_, active⟩, issued.fresh, (World.numbered_after acts).fresh,
      first, begins, rfl⟩
    rw [← found, ← same.1]

/-! ### The stored request goes the same way -/

/-- The stored request with the identifier of `r` is `r`, but for null notes, and reads back. -/
structure World.Mirrors (w : World) (r : Request) : Prop where
  keyed : w.store.Keyed
  numbered : w.store.Numbered
  row : ∃ row ∈ w.store.requests, row.tidy = r.tidy ∧ row.Lifecycle ∧ row.Verbatim ∧ row.Readable

namespace World.Mirrors

variable {w : World} {r : Request}

/-- The stored request reads back as `r` but for null notes. -/
lemma request?_eq (h : w.Mirrors r) : w.store.request? r.id = .ok (some r.tidy) := by
  obtain ⟨row, stored, same, alive, verbatim, readable⟩ := h.row
  have id : row.id = r.id := Request.id_of_tidy_eq same
  rw [← id, ← same]
  exact h.keyed.request?_eq stored ((verbatim.readBack?_eq_some_iff alive).mpr ⟨readable, rfl⟩)

/-- A call that decides the request is answered with what the turn comes to, and the stored request goes
on with it. -/
lemma process (h : w.Mirrors r) {c : Context} {actor : Actor} {d : Decision}
    (plain : c.now.hasPlainYear = true) (context : ∀ v, d.context = some v → v.Verbatim ∧ v.Fits 2) :
    Request.tidy <$> (Requests.process r.id actor d c w).1 = Request.tidy <$> r.turn ⟨actor, d, c.now⟩ ∧
      (Requests.process r.id actor d c w).2.Mirrors (r.afterTurn ⟨actor, d, c.now⟩) := by
  obtain ⟨row, stored, same, alive, verbatim, readable⟩ := h.row
  have reads : row.readBack? = some row.tidy :=
    (verbatim.readBack?_eq_some_iff alive).mpr ⟨readable, rfl⟩
  have alive' := alive.readBack reads
  have id : row.id = r.id := Request.id_of_tidy_eq same
  have turns : Request.tidy <$> row.tidy.turn ⟨actor, d, c.now⟩ = Request.tidy <$> r.turn ⟨actor, d, c.now⟩ := by
    rw [same, Request.turn_tidy]
  generalize turn : (⟨actor, d, c.now⟩ : Turn) = t at turns ⊢
  rw [← id]
  cases decides : row.tidy.decide actor d c.now with
  | error e =>
    have refused : row.tidy.turn t = .error e := by
      simp only [← turn, Request.turn, decides]
      rfl
    rw [Requests.process_of_decide_error h.keyed stored reads decides, ← turns, refused]
    refine ⟨rfl, ?_⟩
    have stays : r.afterTurn t = r := by
      rw [refused] at turns
      unfold Request.afterTurn
      cases after : r.turn t with
      | error e' => rfl
      | ok next =>
        rw [after] at turns
        cases turns
    rw [stays]
    exact h
  | ok x =>
    have answers : Requests.process row.id actor d c w = (.ok x.request, Requests.decided x w) :=
      (Requests.process_eq_ok_iff h.keyed).mpr
        ⟨row, stored, _, x, rfl, reads, decides, h.numbered.fresh, rfl, rfl⟩
    have taken : row.tidy.turn t = .ok x.request := by
      simp only [← turn, Request.turn, decides]
      rfl
    rw [taken] at turns
    obtain ⟨next, after, same'⟩ := Except.map_eq_ok_iff.mp turns.symm
    have goes : r.afterTurn t = next := by
      unfold Request.afterTurn
      rw [after]
    rw [answers, ← turns, goes]
    refine ⟨rfl, Requests.keyed_decided h.keyed x, h.numbered.append rfl, x.request, ?_, same'.symm, ?_, ?_, ?_⟩
    · have taken_over := verbatim.updateRow_decide alive reads decides
      exact (Requests.mem_requests_decided h.keyed stored reads decides).mpr (.inr taken_over.symm)
    · exact alive'.decide decides
    · exact verbatim.tidy.decide alive' decides fun v hv => (context v hv).1
    · exact readable.tidy.decide alive' decides plain fun v hv => (context v hv).2

/-- A call that does not decide the request leaves it as it is stored. -/
lemma other (h : w.Mirrors r) {a : Act} (elsewhere : a.turn? r.id = none)
    (calm : a.call = .sweep → a.context.settings.sweep.escalate = false) : (a.run w).Mirrors r := by
  obtain ⟨row, stored, same, kept⟩ := h.row
  obtain ⟨keyed, numbered⟩ := World.preserved_of_changes (P := fun w => w.store.Numbered) h.keyed h.numbered
    (fun _ _ _ hn change => change.numbered hn) (a.call.run_changes (c := a.context) h.keyed)
  refine ⟨keyed, numbered, row, a.mem_requests_run h.keyed stored ?_ calm, same, kept⟩
  intro actor d call
  rw [Act.turn?, call] at elsewhere
  simp [Request.id_of_tidy_eq same] at elsewhere

/-- The stored request and the answers go with the turns of a whole run. -/
theorem after (h : w.Mirrors r) (acts : List Act) (calm : ∀ a ∈ acts, a.Calm r.id) :
    (w.answersOn r.id acts).map (Request.tidy <$> ·) =
        (r.answers (acts.filterMap (Act.turn? r.id))).map (Request.tidy <$> ·) ∧
      (w.after acts).Mirrors (r.afterTurns (acts.filterMap (Act.turn? r.id))) := by
  induction acts generalizing w r with
  | nil => exact ⟨rfl, h⟩
  | cons a acts ih =>
    have calm_a := calm a List.mem_cons_self
    have calm_acts (b : Act) (hb : b ∈ acts) := calm b (List.mem_cons_of_mem a hb)
    cases turn : a.turn? r.id with
    | none =>
      rw [World.answersOn, List.filterMap_cons, turn]
      exact ih (h.other turn calm_a.sweep) calm_acts
    | some t =>
      obtain ⟨plain, context⟩ := calm_a.turn t turn
      obtain ⟨act, now⟩ := Act.turn?_eq_some turn
      rw [now] at plain
      obtain ⟨answer, mirrors⟩ := h.process plain context
      have taken : (⟨t.actor, t.decision, a.context.now⟩ : Turn) = t := by rw [← now]
      have run : a.run w = (Requests.process r.id t.actor t.decision a.context w).2 := by
        rw [act]
        rfl
      rw [taken] at answer mirrors
      have same : (r.afterTurn t).id = r.id := Request.id_afterTurn r t
      obtain ⟨answers, last⟩ := ih (run ▸ mirrors) (by rw [same]; exact calm_acts)
      rw [same] at answers last
      rw [World.answersOn, List.filterMap_cons, turn]
      refine ⟨?_, last⟩
      simp only [List.map_cons, Request.answers, answer, answers]

end World.Mirrors

/-- A request that was just started stands for itself. -/
lemma World.mirrors_started {w : World} {wf : Workflow} {requester : UserId} {payload : Json} {r : Request}
    {c : Context} (first : Step) (hk : w.store.Keyed) (hn : w.store.Numbered)
    (new : ∀ row ∈ w.store.requests, row.id ≠ r.id)
    (made : wf.request w.store.nextRequestId requester payload c.now = .ok r)
    (conditions : ∀ v ∈ wf.plan.values, v.Verbatim ∧ v.Fits 4) (plain : c.now.hasPlainYear = true)
    (verbatim : payload.Verbatim) (fits : payload.Fits 0) : (Requests.started wf r first w).Mirrors r := by
  have alive := Request.Lifecycle.of_request made
  refine ⟨?_, hn.append rfl, r, by simp [Requests.started], rfl, alive, ?_, ?_⟩
  · rw [Store.Keyed, Requests.started, List.map_append, List.nodup_append]
    exact ⟨hk, List.nodup_singleton _, by simpa using new⟩
  all_goals
    obtain ⟨step, deadline, -, -, rfl⟩ := Workflow.request_eq_ok_iff.mp made
  · exact Request.verbatim_iff.mpr ⟨verbatim, fun v hv => (conditions v hv).1, by simp [Request.notes, Step.waiting]⟩
  · exact ⟨fits, fun v hv => (conditions v hv).2, by simp [Request.notes, Step.waiting], plain, plain, by simp⟩

/-- An active workflow with conditions that can be read is started. From then on, the calls that decide
the request are answered, one by one, with what decisions in turn come to, and what is stored of the
request is what they lead to, but for null notes. -/
theorem World.refines_turns {before : List Act} {w : World} (hw : w = World.after {} before) {wf : Workflow}
    (stored : wf ∈ w.store.workflows) (active : wf.isActive = true)
    (created : wf.createdAt.hasPlainYear = true)
    (conditions : ∀ v ∈ wf.plan.values, v.reread = v ∧ v.depth + 4 ≤ Json.depthLimit) (requester : UserId)
    {payload : Json} (reread : payload.reread = payload) (depth : payload.depth ≤ Json.depthLimit)
    {c : Context} (plain : c.now.hasPlainYear = true) :
    ∃ r w', wf.request w.store.nextRequestId requester payload c.now = .ok r ∧
      Requests.start wf.id requester payload c w = (.ok r, w') ∧
      ∀ acts : List Act, (∀ a ∈ acts, a.Calm r.id) →
        (w'.answersOn r.id acts).map (Request.tidy <$> ·) =
            (r.answers (acts.filterMap (Act.turn? r.id))).map (Request.tidy <$> ·) ∧
          (∃ row ∈ (w'.after acts).store.requests,
            row.tidy = (r.afterTurns (acts.filterMap (Act.turn? r.id))).tidy) ∧
          (w'.after acts).store.request? r.id =
            .ok (some (r.afterTurns (acts.filterMap (Act.turn? r.id))).tidy) := by
  have reads : wf.readBack? = some wf := by
    refine (Workflow.readBack?_eq_some_iff fun v hv => (conditions v hv).1).mpr ⟨?_, created, rfl⟩
    intro v hv
    exact Nat.le_of_succ_le (conditions v hv).2
  obtain ⟨r, first, made, starts⟩ := World.start_eq_ok hw stored active reads plain requester payload
  refine ⟨r, _, made, starts, ?_⟩
  intro acts calm
  subst hw
  obtain ⟨_, -, -, entered⟩ := Requests.start_eq_ok_iff.mp starts
  obtain ⟨-, -, new, -⟩ := Requests.enter_eq_ok_iff.mp entered
  have mirrors := World.mirrors_started first (World.keyed_after before)
    (World.numbered_after before) new made conditions plain reread depth
  obtain ⟨answers, last⟩ := mirrors.after acts calm
  obtain ⟨row, mem, same, -⟩ := last.row
  have found := last.request?_eq
  rw [Request.id_afterTurns] at found
  exact ⟨answers, ⟨row, mem, same⟩, found⟩

end Supplied

/-! ### A run -/

namespace Leave

/-- The request is taken again with a null note, refused an outcome that has no rule, and approved. In
between, somebody sweeps and the directory changes. -/
def calmRun : List Act :=
  [⟨clock 12, .process request admin { outcome := "MORE", context := some .null }⟩,
   ⟨clock 14, .sweep⟩,
   ⟨clock 14, .deactivate "somebody"⟩,
   ⟨clock 14, .process request admin { outcome := "LATER" }⟩,
   ⟨clock 14, .process request admin { outcome := "APPROVED" }⟩]

/-- The world in which the workflow is stored. -/
def opened : World := World.after {} [⟨clock 12, .createWorkflow draft none⟩]

/-- The three calls on the request are answered with what its turns come to. -/
theorem refines_turns_of_calmRun :
    ∃ r w', Requests.start (.serial .workflow 1) admin.userId .null (clock 12) opened = (.ok r, w') ∧
      (calmRun.filterMap (Act.turn? r.id)).length = 3 ∧
      (w'.answersOn r.id calmRun).map (Request.tidy <$> ·) =
        (r.answers (calmRun.filterMap (Act.turn? r.id))).map (Request.tidy <$> ·) ∧
      (∃ row ∈ (w'.after calmRun).store.requests,
        row.tidy = (r.afterTurns (calmRun.filterMap (Act.turn? r.id))).tidy) ∧
      (w'.after calmRun).store.request? r.id =
        .ok (some (r.afterTurns (calmRun.filterMap (Act.turn? r.id))).tidy) := by
  have made : ∃ wf ∈ opened.store.workflows, wf.id = .serial .workflow 1 ∧ wf.isActive = true ∧
      wf.createdAt.hasPlainYear = true ∧ wf.plan.values.isEmpty = true := by decide +kernel
  obtain ⟨wf, stored, id, active, created, plain⟩ := made
  have conditions : ∀ v ∈ wf.plan.values, v.reread = v ∧ v.depth + 4 ≤ Json.depthLimit := by
    simp [List.isEmpty_iff.mp plain]
  have plain_clock (n : Nat) (h : n = 12 ∨ n = 14) : (clock n).now.hasPlainYear = true := by
    rcases h with rfl | rfl <;> decide +kernel
  have null_reads : Json.null.reread = .null ∧ Json.null.depth ≤ Json.depthLimit := ⟨rfl, by decide⟩
  obtain ⟨r, w', made, starts, goes⟩ := World.refines_turns rfl stored active created conditions
    admin.userId null_reads.1 null_reads.2 (plain_clock 12 (.inl rfl))
  have first : r.id = request := by
    obtain ⟨_, _, -, -, rfl⟩ := Workflow.request_eq_ok_iff.mp made
    change opened.store.nextRequestId = request
    decide +kernel
  have decides (n : Nat) (h : n = 12 ∨ n = 14) (d : Decision)
      (context : ∀ v, d.context = some v → v = .null) :
      Act.Calm request ⟨clock n, .process request admin d⟩ := by
    refine ⟨?_, fun sweeps => by simp at sweeps⟩
    intro t turn
    obtain rfl : ⟨admin, d, (clock n).now⟩ = t := by simpa [Act.turn?] using turn
    refine ⟨plain_clock n h, ?_⟩
    intro v hv
    rw [context v hv]
    exact ⟨rfl, by decide⟩
  have calm : ∀ a ∈ calmRun, a.Calm r.id := by
    rw [first]
    simp only [calmRun, List.forall_mem_cons, List.not_mem_nil, false_implies, implies_true, and_true]
    exact ⟨decides 12 (.inl rfl) _ (by simp), ⟨by simp [Act.turn?], fun _ => rfl⟩,
      ⟨by simp [Act.turn?], fun _ => rfl⟩, decides 14 (.inr rfl) _ (by simp),
      decides 14 (.inr rfl) _ (by simp)⟩
  obtain ⟨answers, row, found⟩ := goes calmRun calm
  rw [id] at starts
  refine ⟨r, w', starts, ?_, answers, row, found⟩
  rw [first]
  decide +kernel

end Leave

end Approval
