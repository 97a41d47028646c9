import Approval.Proofs.Interleaving.Linear
import Approval.Proofs.Run.Anchored
import Approval.Proofs.Run.Growth
import Approval.Proofs.Run.Refusal

/-!
# Interleaved starts

A call that starts a request takes two steps: it reads the workflow, and it stores the request, for which the
workflow is looked up again. In between, other calls may switch or remove the workflow, decide requests and
record late steps. What carries the proof is that a workflow that was read once is, as long as it is stored,
what its row reads as, so that a request is only ever stored beside the workflow whose plan it takes.
-/

namespace Approval.Concurrent

open Race (Thread Tracks)

/-! ### Steps of one call -/

/-- How far a call that starts a request has come. -/
inductive StartStage
  | arrived
  | chosen (wf : Workflow)
  | answered (answer : Except Failure Request)

section Supplied

variable [Supply]

/-- The next step of a call that starts a request, with the world after it. -/
def StartStage.step (id : WorkflowId) (requester : UserId) (payload : Json) (c : Context) (w : World) :
    StartStage → StartStage × World
  | .arrived =>
    match Requests.workflowFor id c w with
    | (.ok wf, w) => (.chosen wf, w)
    | (.error e, w) => (.answered (.error e), w)
  | .chosen wf =>
    let (answer, w) := Requests.enter wf requester payload c w
    (.answered answer, w)
  | .answered answer => (.answered answer, w)

/-- Who is at work: a call that starts a request, any other call, which takes one step, or a thread that
decides a request or sweeps. -/
inductive Worker
  | start (id : WorkflowId) (requester : UserId) (payload : Json) (stage : StartStage)
  | once (call : ServiceCall) (answer : Option (Except Failure Unit))
  | thread (t : Thread)

/-- The next step of a worker, with the world after it. -/
def Worker.step (c : Context) (w : World) : Worker → Worker × World
  | .start id requester payload stage =>
    let (next, w) := stage.step id requester payload c w
    (.start id requester payload next, w)
  | .once call none =>
    let (answer, w) := call.operation c w
    (.once call (some answer), w)
  | .once call (some answer) => (.once call (some answer), w)
  | .thread t =>
    let (next, w, _) := t.step c w
    (.thread next, w)

/-! ### Steps of all of them -/

/-- What is to be done. -/
inductive Task
  | start (id : WorkflowId) (requester : UserId) (payload : Json)
  | once (call : ServiceCall)
  | race (task : Race.Task)

/-- A task that nothing was done for yet. -/
def Task.worker : Task → Worker
  | .start id requester payload => .start id requester payload .arrived
  | .once call => .once call none
  | .race task => .thread task.thread

/-- The workers and the world that they share. -/
structure State where
  world : World
  workers : List Worker

namespace State

/-- The state in which nothing was done for any task yet. -/
def start (w : World) (tasks : List Task) : State := ⟨w, tasks.map Task.worker⟩

/-- The state after a worker took its next step under a context. -/
def step (s : State) (i : Nat) (c : Context) : State :=
  match s.workers[i]? with
  | none => s
  | some t =>
    let (next, w) := t.step c s.world
    ⟨w, s.workers.set i next⟩

/-- The state after steps of the given workers under the given contexts. -/
def run (s : State) (schedule : List (Nat × Context)) : State :=
  schedule.foldl (fun s turn => s.step turn.1 turn.2) s

end State

section Steps

variable {c : Context} {w w' : World}

/-- The two steps of a start on its own are the start. -/
theorem StartStage.alone (id : WorkflowId) (requester : UserId) (payload : Json) :
    let (first, u) := StartStage.arrived.step id requester payload c w
    first.step id requester payload c u =
      (.answered (Requests.start id requester payload c w).1, (Requests.start id requester payload c w).2) := by
  simp only [step, Requests.start]
  rcases reads : Requests.workflowFor id c w with ⟨e | wf, u⟩
  · rw [Work.bind_of_error reads]
  · rw [Work.bind_of_ok reads]

/-! ### What a step does to the world -/

/-- What a step of a worker does to the world: what a whole call does, or a late step is recorded that was
found in a copy of its request. -/
inductive Moves (w : World) : World → Prop
  | call {c : Context} {call : ServiceCall} {w' : World} (effect : call.Effect c w w') : Moves w w'
  | late {escalate : Bool} {now : Instant} {f : Sweep.Finding} (tracks : Tracks w.store f.request)
      (recordable : Sweep.Recordable escalate now f w.store) : Moves w (Sweep.breached escalate now f w)

lemma Moves.refl (c : Context) : Moves w w := .call (c := c) (.nothing .sweep)

/-- What holds of a world at any time. -/
structure Firm (w : World) : Prop where
  keyed : w.store.Keyed
  numbered : w.store.Numbered
  issued : w.store.Issued
  alive : w.store.Alive
  anchored : w.store.Anchored

lemma firm_after (acts : List Act) : Firm (World.after {} acts) where
  keyed := World.keyed_after acts
  numbered := World.numbered_after acts
  issued := World.issued_after acts
  alive := World.alive_after acts
  anchored := World.anchored_after acts

lemma Firm.change (h : Firm w) (change : Change c w w') : Firm w' where
  keyed := change.keyed h.keyed
  numbered := change.numbered h.numbered
  issued := change.issued h.issued
  alive := change.alive h.keyed h.alive
  anchored := change.anchored h.keyed h.anchored

/-- What workers may rely on: requests go on, and workflows stay what they are, active or not. -/
structure Follows (s t : Store) : Prop where
  grows : s.Grows t
  retains : s.Retains t

lemma Firm.effect (h : Firm w) {call : ServiceCall} (effect : call.Effect c w w') :
    Firm w' ∧ Follows w.store w'.store := by
  refine (World.preserved_of_changes (P := fun u => Firm u ∧ Follows w.store u.store) h.keyed
    ⟨h, .refl h.alive, .of_same rfl rfl⟩ ?_ effect.changes).2
  rintro u v hk ⟨firm, follows⟩ change
  exact ⟨firm.change change, follows.grows.trans (change.grows hk firm.alive) h.alive,
    follows.retains.trans change.retains⟩

lemma Firm.moves (h : Firm w) (moves : Moves w w') : Firm w' ∧ Follows w.store w'.store := by
  cases moves with
  | call effect => exact h.effect effect
  | late tracks recordable =>
    have current := Race.exists_row_of_marked h.keyed tracks recordable
    refine ⟨?_, Sweep.grows_breached h.keyed h.alive current, .of_same rfl rfl⟩
    exact
      { keyed := Sweep.keyed_breached h.keyed _
        numbered := h.numbered.append rfl
        issued := h.issued.of_same_requests (Sweep.map_id_breached _) rfl rfl
        alive := Sweep.alive_breached h.keyed h.alive current
        anchored := Sweep.anchored_breached h.keyed current h.anchored }

/-! ### What workers hold -/

/-- A workflow that was read once: its number was given before, and a row of that number reads as the
workflow, active or not. -/
structure Chosen (s : Store) (wf : Workflow) : Prop where
  issued : ∃ n < s.workflowsStored, wf.id = Supply.id .workflow (n + 1)
  rows : ∀ row ∈ s.workflows, row.id = wf.id → row.readBack? = some { wf with isActive := row.isActive }

/-- What a worker holds is about the store. -/
def Worker.Sound (s : Store) : Worker → Prop
  | .start _ _ _ (.chosen wf) => Chosen s wf
  | .thread t => t.Sound s
  | _ => True

variable {s t : Store}

lemma chosen_of_workflow? (hi : s.Issued) {id : WorkflowId} {wf : Workflow}
    (found : s.workflow? id = .ok (some wf)) : Chosen s wf := by
  obtain ⟨row, at_id, read⟩ := Store.readOption_eq_ok_some.mp found
  have stored := List.mem_of_find?_eq_some at_id
  have same := Workflow.eq_of_readBack? read
  refine ⟨?_, fun other mem id => ?_⟩
  · rw [same]
    exact hi.workflows row stored
  · rw [same] at id
    obtain rfl : other = row := List.inj_on_of_nodup_map hi.distinct mem stored id
    rw [read, same]

/-- A workflow that was read stays what its row reads as. -/
lemma Chosen.of_retains {wf : Workflow} (h : Chosen s wf) (retains : s.Retains t) : Chosen t wf where
  issued := by
    obtain ⟨n, below, id⟩ := h.issued
    exact ⟨n, below.trans_le retains.stored, id⟩
  rows := by
    intro x hx same
    rcases retains.rows x hx with ⟨row, stored, changed⟩ | ⟨m, le, id⟩
    · have read := h.rows row stored (by rw [← same, changed])
      rw [changed, Workflow.readBack?_isActive, read]
      rfl
    · -- The number of a workflow that was stored later is another one.
      obtain ⟨n, below, id'⟩ := h.issued
      have := Supply.id_injective _ (id.symm.trans (same.trans id'))
      omega

omit [Supply] in
/-- A copy of a request stays at least as old as the stored one. -/
lemma tracks_of_grows {copy : Request} (h : Tracks s copy) (hk : t.Keyed) (grows : s.Grows t) :
    Tracks t copy := by
  obtain ⟨row, found, le, reads⟩ := h
  obtain ⟨stored, id⟩ := Store.mem_of_row? found
  obtain ⟨q, hq, becomes⟩ := grows.requests row stored
  have same : q.id = copy.id := by rw [becomes.same, ← id]
  refine ⟨q, same ▸ hk.row?_eq hq, le.trans becomes.version, fun version => ?_⟩
  have unchanged := becomes.version
  rw [becomes.unchanged (by omega)]
  exact reads (by omega)

lemma Worker.Sound.of_follows {worker : Worker} (h : worker.Sound s) (hk : t.Keyed) (follows : Follows s t) :
    worker.Sound t := by
  have kept {copy : Request} (tracks : Tracks s copy) := tracks_of_grows tracks hk follows.grows
  cases worker with
  | start id requester payload stage =>
    cases stage with
    | chosen wf => exact Chosen.of_retains h follows.retains
    | arrived | answered => trivial
  | once => trivial
  | thread thread => exact Thread.Sound.mono h kept

/-! ### What a step does -/

/-- The workflow that a start has read is stored again with the request, or nothing is. -/
lemma moves_enter {wf : Workflow} (chosen : Chosen w.store wf) (requester : UserId) (payload : Json) :
    Moves w (Requests.enter wf requester payload c w).2 := by
  rcases enters : Requests.enter wf requester payload c w with ⟨e | r, w'⟩
  · rw [Requests.enter_atomic wf requester payload c w e w' enters]
    exact .refl c
  · obtain ⟨made, ⟨row, at_id, active⟩, new, fresh, first, begins, rfl⟩ := Requests.enter_eq_ok_iff.mp enters
    obtain ⟨_, _, -, -, rfl⟩ := Workflow.request_eq_ok_iff.mp made
    have id : row.id = wf.id := by simpa using List.find?_some at_id
    -- The workflow may have been switched since, so it is found again with the flag of its row.
    have read := chosen.rows row (List.mem_of_find?_eq_some at_id) id
    have found : w.store.workflow? wf.id = .ok (some { wf with isActive := row.isActive }) :=
      Store.readOption_eq_ok_some.mpr ⟨row, at_id, read⟩
    have effect : ServiceCall.Effect c w (.start wf.id requester payload)
        (Requests.started { wf with isActive := row.isActive } _ first w) :=
      .started found active made new fresh begins
    exact .call effect

lemma moves_of_takes (hw : Firm w) {thread : Thread} {after : Thread × World × Option Race.Commit}
    (sound : thread.Sound w.store) (takes : thread.Takes c w after) : Moves w after.2.1 := by
  cases takes with
  | @saves actor d context current x decides same =>
    obtain ⟨-, tracks, -⟩ := sound
    obtain ⟨-, runs, -⟩ := Race.commit_of_current (c := c) hw.keyed hw.numbered tracks decides same
    cases runs with
    | decision runs =>
      have effect := ServiceCall.run_effect (c := context) hw.keyed (.process current.id actor d)
      rw [ServiceCall.run, runs] at effect
      exact .call effect
  | records _ _ recordable => exact .late (sound _ List.mem_cons_self) recordable
  | _ => exact .refl c

/-- A step of a worker does one of these, and what the worker then holds is about the store. -/
lemma Worker.step_moves (hw : Firm w) {worker : Worker} (sound : worker.Sound w.store) :
    Moves w (worker.step c w).2 ∧ (worker.step c w).1.Sound (worker.step c w).2.store := by
  cases worker with
  | start id requester payload stage =>
    cases stage with
    | arrived =>
      simp only [step, StartStage.step]
      have inert := Requests.workflowFor_inert id c w
      rcases reads : Requests.workflowFor id c w with ⟨e | wf, u⟩
      · rw [reads] at inert
        obtain rfl := inert
        exact ⟨.refl c, trivial⟩
      · obtain ⟨found, -, rfl⟩ := Requests.workflowFor_eq_ok_iff.mp reads
        exact ⟨.refl c, chosen_of_workflow? hw.issued found⟩
    | chosen wf => exact ⟨moves_enter sound requester payload, trivial⟩
    | answered answer => exact ⟨.refl c, trivial⟩
  | once call answer =>
    cases answer with
    | none =>
      simp only [step, ServiceCall.operation_world]
      exact ⟨.call (ServiceCall.run_effect hw.keyed call), trivial⟩
    | some answer => exact ⟨.refl c, trivial⟩
  | thread thread =>
    refine ⟨moves_of_takes hw sound (Thread.step_takes hw.keyed hw.numbered sound), ?_⟩
    have moves := thread.step_moves (c := c) hw.keyed hw.numbered sound
    simp only [step]
    rcases moved : thread.step c w with ⟨next, u, commit⟩
    rw [moved] at moves
    cases moves <;> assumption

/-- A request that a step adds takes the plan of a workflow that is stored and active. -/
lemma Moves.added (h : Moves w w') {r : Request} (stored : r ∈ w'.store.requests)
    (new : ∀ old ∈ w.store.requests, old.id ≠ r.id) :
    ∃ row ∈ w.store.workflows, row.isActive = true ∧ row.Anchors r := by
  have not_new (same : w'.store.requests.map (·.id) = w.store.requests.map (·.id)) : False := by
    have known : r.id ∈ w.store.requests.map (·.id) := same ▸ List.mem_map_of_mem stored
    obtain ⟨old, mem, id⟩ := List.mem_map.mp known
    exact new old mem id
  cases h with
  | call effect =>
    cases effect with
    | directory only => exact (not_new (by rw [only.1])).elim
    | started found active made =>
      rcases List.mem_append.mp stored with old | last
      · exact absurd rfl (new r old)
      · obtain rfl := List.mem_singleton.mp last
        obtain ⟨row, at_id, read⟩ := Store.readOption_eq_ok_some.mp found
        refine ⟨row, List.mem_of_find?_eq_some at_id, ?_, .of_request read made⟩
        rw [Workflow.eq_of_readBack? read] at active
        exact active
    | decided => exact (not_new (Store.map_id_replaced _ _)).elim
    | swept breached => exact (not_new (Sweep.same_of_breached breached).2).elim
    | nothing | created | switched | removed => exact (not_new rfl).elim
  | late => exact (not_new (Sweep.map_id_breached _)).elim

/-- A workflow that a step takes away has no open request. -/
lemma Moves.removed (h : Moves w w') {row : Workflow} (stored : row ∈ w.store.workflows)
    (gone : ∀ other ∈ w'.store.workflows, other.id ≠ row.id) : w.store.openCount row.id = 0 := by
  have not_gone (same : w'.store.workflows = w.store.workflows) : False := gone row (same ▸ stored) rfl
  cases h with
  | call effect =>
    cases effect with
    | directory only => exact (not_gone (by rw [only.1])).elim
    | created => exact absurd rfl (gone row (List.mem_append_left _ stored))
    | @switched id isActive =>
      refine absurd ?_ (gone _ (List.mem_map_of_mem stored))
      split <;> rfl
    | @removed id actor idle =>
      have same : row.id = id := by
        by_contra other
        exact gone row (List.mem_filter.mpr ⟨stored, by simpa using other⟩) rfl
      rw [same]
      exact idle
    | swept breached => exact (not_gone (Sweep.same_of_breached breached).1).elim
    | nothing | started | decided => exact (not_gone rfl).elim
  | late => exact (not_gone rfl).elim

end Steps

/-! ### States -/

namespace State

/-- What holds in every state that steps lead to. -/
structure Sound (s : State) : Prop where
  firm : Firm s.world
  workers : ∀ (i : Nat) (worker : Worker), s.workers[i]? = some worker → worker.Sound s.world.store

variable {s : State}

lemma sound_start {w : World} (hw : Firm w) (tasks : List Task) : (start w tasks).Sound where
  firm := hw
  workers := by
    intro i worker found
    obtain ⟨task, -, rfl⟩ := List.mem_map.mp (List.mem_of_getElem? found)
    cases task with
    | start | once => trivial
    | race task => cases task <;> trivial

lemma step_eq {i : Nat} {worker : Worker} (found : s.workers[i]? = some worker) (c : Context) :
    s.step i c = ⟨(worker.step c s.world).2, s.workers.set i (worker.step c s.world).1⟩ := by
  simp only [step, found]

lemma Sound.moves (h : s.Sound) (i : Nat) (c : Context) : Moves s.world (s.step i c).world := by
  cases found : s.workers[i]? with
  | none =>
    simp only [State.step, found]
    exact .refl c
  | some worker =>
    rw [step_eq found]
    exact (worker.step_moves h.firm (h.workers i worker found)).1

lemma Sound.step (h : s.Sound) (i : Nat) (c : Context) : (s.step i c).Sound := by
  cases found : s.workers[i]? with
  | none =>
    have same : s.step i c = s := by simp only [State.step, found]
    rw [same]
    exact h
  | some worker =>
    obtain ⟨moves, sound⟩ := worker.step_moves (c := c) h.firm (h.workers i worker found)
    obtain ⟨firm, follows⟩ := h.firm.moves moves
    rw [step_eq found]
    refine ⟨firm, fun j other found' => ?_⟩
    -- What the others hold stays so, since all that a step does to the store is to follow it.
    rcases Race.State.cases_of_getElem?_set found' with ⟨-, rfl⟩ | ⟨-, old⟩
    · exact sound
    · exact (h.workers j other old).of_follows firm.keyed follows

lemma Sound.run (h : s.Sound) (schedule : List (Nat × Context)) : (s.run schedule).Sound := by
  induction schedule generalizing s with
  | nil => exact h
  | cons turn schedule ih => exact ih (h.step turn.1 turn.2)

/-- What starts among other calls come to. -/
structure Guarded (s : State) : Prop where
  /-- Every open request has its workflow. Its plan is the one that is read from that, which has the same steps,
  and the same transitions if the numbers in the conditions are what their texts read as. -/
  anchored : ∀ r ∈ s.world.store.requests, r.isOpen = true → ∃ row ∈ s.world.store.workflows,
    row.Anchors r ∧ r.plan.steps = row.steps ∧ ((∀ v ∈ row.plan.values, v.Verbatim) → r.plan = row.plan)
  /-- A request that a step adds takes the plan of a workflow that is stored and active at that moment. -/
  added : ∀ (i : Nat) (c : Context), ∀ r ∈ (s.step i c).world.store.requests,
    (∀ old ∈ s.world.store.requests, old.id ≠ r.id) →
    ∃ row ∈ s.world.store.workflows, row.isActive = true ∧ row.Anchors r
  /-- A start whose workflow is gone or switched off when the request is to be stored changes nothing, and
  answers which of the two it is if the request can be made at all. -/
  refused : ∀ (i : Nat) (c : Context) (id : WorkflowId) (requester : UserId) (payload : Json) (wf : Workflow),
    s.workers[i]? = some (.start id requester payload (.chosen wf)) →
    (∀ row ∈ s.world.store.workflows, row.id = wf.id → row.isActive = false) →
    ∃ e, s.step i c =
        { s with workers := s.workers.set i (.start id requester payload (.answered (.error e))) } ∧
      ∀ r, wf.request s.world.store.nextRequestId requester payload c.now = .ok r →
        e = if ∃ row ∈ s.world.store.workflows, row.id = wf.id then .inactive wf.id
          else .missing (.workflow wf.id)
  /-- A workflow that a step takes away has no open request. -/
  removed : ∀ (i : Nat) (c : Context), ∀ row ∈ s.world.store.workflows,
    (∀ other ∈ (s.step i c).world.store.workflows, other.id ≠ row.id) →
    ∀ r ∈ s.world.store.requests, r.workflowId = row.id → r.isOpen = false
  /-- A call that removes a workflow succeeds only if no request of it is open. -/
  idle : ∀ (i : Nat) (c : Context) (id : WorkflowId) (actor : Option UserId),
    s.workers[i]? = some (.once (.removeWorkflow id actor) none) →
    (s.step i c).workers[i]? = some (.once (.removeWorkflow id actor) (some (.ok ()))) →
    ∀ r ∈ s.world.store.requests, r.workflowId = id → r.isOpen = false

lemma Sound.guarded (h : s.Sound) : s.Guarded where
  anchored := by
    intro r hr isOpen
    obtain ⟨row, stored, anchors⟩ := h.firm.anchored r hr isOpen
    exact ⟨row, stored, anchors, anchors.steps, anchors.plan_eq⟩
  added := fun i c _ stored new => (h.moves i c).added stored new
  refused := by
    intro i c id requester payload wf found off
    obtain ⟨e, enters, reason⟩ := Requests.enter_of_off off requester payload
    refine ⟨e, ?_, reason⟩
    rw [step_eq found]
    simp only [Worker.step, StartStage.step, enters]
  removed := fun i c _ stored gone => Store.openCount_eq_zero.mp ((h.moves i c).removed stored gone)
  idle := by
    intro i c id actor found after
    obtain ⟨below, -⟩ := List.getElem?_eq_some_iff.mp found
    rw [step_eq found, List.getElem?_set_self below] at after
    have answers : (Workflows.remove id actor c s.world).1 = .ok () := by
      simpa [Worker.step, ServiceCall.operation] using after
    obtain ⟨idle, -⟩ := Workflows.remove_eq_ok_iff.mp (Prod.ext answers rfl)
    exact Store.openCount_eq_zero.mp idle

end State

/-- Whatever was done before, and however starts are interleaved with other calls, decisions and sweeps, a
request has its workflow from the moment when it is stored for as long as it is open. -/
theorem run_guarded (acts : List Act) (tasks : List Task) (schedule : List (Nat × Context)) :
    ((State.start (World.after {} acts) tasks).run schedule).Guarded :=
  ((State.sound_start (firm_after acts) tasks).run schedule).guarded

end Supplied

/-- A start loses to a call that removes the workflow after it was read. -/
example :
    let tasks := [Task.start (.serial .workflow 1) Leave.admin.userId .null,
      .once (.removeWorkflow (.serial .workflow 1) none)]
    let turns := [0, 1, 0].map fun i => (i, Leave.clock 12)
    ((State.start (World.after {} (Leave.run.take 1)) tasks).run turns).world.store.requests.length = 0 := by
  decide +kernel

end Approval.Concurrent

namespace Approval.Leave

/-! ### A plan that is written again -/

/-- The workflow, approved once more if the context of the decision is a number that does not read as it is
written. -/
def precise : Draft :=
  { draft with
    rules := draft.rules.map fun r =>
      if r.outcome = "APPROVED" then r else { r with condition := some ⟨"decision_data", .equal, context⟩ } }

/-- The workflow is created and a request of it started. -/
def waiting : Concurrent.State :=
  (Concurrent.State.start {}
      [.once (.createWorkflow precise none), .start (.serial .workflow 1) admin.userId .null]).run
    [(0, clock 12), (1, clock 12), (1, clock 12)]

/-- The texts of the values in the conditions of a plan. -/
def valueTexts (p : Plan) : List String := p.values.map Json.compact

/-- The plan of the open request is not that of its workflow, neither as they are stored nor as they are
read. -/
theorem plan_drifts :
    ∃ r ∈ waiting.world.store.requests, r.isOpen = true ∧
      ∀ row ∈ waiting.world.store.workflows, r.plan ≠ row.plan ∧
        ∃ q wf, r.readBack? = some q ∧ row.readBack? = some wf ∧ q.plan ≠ wf.plan := by
  have request : ∃ r ∈ waiting.world.store.requests, r.isOpen = true ∧
      valueTexts r.plan = ["\x7b\"x\":1e-50\x7d"] ∧
      r.readBack?.map (valueTexts ·.plan) = some ["\x7b\"x\":9.999999999999999e-51\x7d"] := by
    decide +kernel
  have workflow : ∀ row ∈ waiting.world.store.workflows,
      valueTexts row.plan = ["\x7b\"x\":9.999999999999999e-51\x7d"] ∧
      row.readBack?.map (valueTexts ·.plan) = some ["\x7b\"x\":1e-50\x7d"] := by
    decide +kernel
  obtain ⟨r, stored, isOpen, texts, read⟩ := request
  refine ⟨r, stored, isOpen, fun row known => ?_⟩
  obtain ⟨others, readOthers⟩ := workflow row known
  obtain ⟨q, reads, texts'⟩ := Option.map_eq_some_iff.mp read
  obtain ⟨wf, reads', others'⟩ := Option.map_eq_some_iff.mp readOthers
  refine ⟨fun same => ?_, q, wf, reads, reads', fun same => ?_⟩
  · rw [same, others] at texts
    exact absurd texts (by decide)
  · rw [same, others'] at texts'
    exact absurd texts' (by decide)

end Approval.Leave
