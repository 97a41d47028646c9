import Approval.Proofs.Request.Refusal
import Approval.Proofs.Run.Change
import Approval.Proofs.Workflow.Validity

/-!
# Ways out

A request of an accepted workflow without conditions is never stranded. Wherever decisions have led it,
every rule that leaves its current step can be taken by an administrator, and some of these rules lead it
to the end in no more decisions than the workflow has steps.
-/

namespace Approval

open Relation

/-! ### Requests that come about -/

/-- The requests that a plan leads to: those that start, what decisions make of them in years of four
digits, and what they are when they are stored and read again or escalated. -/
inductive Plan.Reaches (p : Plan) : Request → Prop
  | start {wf : Workflow} {id : RequestId} {requester : UserId} {payload : Json} {now : Instant}
      {r : Request} (plan : wf.plan = p) (made : wf.request id requester payload now = .ok r) :
      p.Reaches r
  | decide {r : Request} {actor : Actor} {d : Decision} {now : Instant} {x : Decided}
      (before : p.Reaches r) (plain : now.hasPlainYear = true) (decides : r.decide actor d now = .ok x) :
      p.Reaches x.request
  | store {row r : Request} (before : p.Reaches row) (reads : row.readBack? = some r) : p.Reaches r
  | escalate {r marked : Request} {escalate : Bool} {now : Instant} (before : p.Reaches r)
      (marks : Sweep.escalated escalate now r = some marked) : p.Reaches marked

/-- No rule of the plan has a condition. -/
def Plan.Unconditional (p : Plan) : Prop := ∀ r ∈ p.rules, r.condition = none

/-- Rules without conditions are read as they were stored. -/
lemma Rule.eq_of_mapM_readBack? {outer : Nat} {rules read : List Rule}
    (h : rules.mapM (Rule.readBack? outer) = some read) (plain : ∀ r ∈ rules, r.condition = none) :
    read = rules := by
  have same (r : Rule) (mem : r ∈ rules) : (r.readBack? outer).getD r = id r := by
    simp [readBack?, plain r mem]
  rw [eq_map_of_mapM h, List.map_congr_left same, List.map_id]

lemma Plan.eq_of_readBack? {p q : Plan} (h : p.readBack? = some q) (plain : p.Unconditional) : q = p := by
  simp only [readBack?, Option.bind_eq_bind, Option.bind_eq_some_iff, Option.some.injEq] at h
  obtain ⟨rules, hr, rfl⟩ := h
  rw [Rule.eq_of_mapM_readBack? hr plain]

lemma Workflow.plan_of_readBack? {row wf : Workflow} (h : row.readBack? = some wf)
    (plain : row.plan.Unconditional) : wf.plan = row.plan := by
  simp only [readBack?, Option.bind_eq_bind, Option.bind_eq_some_iff, Option.some.injEq] at h
  obtain ⟨rules, hr, created, -, rfl⟩ := h
  rw [plan, plan, Rule.eq_of_mapM_readBack? hr plain]

/-- A rule that a decision takes is one of the plan, for the step and the outcome. -/
lemma Request.rule_of_ruleOf {r : Request} {step : Step} {outcome : String} {context : Option Json}
    {rule : Rule} (h : r.ruleOf step outcome context = .ok rule) :
    rule ∈ r.plan.rules ∧ rule.fromStep = step.order ∧ rule.outcome = outcome := by
  unfold ruleOf at h
  split at h
  · rename_i found
    obtain rfl := Except.ok.inj h
    have mem := List.mem_of_find?_eq_some found
    simpa [Plan.rulesFor] using mem
  · cases h

namespace Plan.Reaches

variable {p : Plan} {r : Request}

variable [Supply] in
/-- A request that the service starts is one that the plan of the stored workflow leads to. -/
lemma of_start {id : WorkflowId} {requester : UserId} {payload : Json} {c : Context} {w w' : World}
    (plain : p.Unconditional) (stored : ∀ row ∈ w.store.workflows, row.id = id → row.plan = p)
    (starts : Requests.start id requester payload c w = (.ok r, w')) : p.Reaches r := by
  obtain ⟨wf, found, -, entered⟩ := Requests.start_eq_ok_iff.mp starts
  obtain ⟨made, -⟩ := Requests.enter_eq_ok_iff.mp entered
  obtain ⟨row, found, reads⟩ := Store.readOption_eq_ok_some.mp found
  have same := stored row (List.mem_of_find?_eq_some found) (by simpa using List.find?_some found)
  subst same
  exact .start (Workflow.plan_of_readBack? reads plain) made

lemma lifecycle (h : p.Reaches r) : r.Lifecycle := by
  induction h with
  | start _ made => exact .of_request made
  | decide _ _ decides ih => exact ih.decide decides
  | store _ reads ih => exact ih.readBack reads
  | escalate _ marks ih => exact ih.escalated marks

lemma plan_eq (h : p.Reaches r) (plain : p.Unconditional) : r.plan = p := by
  induction h with
  | start plan made =>
    obtain ⟨first, deadline, -, -, rfl⟩ := Workflow.request_eq_ok_iff.mp made
    exact plan
  | decide _ _ decides ih => rw [Request.plan_of_decide decides, ih]
  | store _ reads ih =>
    have read := Request.plan_readBack? reads
    rw [ih] at read
    exact Plan.eq_of_readBack? read plain
  | escalate _ marks ih =>
    obtain ⟨-, -, rfl⟩ := Sweep.escalated_eq_some.mp marks
    exact ih

/-- Rules lead to the last step that a request reached. -/
lemma leads_to_last (h : p.Reaches r) (plain : p.Unconditional) :
    ∃ before last, r.steps = before ++ [last] ∧ ReflTransGen (Rule.Leads p.rules) 1 last.order := by
  induction h with
  | start plan made =>
    obtain ⟨first, deadline, found, -, rfl⟩ := Workflow.request_eq_ok_iff.mp made
    refine ⟨[], _, rfl, ?_⟩
    change ReflTransGen _ 1 first.order
    rw [(Plan.mem_of_step? found).2]
  | @decide r actor d now x before _ decides ih =>
    obtain ⟨old, record, step, _, outcome, rule, hs, -, -, grounds, advanced, -⟩ :=
      before.lifecycle.decide_eq_ok decides
    obtain ⟨old', last, hs', path⟩ := ih
    obtain ⟨rfl, same⟩ := List.append_inj' (hs'.symm.trans hs) rfl
    obtain rfl := List.singleton_inj.mp same
    obtain ⟨mem, starts, -⟩ := Request.rule_of_ruleOf grounds.taken
    rw [before.plan_eq plain] at mem
    have order : step.order = last.order := (Plan.mem_of_step? grounds.planned).2
    rcases advanced.next_eq with ⟨n, target, deadline, way, found, -, next⟩ | ⟨status, -, next⟩
    · rw [next]
      refine ⟨_, _, rfl, path.tail ⟨rule, mem, starts.trans order, ?_⟩⟩
      rw [Rule.resolution_eq_proceed way]
      exact congrArg some (Plan.mem_of_step? found).2.symm
    · rw [next]
      exact ⟨old', _, rfl, path⟩
  | store _ reads ih =>
    obtain ⟨before, last, hs, path⟩ := ih
    exact ⟨before.map StepRecord.asRead, last.asRead, by simp [Request.steps_of_readBack? reads, hs],
      by simpa using path⟩
  | escalate _ marks ih =>
    obtain ⟨-, -, rfl⟩ := Sweep.escalated_eq_some.mp marks
    exact ih

end Plan.Reaches

/-! ### Rules that can be taken -/

/-- Blanks around the outcome of a rule do not matter. -/
lemma Request.outcomeOf_pad {p : Plan} (valid : p.Valid) {rule : Rule} (mem : rule ∈ p.rules)
    {d : Decision} {front back : String} (hf : Text.isVacant front = true)
    (hb : Text.isVacant back = true) (named : d.outcome = front ++ rule.outcome ++ back) :
    outcomeOf d = .ok rule.outcome := by
  have outcome : Text.trim d.outcome = rule.outcome := by
    rw [named, ← valid.trimmed rule mem, Text.trim_pad_trim hf hb]
  simp [outcomeOf, outcome, valid.named rule mem, valid.unreserved rule mem]

/-- In a valid plan without conditions the rule of a step and an outcome is the one that a decision
takes. -/
lemma Request.ruleOf_eq {r : Request} (valid : r.plan.Valid) (plain : r.plan.Unconditional) {rule : Rule}
    (mem : rule ∈ r.plan.rules) {step : Step} (starts : rule.fromStep = step.order)
    (context : Option Json) : r.ruleOf step rule.outcome context = .ok rule := by
  have candidate : rule ∈ r.plan.rulesFor step.order rule.outcome := by
    simp [Plan.rulesFor, mem, starts]
  unfold ruleOf Plan.ruleFor?
  cases found : (r.plan.rulesFor step.order rule.outcome).find?
      (·.applies (Condition.data r.payload context)) with
  | none =>
    have := List.find?_eq_none.mp found rule candidate
    simp [Rule.applies, plain rule mem] at this
  | some other =>
    obtain ⟨mem', starts', outcome'⟩ : other ∈ r.plan.rules ∧ other.fromStep = step.order ∧
        other.outcome = rule.outcome := by
      simpa [Plan.rulesFor] using List.mem_of_find?_eq_some found
    have : Std.Symm fun a b : Rule => a.condition = none → b.condition = none →
        (a.fromStep, Text.trim a.outcome) ≠ (b.fromStep, Text.trim b.outcome) :=
      ⟨fun _ _ h ha hb => (h hb ha).symm⟩
    have same : other = rule := by
      by_contra different
      exact valid.distinct.forall mem' mem different (plain other mem') (plain rule mem)
        (by rw [starts', starts, outcome'])
    rw [same]

/-- In a year of four digits each way of a rule of a valid plan can be taken. -/
lemma Request.exists_advances {r : Request} (valid : r.plan.Valid) {rule : Rule}
    (mem : rule ∈ r.plan.rules) {now : Instant} (plain : now.hasPlainYear = true)
    (closed : List StepRecord) : ∃ next event, r.Advances closed now rule.resolution next event := by
  unfold Rule.resolution
  cases leads : rule.toStep with
  | none => exact ⟨_, _, .finish _⟩
  | some n =>
    obtain ⟨target, found⟩ := Plan.exists_step? (valid.targets rule mem n leads)
    obtain ⟨deadline, due⟩ := valid.passable.exists_isDue (Plan.mem_of_step? found).1 plain
    exact ⟨_, _, .proceed found due⟩

/-- A decision comes to `x` by taking a rule of the current step. -/
def Request.Takes (r : Request) (actor : Actor) (d : Decision) (now : Instant) (rule : Rule)
    (x : Decided) : Prop :=
  r.decide actor d now = .ok x ∧ x.resolution = rule.resolution ∧
    ∃ record step overridden, r.Grounds actor d record step overridden rule.outcome rule

namespace Plan.Reaches

variable {p : Plan} {r : Request}

/-- The last step of an open request is the current one. -/
lemma current?_eq (h : p.Reaches r) (isOpen : r.status.isTerminal = false) :
    ∃ before record, r.steps = before ++ [record] ∧ r.current? = some record := by
  obtain ⟨before, last, hs, pending, -⟩ :=
    h.lifecycle.waiting (Request.isOpen_of_not_isTerminal isOpen)
  exact ⟨before, last, hs, Request.current?_eq_of_steps hs pending⟩

/-- An administrator takes every rule that leaves the current step, whatever blanks are around its
outcome. -/
lemma exists_takes (h : p.Reaches r) (valid : p.Valid) (plain : p.Unconditional)
    (isOpen : r.status.isTerminal = false) {record : StepRecord} (current : r.current? = some record)
    {rule : Rule} (mem : rule ∈ p.rules) (starts : rule.fromStep = record.order) {actor : Actor}
    (admin : actor.isAdmin = true) (d : Decision) (front back : String)
    (hf : Text.isVacant front = true) (hb : Text.isVacant back = true)
    (named : d.outcome = front ++ rule.outcome ++ back)
    (expected : ∀ v, d.expectedVersion = some v → v = r.version) {now : Instant}
    (year : now.hasPlainYear = true) : ∃ x, r.Takes actor d now rule x := by
  have same := h.plan_eq plain
  subst same
  obtain ⟨before, hs, -, -⟩ := h.lifecycle.steps_eq isOpen current
  obtain ⟨step, -, order, -, -, planned⟩ := h.lifecycle.follows record (by simp [hs])
  obtain ⟨overridden, admitted⟩ := step.letThrough_of_isAdmin admin
  have grounds : r.Grounds actor d record step overridden rule.outcome rule :=
    { expected
      isOpen
      pending := current
      planned
      admitted
      named := Request.outcomeOf_pad valid mem hf hb named
      taken := Request.ruleOf_eq valid plain mem (starts.trans order) d.context }
  obtain ⟨next, event, advances⟩ := Request.exists_advances valid mem year
    (r.closedSteps rule.outcome d.context actor.userId now)
  let x : Decided :=
    { request := next
      resolution := rule.resolution
      note := r.decisionNote next actor d step overridden rule.outcome rule now
      event }
  refine ⟨x, ?_, rfl, record, step, overridden, grounds⟩
  exact Request.decide_eq_ok_iff.mpr ⟨_, _, _, _, _, grounds, advances, rfl, rfl⟩

end Plan.Reaches

variable [Supply] in
/-- After any calls, the service makes each decision that takes a rule of the request that it reads. -/
lemma World.process_of_takes (acts : List Act) {id : RequestId} {r : Request} {actor : Actor}
    {d : Decision} {c : Context} {rule : Rule} {x : Decided}
    (reads : (World.after {} acts).store.request? id = .ok (some r)) (takes : r.Takes actor d c.now rule x) :
    Requests.process id actor d c (World.after {} acts) =
      (.ok x.request, Requests.decided x (World.after {} acts)) := by
  obtain ⟨row, stored, hid, back⟩ := Store.request?_eq_some reads
  apply (Requests.process_eq_ok_iff (World.keyed_after acts)).mpr
  exact ⟨row, stored, r, x, hid, back, takes.1, (World.numbered_after acts).fresh, rfl, rfl⟩

/-! ### The way to the end -/

/-- A request after decisions of one actor at given times. -/
def Request.decideAll (actor : Actor) : Request → List (Decision × Instant) → Except Failure Request
  | r, [] => .ok r
  | r, (d, now) :: rest => do
    let x ← r.decide actor d now
    x.request.decideAll actor rest

/-- Decisions with the given outcomes at the given times. -/
def decisionsAt (outcomes : List String) (times : List Instant) : List (Decision × Instant) :=
  (outcomes.map fun outcome => { outcome }).zip times

/-- The outcomes, decided by an administrator whenever that is in years of four digits, bring the request
to its end. -/
def Request.EndsBy (r : Request) (outcomes : List String) : Prop :=
  ∀ actor : Actor, actor.isAdmin = true → ∀ times : List Instant, times.length = outcomes.length →
    (∀ t ∈ times, t.hasPlainYear = true) →
    ∃ r', r.decideAll actor (decisionsAt outcomes times) = .ok r' ∧
      (r'.status = .completed ∨ r'.status = .rejected)

lemma Request.decideAll_cons {r : Request} {actor : Actor} {d : Decision} {now : Instant}
    {rest : List (Decision × Instant)} {x : Decided} (decides : r.decide actor d now = .ok x) :
    r.decideAll actor ((d, now) :: rest) = x.request.decideAll actor rest := by
  rw [decideAll, decides]
  rfl

/-- A decision that ends a request ends it. -/
lemma Request.status_of_takes_last {r : Request} {actor : Actor} {d : Decision} {now : Instant}
    {rule : Rule} {x : Decided} (h : r.Takes actor d now rule x) (ends : rule.toStep = none) :
    x.request.status = .completed ∨ x.request.status = .rejected := by
  obtain ⟨decides, resolution, -⟩ := h
  obtain ⟨_, _, _, _, rule', -, advanced, same, -⟩ := decide_eq_ok_iff.mp decides
  rw [← same, resolution, Rule.resolution, ends] at advanced
  rcases advanced.next_eq with ⟨_, _, _, ⟨⟩, -⟩ | ⟨status, way, next⟩
  obtain rfl : rule.finalStatus = status := Resolution.finish.inj way
  rw [next]
  exact rule.finalStatus_cases

/-- A decision that leads to a step leaves the request open and waiting at it. -/
lemma Request.current?_of_takes_onward {r : Request} {actor : Actor} {d : Decision} {now : Instant}
    {rule : Rule} {x : Decided} (h : r.Takes actor d now rule x) {order : Nat}
    (leads : rule.toStep = some order) :
    x.request.status.isTerminal = false ∧ ∃ record, x.request.current? = some record ∧
      record.order = order := by
  obtain ⟨decides, resolution, -⟩ := h
  obtain ⟨_, _, _, _, rule', -, advanced, same, -⟩ := decide_eq_ok_iff.mp decides
  rw [← same, resolution, Rule.resolution, leads] at advanced
  rcases advanced.next_eq with ⟨n, target, deadline, way, found, -, next⟩ | ⟨_, ⟨⟩, -⟩
  obtain rfl : order = n := Resolution.proceed.inj way
  rw [next]
  exact ⟨rfl, _, current?_eq_of_steps rfl rfl, (Plan.mem_of_step? found).2⟩

/-- From a step that rules lead out of within so many decisions, the same outcomes lead every request to
its end. -/
lemma Plan.exists_outcomes {p : Plan} (valid : p.Valid) (plain : p.Unconditional) {n order : Nat}
    (h : Rule.Leaves p.rules n order) :
    ∃ outcomes : List String, outcomes.length ≤ n ∧
      ∀ r, p.Reaches r → r.status.isTerminal = false →
        (∀ record, r.current? = some record → record.order = order) → r.EndsBy outcomes := by
  induction h with
  | @last n rule mem ends =>
    refine ⟨[rule.outcome], by simp, ?_⟩
    intro r reached isOpen at_order actor admin times length years
    obtain ⟨time, rfl⟩ := List.length_eq_one_iff.mp length
    obtain ⟨before, record, -, current⟩ := reached.current?_eq isOpen
    obtain ⟨x, takes⟩ := reached.exists_takes valid plain isOpen current mem
      (at_order record current).symm admin { outcome := rule.outcome } "" "" rfl rfl (by simp) (by simp)
      (years time List.mem_cons_self)
    exact ⟨x.request, Request.decideAll_cons takes.1, Request.status_of_takes_last takes ends⟩
  | @onward n order rule mem leads _ ih =>
    obtain ⟨outcomes, length_le, ends⟩ := ih
    refine ⟨rule.outcome :: outcomes, by simpa using length_le, ?_⟩
    intro r reached isOpen at_order actor admin times length years
    obtain ⟨time, later, rfl⟩ := List.exists_cons_of_length_eq_add_one length
    obtain ⟨before, record, -, current⟩ := reached.current?_eq isOpen
    have year := years time List.mem_cons_self
    obtain ⟨x, takes⟩ := reached.exists_takes valid plain isOpen current mem
      (at_order record current).symm admin { outcome := rule.outcome } "" "" rfl rfl (by simp) (by simp) year
    obtain ⟨isOpen', record', current', order'⟩ := Request.current?_of_takes_onward takes leads
    have next_order (s : StepRecord) (hs : x.request.current? = some s) : s.order = order := by
      rw [Option.some.inj (hs.symm.trans current'), order']
    obtain ⟨r', decides, ended⟩ := ends x.request (.decide reached year takes.1) isOpen' next_order actor
      admin later (by simpa using length) fun t ht => years t (List.mem_cons_of_mem _ ht)
    exact ⟨r', (Request.decideAll_cons takes.1).trans decides, ended⟩

/-! ### Accepted workflows -/

lemma Workflows.unconditional_ofDraft {d : Draft} (h : ∀ rule ∈ d.rules, rule.condition = none)
    (id : WorkflowId) (createdBy : Option UserId) (now : Instant) :
    (ofDraft d.normalize id createdBy now).plan.Unconditional := by
  intro rule mem
  obtain ⟨raw, hr, rfl⟩ := List.mem_map.mp mem
  exact h raw hr

variable [Supply] in
/-- A request of an accepted workflow without conditions is not stranded while it is open: an
administrator takes any rule that leaves its current step, by a call of the service wherever the request is
what the service reads, and outcomes that are no more than the steps of the workflow bring it to its
end. -/
theorem Workflows.not_stranded {draft : Draft} {createdBy : Option UserId} {c : Context} {w w' : World}
    {wf : Workflow} (created : create draft createdBy c w = (.ok wf, w'))
    (unconditional : ∀ rule ∈ draft.rules, rule.condition = none) {r : Request}
    (reached : wf.plan.Reaches r) (isOpen : r.status.isTerminal = false) :
    (∃ record, r.current? = some record ∧
      ∀ rule ∈ r.plan.rules, rule.fromStep = record.order →
      ∀ actor : Actor, actor.isAdmin = true →
      ∀ (d : Decision) (front back : String), Text.isVacant front = true → Text.isVacant back = true →
      d.outcome = front ++ rule.outcome ++ back →
      (∀ v, d.expectedVersion = some v → v = r.version) →
      ∀ now : Instant, now.hasPlainYear = true → ∃ x, r.Takes actor d now rule x ∧
        ∀ (acts : List Act) (id : RequestId) (context : Context), context.now = now →
          (World.after {} acts).store.request? id = .ok (some r) →
          Requests.process id actor d context (World.after {} acts) =
            (.ok x.request, Requests.decided x (World.after {} acts))) ∧
    ∃ outcomes : List String, outcomes.length ≤ draft.steps.length ∧ r.EndsBy outcomes := by
  obtain ⟨accepted, rfl, -, -, -⟩ := create_eq_ok_iff.mp created
  have valid := valid_ofDraft accepted w.store.nextWorkflowId createdBy c.now
  have plain := unconditional_ofDraft unconditional w.store.nextWorkflowId createdBy c.now
  have length : (ofDraft draft.normalize w.store.nextWorkflowId createdBy c.now).plan.steps.length =
      draft.steps.length := by
    rw [Workflow.plan, ofDraft, List.length_mergeSort, Draft.normalize, List.length_map]
  obtain ⟨before, record, hs, current⟩ := reached.current?_eq isOpen
  refine ⟨⟨record, current, ?_⟩, ?_⟩
  · rw [reached.plan_eq plain]
    intro rule mem starts actor admin d front back hf hb named expected now year
    obtain ⟨x, takes⟩ :=
      reached.exists_takes valid plain isOpen current mem starts admin d front back hf hb named expected year
    refine ⟨x, takes, ?_⟩
    rintro acts id context rfl reads
    exact World.process_of_takes acts reads takes
  · obtain ⟨before', last, hs', path⟩ := reached.leads_to_last plain
    obtain ⟨-, same⟩ := List.append_inj' (hs'.symm.trans hs) rfl
    obtain rfl := List.singleton_inj.mp same
    obtain ⟨outcomes, length_le, ends⟩ := Plan.exists_outcomes valid plain (valid.wayOut _ path)
    refine ⟨outcomes, by rwa [length] at length_le, ?_⟩
    apply ends r reached isOpen
    intro record' current'
    rw [Option.some.inj (current'.symm.trans current)]

/-- A request that has just started is not stranded in a workflow of one step. -/
theorem Leave.not_stranded_of_started :
    ∃ (wf : Workflow) (w w' : World) (r : Request),
      Workflows.create Leave.draft none (Leave.clock 12) {} = (.ok wf, w) ∧
      (∀ rule ∈ Leave.draft.rules, rule.condition = none) ∧
      Requests.start wf.id Leave.admin.userId .null (Leave.clock 12) w = (.ok r, w') ∧
      r.status.isTerminal = false ∧ ∃ outcomes : List String, outcomes.length ≤ 1 ∧ r.EndsBy outcomes := by
  have accepted : Leave.draft.normalize.verify = .ok () :=
    Draft.verify_eq_ok_iff.mpr (by decide +kernel)
  obtain ⟨wf, made⟩ : ∃ wf, wf = Workflows.ofDraft Leave.draft.normalize
    ({} : World).store.nextWorkflowId none (Leave.clock 12).now := ⟨_, rfl⟩
  have created : Workflows.create Leave.draft none (Leave.clock 12) {} = (.ok wf, Workflows.created wf {}) :=
    Workflows.create_eq_ok_iff.mpr ⟨accepted, made, by simp, by simp, rfl⟩
  have unconditional : ∀ rule ∈ Leave.draft.rules, rule.condition = none := by simp [Leave.draft]
  have answers : (Requests.start wf.id Leave.admin.userId .null (Leave.clock 12)
      (Workflows.created wf {})).1.isOk = true := by
    rw [made]
    decide +kernel
  rcases starts : Requests.start wf.id Leave.admin.userId .null (Leave.clock 12) (Workflows.created wf {})
    with ⟨e | r, w'⟩
  · rw [starts] at answers
    exact Bool.noConfusion answers
  · have plain : wf.plan.Unconditional := by
      rw [made]
      exact Workflows.unconditional_ofDraft unconditional _ _ _
    have reached : wf.plan.Reaches r := by
      apply Plan.Reaches.of_start plain _ starts
      intro row stored _
      obtain rfl := List.mem_singleton.mp stored
      rfl
    have isOpen : r.status.isTerminal = false := by
      obtain ⟨_, -, -, entered⟩ := Requests.start_eq_ok_iff.mp starts
      obtain ⟨_, _, -, -, rfl⟩ := Workflow.request_eq_ok_iff.mp (Requests.enter_eq_ok_iff.mp entered).1
      rfl
    exact ⟨wf, _, w', r, created, unconditional, starts, isOpen,
      (Workflows.not_stranded created unconditional reached isOpen).2⟩

end Approval
