import Approval.Proofs.Interleaving.Linear
import Approval.Proofs.Run.Breach

/-!
# Breaches under interleaving

A sweep finds late steps in copies that it listed before, and records them later. A sweep that escalates
records a breach only of a request that is as it was listed. One that does not escalate records also what
has moved on since. Its breaches may be of steps that were closed in time, by a decision that was made
before the sweep read the clock, but saved after the sweep had listed the request.
-/

namespace Approval.Race

open Sweep (Finding Report)

/-! ### Requests that go on by commits -/

/-- The request has gone on by commits. A step that waited and is closed now was closed by a decision among
them, made on the version of then or a later one. -/
structure Reached (commits : List (Nat × Commit)) (before after : Request) : Prop where
  continues : before.Continues after
  older : before.version ≤ after.version
  closed : ∀ (p : Nat) (s t : StepRecord), before.steps[p]? = some s → after.steps[p]? = some t →
    s.isPending = true → t.isPending = false →
    ∃ i context actor d version, (i, Commit.decision context before.id actor d version) ∈ commits ∧
      before.version ≤ version ∧ t.completedAt = some context.now

section Reached

variable {commits later : List (Nat × Commit)} {before between after : Request}

/-- Steps that wait as before were not closed by anything. -/
lemma Reached.of_waits (goes : before.Continues after) (older : before.version ≤ after.version)
    (waits : ∀ (p : Nat) (s t : StepRecord), before.steps[p]? = some s → after.steps[p]? = some t →
      t.isPending = s.isPending) : Reached commits before after where
  continues := goes
  older := older
  closed := by
    intro p s t found found' pending closed
    rw [waits p s t found found', pending] at closed
    exact Bool.noConfusion closed

lemma Reached.refl (r : Request) : Reached commits r r := by
  refine .of_waits (.refl r) le_rfl fun p s t found found' => ?_
  rw [Option.some.inj (found.symm.trans found')]

lemma Reached.trans (h : Reached commits before between) (h' : Reached later between after)
    (same : between.id = before.id) : Reached (commits ++ later) before after where
  continues := h.continues.trans h'.continues
  older := h.older.trans h'.older
  closed := by
    intro p s u found found'' waits closed
    obtain ⟨t, found', -⟩ := h.continues.steps p s found
    cases waits' : t.isPending with
    | true =>
      obtain ⟨i, context, actor, d, version, mem, le, time⟩ := h'.closed p t u found' found'' waits' closed
      rw [same] at mem
      exact ⟨i, context, actor, d, version, List.mem_append_right _ mem, h.older.trans le, time⟩
    | false =>
      -- It was closed before, and stays as it was closed.
      obtain ⟨i, context, actor, d, version, mem, le, time⟩ := h.closed p s t found found' waits waits'
      obtain ⟨_, again, -, -, kept⟩ := h'.continues.steps p t found'
      obtain rfl := Option.some.inj (found''.symm.trans again)
      obtain ⟨-, -, -, -, completedAt⟩ := kept waits'
      exact ⟨i, context, actor, d, version, List.mem_append_left _ mem, le, completedAt.trans time⟩

/-- What a row reads back as has gone on to the row. -/
lemma Reached.of_stored {row copy : Request} (hr : row.Lifecycle) (reads : row.readBack? = some copy) :
    Reached commits copy row := by
  refine .of_waits (.of_stored hr reads) (Request.version_of_readBack? reads).le fun p s t found found' => ?_
  obtain ⟨t', same, rfl⟩ := (Request.getElem?_steps_of_readBack? reads).mp found
  obtain rfl := Option.some.inj (found'.symm.trans same)
  exact (hr.isPending_asRead (List.mem_of_getElem? found')).symm

/-- A row goes on by the decision that is saved in it. -/
lemma Reached.of_decide {row current : Request} (hr : row.Lifecycle) (reads : row.readBack? = some current)
    {context : Context} {actor : Actor} {d : Decision} {x : Decided}
    (decides : current.decide actor d context.now = .ok x) (i : Nat) :
    Reached [(i, .decision context current.id actor d current.version)] row
      (Store.updateRow row x.request) where
  continues := .updateRow_decide hr reads decides
  older := by
    change row.version ≤ x.request.version
    rw [Request.version_of_decide decides, Request.version_of_readBack? reads]
    omega
  closed := by
    intro p s t found found' waits closed
    rw [← Request.id_of_readBack? reads, ← Request.version_of_readBack? reads]
    refine ⟨i, context, actor, d, current.version, List.mem_singleton_self _, le_rfl, ?_⟩
    refine (hr.readBack reads).completedAt_of_decide decides
      ((Request.getElem?_steps_of_readBack? reads).mpr ⟨s, found, rfl⟩) found' ?_ closed
    rwa [hr.isPending_asRead (List.mem_of_getElem? found)]

end Reached

/-! ### What threads hold -/

/-- The breach was recorded by a sweep that does not escalate. -/
def State.Unchecked (s : State) (b : Breach) : Prop :=
  ∃ i now f, (i, Commit.breach false now f) ∈ s.commits ∧ b = f.breach now

/-- A decision that is made under a context on a version has overtaken a breach that was recorded without
escalating: the version is not older than the one that was listed, and the decision is made before the
sweep read the clock. -/
def Overtakes (commits : List (Nat × Commit)) (context : Context) (version : Int) (b : Breach) : Prop :=
  ∃ i now f, (i, Commit.breach false now f) ∈ commits ∧ b = f.breach now ∧ f.request.version ≤ version ∧
    context.now < now

/-- A decision that was saved has overtaken the breach. -/
def Overtaken (commits : List (Nat × Commit)) (b : Breach) : Prop :=
  ∃ i context actor d version, (i, Commit.decision context b.requestId actor d version) ∈ commits ∧
    Overtakes commits context version b

/-- The copy of an open request was listed, and the stored request has gone on from it. If the copy is
marked as escalated, a breach of its last step is recorded. -/
structure Listed (commits : List (Nat × Commit)) (s : Store) (copy : Request) : Prop where
  alive : copy.Lifecycle
  isOpen : copy.status = .inProgress ∨ copy.status = .escalated
  stored : ∃ row ∈ s.requests, row.id = copy.id ∧ Reached commits copy row
  escalated : copy.status = .escalated →
    ∃ b ∈ s.breaches, b.requestId = copy.id ∧ b.position + 1 = copy.steps.length

/-- What a thread holds at a point of time. A decision that was applied to the stored version was made
after the deadlines of the breaches of the step that it closes, or overtakes them. -/
def Thread.Timely (now : Instant) (commits : List (Nat × Commit)) (s : Store) : Thread → Prop
  | .call _ _ _ (.applied context current _) => context.now ≤ now ∧
      (s.version? current.id = some current.version → ∀ b ∈ s.breaches, b.requestId = current.id →
        b.position + 1 = current.steps.length →
        Overtakes commits context current.version b ∨ b.deadline < context.now)
  | .call _ _ _ _ => True
  | .sweep (.listed requests) => ∀ r ∈ requests, Listed commits s r
  | .sweep (.recording _ t left _) => t ≤ now ∧
      ∀ f ∈ left, f ∈ Sweep.findingsOf t f.request ∧ Listed commits s f.request
  | .sweep _ => True

section Overtaken

variable {commits : List (Nat × Commit)} {b : Breach}

lemma Overtakes.append {context : Context} {version : Int} (h : Overtakes commits context version b)
    (later : List (Nat × Commit)) : Overtakes (commits ++ later) context version b := by
  obtain ⟨i, now, f, mem, about⟩ := h
  exact ⟨i, now, f, List.mem_append_left _ mem, about⟩

lemma Overtaken.append (h : Overtaken commits b) (later : List (Nat × Commit)) :
    Overtaken (commits ++ later) b := by
  obtain ⟨i, context, actor, d, version, mem, overtakes⟩ := h
  exact ⟨i, context, actor, d, version, List.mem_append_left _ mem, overtakes.append later⟩

end Overtaken

section Commits

variable {s t : Store} {commits : List (Nat × Commit)} {i : Nat} {k : Commit}

/-- What a commit leaves of the requests and breaches: requests go on, and a breach that is added comes
with a new version of its request, or is of a late step of a copy that is not newer than the stored
request. -/
structure Keeps (i : Nat) (k : Commit) (s t : Store) : Prop where
  rows : ∀ row ∈ s.requests, ∃ next ∈ t.requests, next.id = row.id ∧ Reached [(i, k)] row next
  kept : ∀ b ∈ s.breaches, b ∈ t.breaches
  added : ∀ b ∈ t.breaches, b ∈ s.breaches ∨ (∃ v, k.written? = some (b.requestId, v)) ∨
    ∃ now f, k = .breach false now f ∧ b = f.breach now ∧ b.deadline < now ∧
      ∀ v, s.version? b.requestId = some v → f.request.version ≤ v

lemma Listed.of_keeps {copy : Request} (h : Listed commits s copy) (keeps : Keeps i k s t) :
    Listed (commits ++ [(i, k)]) t copy where
  alive := h.alive
  isOpen := h.isOpen
  stored := by
    obtain ⟨row, stored, id, goes⟩ := h.stored
    obtain ⟨next, mem, same, on⟩ := keeps.rows row stored
    exact ⟨next, mem, same.trans id, goes.trans on id⟩
  escalated := by
    intro marked
    obtain ⟨b, hb, about⟩ := h.escalated marked
    exact ⟨b, keeps.kept b hb, about⟩

/-- What a thread holds stays so when time passes. -/
lemma Thread.Timely.mono {thread : Thread} {now later : Instant} (h : thread.Timely now commits s)
    (le : now ≤ later) : thread.Timely later commits s := by
  cases thread with
  | call id actor d stage =>
    cases stage with
    | applied context current x => exact ⟨h.1.trans le, h.2⟩
    | arrived | observed | loaded | answered => trivial
  | sweep stage =>
    cases stage with
    | listed requests => exact h
    | recording escalate t left report => exact ⟨h.1.trans le, h.2⟩
    | waiting | answered => trivial

/-- What a thread holds stays so when something is committed. -/
lemma Thread.Timely.of_keeps {thread : Thread} {now : Instant} (h : thread.Timely now commits s)
    (sound : thread.Sound s) (writes : k.Writes s t) (keeps : Keeps i k s t) :
    thread.Timely now (commits ++ [(i, k)]) t := by
  cases thread with
  | call id actor d stage =>
    cases stage with
    | applied context current x =>
      refine ⟨h.1, ?_⟩
      intro same b hb about last
      obtain ⟨row, found, older, -⟩ := sound.2.1
      -- The copy is not older than the stored request, so that this is not what was written.
      have unwritten (v : Int) : k.written? ≠ some (current.id, v) := by
        intro written
        obtain ⟨before, after⟩ := writes.next current.id v written
        rw [Store.version?, found] at before
        have : row.version = v - 1 := Option.some.inj before
        have : v = current.version := Option.some.inj (after.symm.trans same)
        omega
      have current_before : s.version? current.id = some current.version := by
        rw [Store.version?, ← writes.others current.id unwritten]
        exact same
      rcases keeps.added b hb with old | ⟨v, written⟩ | ⟨time, f, rfl, rfl, late, older⟩
      · exact (h.2 current_before b old about last).imp_left (·.append _)
      · exact absurd (about ▸ written) (unwritten v)
      · by_cases after : (f.breach time).deadline < context.now
        · exact .inr after
        · refine .inl ⟨i, time, f, List.mem_append_right _ (List.mem_singleton_self _), rfl, ?_, ?_⟩
          · exact older _ (about ▸ current_before)
          · exact lt_of_le_of_lt after late
    | arrived | observed | loaded | answered => trivial
  | sweep stage =>
    cases stage with
    | listed requests => exact fun r hr => (h r hr).of_keeps keeps
    | recording escalate t left report =>
      exact ⟨h.1, fun f hf => ⟨(h.2 f hf).1, (h.2 f hf).2.of_keeps keeps⟩⟩
    | waiting | answered => trivial

end Commits

/-! ### Commits that are made -/

section Made

variable {w : World} {now : Instant} {excused : Breach → Prop} {commits : List (Nat × Commit)}

/-- An open request that is stored can be listed. -/
lemma listed_of_stored (h : w.Punctual now excused) {row copy : Request} (stored : row ∈ w.store.requests)
    (isOpen : row.status = .inProgress ∨ row.status = .escalated) (reads : row.readBack? = some copy) :
    Listed commits w.store copy where
  alive := (h.alive row stored).readBack reads
  isOpen := by rwa [Request.status_of_readBack? reads]
  stored := ⟨row, stored, (Request.id_of_readBack? reads).symm, .of_stored (h.alive row stored) reads⟩
  escalated := by
    intro marked
    rw [Request.status_of_readBack? reads] at marked
    obtain ⟨b, hb, about, last⟩ := h.escalated row stored marked
    rw [Request.id_of_readBack? reads, Request.steps_of_readBack? reads, List.length_map]
    exact ⟨b, hb, about, last⟩

variable [Supply]

lemma keeps_decided (h : w.Punctual now excused) (hk : w.store.Keyed) {row current : Request}
    {context : Context} {actor : Actor} {d : Decision} {x : Decided} (stored : row ∈ w.store.requests)
    (reads : row.readBack? = some current) (decides : current.decide actor d context.now = .ok x)
    (i : Nat) : Keeps i (.decision context current.id actor d current.version) w.store
      (Requests.decided x w).store where
  rows := by
    intro q hq
    have member {p : Request} := Requests.mem_requests_decided (q := p) hk stored reads decides
    by_cases same : q.id = row.id
    · obtain rfl := hk.eq_of_id hq stored same
      exact ⟨_, member.mpr (.inr rfl), rfl, .of_decide (h.alive q hq) reads decides i⟩
    · exact ⟨q, member.mpr (.inl ⟨hq, same⟩), rfl, .refl q⟩
  kept := fun _ hb => hb
  added := fun _ hb => .inl hb

/-- A finding that is recorded by a sweep that escalates is about the stored request. -/
lemma current_of_recordable (hk : w.store.Keyed) {t : Instant} {f : Finding}
    (late : f ∈ Sweep.findingsOf t f.request) (listed : Listed commits w.store f.request)
    (tracks : Tracks w.store f.request) (recordable : Sweep.Recordable true t f w.store) :
    (Sweep.escalated true t f.request).isSome = true ∧
      ∃ row ∈ w.store.requests, row.readBack? = some f.request := by
  obtain ⟨-, found, due, lateness⟩ := Sweep.mem_findingsOf.mp late
  rcases listed.isOpen with inProgress | marked
  · have marks : (Sweep.escalated true t f.request).isSome = true := by
      simp [Sweep.escalated, inProgress]
    exact ⟨marks, exists_row_of_marked hk tracks recordable marks⟩
  · -- A breach of the last step is recorded already, and a late step is the last one.
    obtain ⟨b, hb, about, last⟩ := listed.escalated marked
    have position : b.position = f.position := by
      have := listed.alive.succ_eq_length found (Sweep.isPending_of_isLate lateness)
      omega
    have new := recordable.new b hb
    simp [Breach.isSame, Sweep.Finding.breach, about, position] at new

/-- A late step that was listed, and that can be recorded, leaves the breaches right if those are excused
that decisions have overtaken. -/
lemma punctual_breached (hk : w.store.Keyed) {escalate : Bool} {t : Instant} {f : Finding} {i : Nat}
    (h : w.Punctual now (Overtaken (commits ++ [(i, .breach escalate t f)]))) (past : t ≤ now)
    (late : f ∈ Sweep.findingsOf t f.request) (listed : Listed commits w.store f.request)
    (tracks : Tracks w.store f.request) (recordable : Sweep.Recordable escalate t f w.store) :
    (Sweep.breached escalate t f w).Punctual now (Overtaken (commits ++ [(i, .breach escalate t f)])) ∧
      Keeps i (.breach escalate t f) w.store (Sweep.breached escalate t f w).store := by
  obtain ⟨isOf, before⟩ :=
    Sweep.isOf_of_mem_findingsOf late (Overtaken (commits ++ [(i, .breach escalate t f)]) (f.breach t))
  obtain ⟨-, found, -, lateness⟩ := Sweep.mem_findingsOf.mp late
  cases escalate with
  | false =>
    obtain ⟨row, stored, id, goes⟩ := listed.stored
    refine ⟨h.breached hk before past ⟨row, stored, id, ?_⟩ fun marks => by simp [Sweep.escalated] at marks, ?_⟩
    · refine isOf.of_continues goes.continues fun s u found found' waits closed => ?_
      obtain ⟨j, context, actor, d, version, mem, newer, time⟩ := goes.closed _ s u found found' waits closed
      by_cases after : f.deadline < context.now
      · exact .inr ⟨context.now, time, after⟩
      · -- The decision was made in time, so that it was made before the sweep read the clock.
        refine .inl ⟨j, context, actor, d, version, List.mem_append_left _ mem, i, t, f, ?_, rfl, newer, ?_⟩
        · exact List.mem_append_right _ (List.mem_singleton_self _)
        · exact lt_of_le_of_lt after before
    · refine ⟨fun q hq => ⟨q, hq, rfl, .refl q⟩, fun b hb => List.mem_append_left _ hb, fun b hb => ?_⟩
      refine (List.mem_append.mp hb).imp_right fun new => .inr ⟨t, f, rfl, ?_⟩
      obtain rfl := List.mem_singleton.mp new
      refine ⟨rfl, before, fun v at_version => ?_⟩
      change w.store.version? f.request.id = some v at at_version
      rw [Store.version?, ← id, hk.row?_eq stored] at at_version
      exact goes.older.trans_eq (Option.some.inj at_version)
  | true =>
    obtain ⟨marks, row, stored, reads⟩ := current_of_recordable hk late listed tracks recordable
    obtain ⟨marked, marks⟩ := Option.isSome_iff_exists.mp marks
    have row_id := Request.id_of_readBack? reads
    have last := listed.alive.succ_eq_length found (Sweep.isPending_of_isLate lateness)
    refine ⟨h.breached hk before past ?_ fun _ => ⟨⟨row, stored, reads⟩, last⟩, ?_, ?_, ?_⟩
    · exact ⟨row, stored, row_id.symm, (Breach.IsOf.readBack_iff (h.alive row stored) reads).mp isOf⟩
    · intro q hq
      obtain ⟨next, mem, same, goes, older, waits⟩ :=
        Store.exists_escalatedBy hk h.alive (fun _ => ⟨row, stored, reads⟩) hq
      exact ⟨next, mem, same, .of_waits goes older waits⟩
    · exact fun b hb => List.mem_append_left _ hb
    · intro b hb
      refine (List.mem_append.mp hb).imp_right fun new => .inl ⟨marked.version, ?_⟩
      rw [List.mem_singleton.mp new, Commit.written?, marks]
      obtain ⟨-, -, rfl⟩ := Sweep.escalated_eq_some.mp marks
      rfl

end Made

/-! ### States -/

namespace State

/-- What holds at a point of time, if the clock does not go back. -/
structure Timely (now : Instant) (s : State) : Prop where
  punctual : s.world.Punctual now (Overtaken s.commits)
  threads : ∀ (i : Nat) (t : Thread), s.threads[i]? = some t → t.Timely now s.commits s.world.store

variable {now : Instant} {w : World} {s : State}

lemma timely_start (h : w.Punctual now fun _ => False) (tasks : List Task) : (start w tasks).Timely now where
  punctual := h.mono le_rfl fun _ => False.elim
  threads := by
    intro i t found
    obtain ⟨task, -, rfl⟩ := List.mem_map.mp (List.mem_of_getElem? found)
    cases task <;> trivial

/-- A thread moves and commits nothing. -/
lemma Timely.quiet (h : s.Timely now) {next : Thread} (timely : next.Timely now s.commits s.world.store)
    (i : Nat) : Timely now { s with threads := s.threads.set i next } where
  punctual := h.punctual
  threads := by
    intro j t found
    rcases cases_of_getElem?_set found with ⟨-, rfl⟩ | ⟨-, old⟩
    · exact timely
    · exact h.threads j t old

variable [Supply]

/-- A thread moves and makes a commit. -/
lemma Timely.commits (sound : s.Sound w) (h : s.Timely now) {s' : State} {i : Nat} {next : Thread}
    {k : Commit} (moved : s'.threads = s.threads.set i next) (committed : s'.commits = s.commits ++ [(i, k)])
    (writes : k.Writes s.world.store s'.world.store)
    (made : s'.world.Punctual now (Overtaken (s.commits ++ [(i, k)])) ∧
      Keeps i k s.world.store s'.world.store)
    (timely : Keeps i k s.world.store s'.world.store →
      next.Timely now (s.commits ++ [(i, k)]) s'.world.store) : s'.Timely now where
  punctual := by
    rw [committed]
    exact made.1
  threads := by
    intro j t found
    rw [moved] at found
    rw [committed]
    rcases cases_of_getElem?_set found with ⟨-, rfl⟩ | ⟨-, old⟩
    · exact timely made.2
    · exact (h.threads j t old).of_keeps (sound.threads j t old) writes made.2

omit [Supply] in
/-- Time passes. -/
lemma Timely.mono (h : s.Timely now) {later : Instant} (le : now ≤ later) : s.Timely later where
  punctual := h.punctual.mono le fun _ => id
  threads := fun i t found => (h.threads i t found).mono le

lemma Timely.step (sound : s.Sound w) {c : Context} (h : s.Timely c.now) (i : Nat) :
    (s.step i c).Timely c.now := by
  cases found : s.threads[i]? with
  | none =>
    rw [step_of_none found]
    exact h
  | some t =>
    have timely := h.threads i t found
    have holds := sound.threads i t found
    have takes := t.step_takes (c := c) sound.keyed sound.numbered holds
    rcases moved : t.step c s.world with ⟨next, world, commit⟩
    rw [moved] at takes
    rw [step_eq found moved]
    have quiet (same : next.Timely c.now s.commits s.world.store) :
        Timely c.now { s with threads := s.threads.set i next, commits := s.commits ++ [] } := by
      rw [List.append_nil]
      exact h.quiet same i
    cases takes with
    | @saves actor d context current x decides same =>
      obtain ⟨-, -, writes⟩ := commit_of_current (c := c) sound.keyed sound.numbered holds.2.1 decides same
      obtain ⟨row, at_id, reads⟩ := Store.request?_eq_ok_some.mp (holds.2.1.request?_eq same)
      obtain ⟨stored, id⟩ := Store.mem_of_row? at_id
      refine h.commits sound rfl rfl writes ⟨?_, keeps_decided h.punctual sound.keyed stored reads decides i⟩
        fun _ => trivial
      have more := h.punctual.mono le_rfl fun b (old : Overtaken s.commits b) =>
        old.append [(i, .decision context current.id actor d current.version)]
      refine more.decided sound.keyed stored reads decides fun b hb about last => ?_
      have of_current := about.trans id
      rw [← List.length_map (f := StepRecord.asRead), ← Request.steps_of_readBack? reads] at last
      refine (timely.2 same b hb of_current last).imp_left fun overtakes => ?_
      refine ⟨i, context, actor, d, current.version, List.mem_append_right _ ?_, overtakes.append _⟩
      rw [of_current]
      exact List.mem_singleton_self _
    | @records escalate now f left report recordable =>
      obtain ⟨past, waits⟩ := timely
      obtain ⟨late, listed⟩ := waits f List.mem_cons_self
      have tracks := holds f List.mem_cons_self
      obtain ⟨-, writes⟩ := record_of_recordable sound.keyed tracks recordable
      refine h.commits sound rfl rfl writes ?_ fun keeps => ⟨past, fun g hg => ?_⟩
      · refine punctual_breached sound.keyed ?_ past late listed tracks recordable
        exact h.punctual.mono le_rfl fun b old => old.append _
      · obtain ⟨late', listed'⟩ := waits g (List.mem_cons_of_mem _ hg)
        exact ⟨late', listed'.of_keeps keeps⟩
    | applies decides =>
      refine quiet ⟨le_rfl, fun _ b hb _ _ => .inr ?_⟩
      exact (h.punctual.late b hb).1.trans_le (h.punctual.late b hb).2
    | lists opened =>
      refine quiet fun r hr => ?_
      obtain ⟨row, stored, isOpen, reads⟩ := Store.mem_listOpen opened hr
      exact listed_of_stored h.punctual stored isOpen reads
    | looks requests =>
      refine quiet ⟨le_rfl, fun f hf => ?_⟩
      obtain ⟨r, hr, late⟩ := List.mem_flatMap.mp hf
      obtain rfl := (Sweep.mem_findingsOf.mp late).1
      exact ⟨late, timely _ hr⟩
    | passes => exact quiet ⟨timely.1, fun g hg => timely.2 g (List.mem_cons_of_mem _ hg)⟩
    | observes | loads | refused | fails | ends => exact quiet trivial
    | rests => exact quiet timely

/-- Under a clock that does not go back, what holds at the start holds after any steps. -/
lemma Timely.run (sound : s.Sound w) (h : s.Timely now) (schedule : List (Nat × Context))
    (clock : (now :: schedule.map (·.2.now)).Pairwise (· ≤ ·)) :
    ∃ later, (s.run schedule).Timely later := by
  induction schedule generalizing s now with
  | nil => exact ⟨now, h⟩
  | cons turn schedule ih =>
    rw [List.map_cons, List.pairwise_cons] at clock
    have at_turn := h.mono (clock.1 _ List.mem_cons_self)
    exact ih (sound.step turn.1 turn.2) (at_turn.step sound turn.1) clock.2

/-- Nothing is recorded but by sweeps that escalate. -/
structure Escalates (s : State) : Prop where
  commits : ∀ b, ¬s.Unchecked b
  threads : ∀ (i : Nat) (t : Thread), s.threads[i]? = some t → ∀ escalate now left report,
    t = .sweep (.recording escalate now left report) → escalate = true

omit [Supply] in
lemma escalates_start (w : World) (tasks : List Task) : (start w tasks).Escalates where
  commits := by
    rintro b ⟨i, now, f, mem, -⟩
    cases mem
  threads := by
    rintro i t found escalate now left report rfl
    obtain ⟨task, -, same⟩ := List.mem_map.mp (List.mem_of_getElem? found)
    cases task <;> cases same

lemma Escalates.step (sound : s.Sound w) (h : s.Escalates) {c : Context}
    (on : c.settings.sweep.escalate = true) (i : Nat) : (s.step i c).Escalates := by
  cases found : s.threads[i]? with
  | none =>
    rw [step_of_none found]
    exact h
  | some t =>
    have takes := t.step_takes (c := c) sound.keyed sound.numbered (sound.threads i t found)
    rcases moved : t.step c s.world with ⟨next, world, commit⟩
    rw [moved] at takes
    rw [step_eq found moved]
    refine
      { commits := ?_
        threads := ?_ }
    · rintro b ⟨j, now, f, mem, rfl⟩
      rcases List.mem_append.mp mem with old | new
      · exact h.commits _ ⟨j, now, f, old, rfl⟩
      · -- What is recorded now is what the thread was going to record.
        cases takes with
        | records =>
          simp only [Option.toList_some, List.map_singleton, List.mem_singleton, Prod.mk.injEq,
            Commit.breach.injEq] at new
          exact Bool.noConfusion (new.2.1.trans (h.threads i _ found _ _ _ _ rfl))
        | _ => simp at new
    · rintro j t' found' escalate now left report rfl
      rcases cases_of_getElem?_set found' with ⟨rfl, same⟩ | ⟨-, old⟩
      · subst same
        cases takes with
        | looks => exact on
        | records | passes | rests => exact h.threads i _ found _ _ _ _ rfl
      · exact h.threads j _ old _ _ _ _ rfl

lemma Escalates.run (sound : s.Sound w) (h : s.Escalates) (schedule : List (Nat × Context))
    (on : ∀ turn ∈ schedule, turn.2.settings.sweep.escalate = true) : (s.run schedule).Escalates := by
  induction schedule generalizing s with
  | nil => exact h
  | cons turn schedule ih =>
    obtain ⟨on_turn, on⟩ := List.forall_mem_cons.mp on
    exact ih (sound.step turn.1 turn.2) (h.step sound on_turn turn.1) on

/-! ### Recorded breaches -/

/-- What recorded breaches are of after the steps of a schedule. -/
structure BreachesHold (schedule : List (Nat × Context)) (s : State) : Prop where
  /-- A breach was detected after its deadline, which is that of a step at its position. That step waits or
  was closed after the deadline, unless a sweep that does not escalate has recorded the breach and a
  decision has overtaken it. -/
  known : ∀ b ∈ s.world.store.breaches, b.deadline < b.detectedAt ∧
    ∃ r ∈ s.world.store.requests, r.id = b.requestId ∧ b.IsOf (Overtaken s.commits b) r
  /-- If sweeps escalate, none of them has recorded a breach without, so that no breach is overtaken. -/
  checked : (∀ turn ∈ schedule, turn.2.settings.sweep.escalate = true) → ∀ b, ¬s.Unchecked b
  /-- What the audit log tells of a breach is told of a recorded one. -/
  audited : ∀ e ∈ s.world.store.audit, e.action = .breachDetected →
    ∃ b ∈ s.world.store.breaches, e.requestId = some b.requestId ∧ e.TellsBreach b
  /-- What is announced as late is a recorded breach. -/
  announced : ∀ id name order stepName deadline,
    .stepLate id name order stepName deadline ∈ s.world.events →
    ∃ b ∈ s.world.store.breaches, b.requestId = id ∧ b.order = order ∧ b.deadline = deadline

end State

variable [Supply] in
/-- However the steps of calls and sweeps are interleaved after some calls, a breach is of a step that
waits or was closed too late if the clock does not go back, except where a sweep that does not escalate
has recorded it and a decision has overtaken it. -/
theorem breachesHold_run (acts : List Act) (tasks : List Task) (schedule : List (Nat × Context))
    (clock : (acts.map (·.context.now) ++ schedule.map (·.2.now)).Pairwise (· ≤ ·)) :
    ((State.start (World.after {} acts) tasks).run schedule).BreachesHold schedule := by
  have sound := State.sound_start (World.keyed_after acts) (World.numbered_after acts) tasks
  obtain ⟨before, during, across⟩ := List.pairwise_append.mp clock
  have timely : ∃ later, ((State.start (World.after {} acts) tasks).run schedule).Timely later := by
    cases schedule with
    | nil =>
      obtain ⟨now, past⟩ := Instant.exists_last before
      exact ⟨now, State.timely_start (World.punctual_after acts before fun a ha =>
        past _ (List.mem_map_of_mem ha)) tasks⟩
    | cons turn schedule =>
      have past (a : Act) (ha : a ∈ acts) : a.context.now ≤ turn.2.now :=
        across _ (List.mem_map_of_mem ha) _ List.mem_cons_self
      refine (State.timely_start (World.punctual_after acts before past) tasks).run sound _ ?_
      refine List.pairwise_cons.mpr ⟨List.forall_mem_cons.mpr ⟨le_rfl, ?_⟩, during⟩
      exact (List.pairwise_cons.mp during).1
  obtain ⟨later, timely⟩ := timely
  exact
    { known := fun b hb => ⟨(timely.punctual.late b hb).1, timely.punctual.known b hb⟩
      checked := fun on => ((State.escalates_start _ tasks).run sound schedule on).commits
      audited := timely.punctual.audit
      announced := timely.punctual.events }

/-! ### A decision between listing and recording -/

/-- A sweep lists the waiting request an hour before its deadline, which is when it is decided. The sweep
reads the clock two hours later. -/
def lateClock : List (Nat × Context) :=
  [(0, Leave.clock 12), (1, Leave.clock 12), (1, Leave.clock 12), (1, Leave.clock 12), (1, Leave.clock 12),
    (0, Leave.clock 14), (0, Leave.clock 14), (0, Leave.clock 14)]

/-- What the sweep and the call come to after the request was started. -/
def lateSweep : State :=
  (State.start (World.after {} (Leave.run.take 2))
    [.sweep, .decide Leave.request Leave.admin { outcome := "APPROVED" }]).run lateClock

/-- The clock does not go back, and the breach of the step that was closed in time is one that the sweep
has recorded without escalating and that the decision has overtaken. -/
theorem breachesHold_lateSweep :
    ((Leave.run.take 2).map (·.context.now) ++ lateClock.map (·.2.now)).Pairwise (· ≤ ·) ∧
      lateSweep.BreachesHold lateClock ∧
      ∃ b ∈ lateSweep.world.store.breaches, Overtaken lateSweep.commits b := by
  have clock : ((Leave.run.take 2).map (·.context.now) ++ lateClock.map (·.2.now)).Pairwise (· ≤ ·) := by
    decide +kernel
  have holds : lateSweep.BreachesHold lateClock := breachesHold_run _ _ lateClock clock
  have early : ∃ b ∈ lateSweep.world.store.breaches,
      ¬∃ r ∈ lateSweep.world.store.requests, r.id = b.requestId ∧ b.IsOf False r := by decide +kernel
  refine ⟨clock, holds, ?_⟩
  obtain ⟨b, recorded, not_late⟩ := early
  refine ⟨b, recorded, by_contra fun checked => not_late ?_⟩
  obtain ⟨-, r, stored, id, isOf⟩ := holds.known b recorded
  exact ⟨r, stored, id, isOf.mono checked⟩

/-- The decision has succeeded in time, and the breach is recorded, audited and announced all the same. -/
theorem lateSweep_decided_in_time :
    ((Leave.run.take 2).map (·.context.now) ++ lateClock.map (·.2.now)).Pairwise (· ≤ ·) ∧
      (∃ b ∈ lateSweep.world.store.breaches, ∀ r ∈ lateSweep.world.store.requests,
        r.id = b.requestId → r.status = .completed ∧ ¬b.IsOf False r) ∧
      (∃ e ∈ lateSweep.world.store.audit, e.action = .breachDetected) ∧
      ∃ e ∈ lateSweep.world.events, e matches .stepLate .. := by
  decide +kernel

end Approval.Race
