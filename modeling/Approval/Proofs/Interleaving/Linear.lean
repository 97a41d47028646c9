import Approval.Proofs.Interleaving.Serial
import Mathlib.Data.List.Pairwise

/-!
# Interleaved calls as calls one after the other

However the steps of calls and sweeps are interleaved, the world is the one that the committed decisions
and breaches make one after the other. What carries this is that a request is determined by its version:
a copy that was read once is the stored request as long as the two have the same version, and a write
that expects the version of the copy meets that request.
-/

namespace Approval.Race

open Sweep (Finding Report)

/-! ### What threads hold -/

/-- What a call holds at a stage is about the stored requests. -/
def CallStage.Sound (s : Store) (id : RequestId) (actor : Actor) (d : Decision) : CallStage → Prop
  | .loaded current => current.id = id ∧ Tracks s current
  | .applied context current x =>
    current.id = id ∧ Tracks s current ∧ current.decide actor d context.now = .ok x
  | _ => True

/-- What a sweep holds at a stage is about the stored requests. -/
def SweepStage.Sound (s : Store) : SweepStage → Prop
  | .listed requests => ∀ r ∈ requests, Tracks s r
  | .recording _ _ left _ => ∀ f ∈ left, Tracks s f.request
  | _ => True

/-- What a thread holds is about the stored requests. -/
def Thread.Sound (s : Store) : Thread → Prop
  | .call id actor d stage => stage.Sound s id actor d
  | .sweep stage => stage.Sound s

/-- What a thread holds stays so as long as its copies do. -/
lemma Thread.Sound.mono {s t : Store} {thread : Thread} (h : thread.Sound s)
    (kept : ∀ {copy}, Tracks s copy → Tracks t copy) : thread.Sound t := by
  cases thread with
  | call id actor d stage =>
    cases stage with
    | loaded current => exact ⟨h.1, kept h.2⟩
    | applied context current x => exact ⟨h.1, kept h.2.1, h.2.2⟩
    | arrived | observed | answered => trivial
  | sweep stage =>
    cases stage with
    | listed requests => exact fun r hr => kept (h r hr)
    | recording escalate now left report => exact fun f hf => kept (h f hf)
    | waiting | answered => trivial

/-- What a thread holds stays so when something is committed. -/
lemma Thread.Sound.of_writes {s t : Store} {thread : Thread} {k : Commit} (h : thread.Sound s)
    (writes : k.Writes s t) : thread.Sound t :=
  h.mono writes.tracks

/-- The commits of a thread are what it answers for: a call that has succeeded committed its decision on
the version before the one that it answers, any other call nothing, and a sweep the breaches that it
reports. -/
def Thread.Accounts : Thread → List Commit → Prop
  | .call id actor d (.answered (.ok r)), ks => r.id = id ∧
      (∃ context, ks = [.decision context id actor d (r.version - 1)]) ∧
      ∀ v, d.expectedVersion = some v → r.version = v + 1
  | .call _ _ _ _, ks => ks = []
  | .sweep (.recording _ _ _ report), ks => ks.length = report.breaches ∧
      ∀ k ∈ ks, ∃ escalate now f, k = .breach escalate now f
  | .sweep (.answered (.ok report)), ks => ks.length = report.breaches ∧
      ∀ k ∈ ks, ∃ escalate now f, k = .breach escalate now f
  | .sweep _, ks => ks = []

/-! ### What a step does -/

section Supplied

variable [Supply]

/-- The steps that a thread may take under a context, with the thread and the world after it and what was
committed. -/
inductive Thread.Takes (c : Context) (w : World) : Thread → Thread × World × Option Commit → Prop
  | observes {id : RequestId} {actor : Actor} {d : Decision} (version : Int) :
      Takes c w (.call id actor d .arrived) (.call id actor d (.observed version), w, none)
  | loads {current : Request} {actor : Actor} {d : Decision}
      (found : w.store.request? current.id = .ok (some current)) :
      Takes c w (.call current.id actor d (.observed current.version))
        (.call current.id actor d (.loaded current), w, none)
  | applies {id : RequestId} {actor : Actor} {d : Decision} {current : Request} {x : Decided}
      (decides : current.decide actor d c.now = .ok x) :
      Takes c w (.call id actor d (.loaded current)) (.call id actor d (.applied c current x), w, none)
  | saves {actor : Actor} {d : Decision} {context : Context} {current : Request} {x : Decided}
      (decides : current.decide actor d context.now = .ok x)
      (same : w.store.version? current.id = some current.version) :
      Takes c w (.call current.id actor d (.applied context current x))
        (.call current.id actor d (.answered (.ok x.request)), Requests.decided x w,
          some (.decision context current.id actor d current.version))
  | refused {id : RequestId} {actor : Actor} {d : Decision} {stage : CallStage} (e : Failure)
      (unanswered : ∀ answer, stage ≠ .answered answer) :
      Takes c w (.call id actor d stage) (.call id actor d (.answered (.error e)), w, none)
  | lists {requests : List Request} (listed : w.store.listOpen = .ok requests) :
      Takes c w (.sweep .waiting) (.sweep (.listed requests), w, none)
  | fails (e : Failure) : Takes c w (.sweep .waiting) (.sweep (.answered (.error e)), w, none)
  | looks (requests : List Request) :
      Takes c w (.sweep (.listed requests))
        (.sweep (.recording c.settings.sweep.escalate c.now (Sweep.findings c.now requests)
          { scanned := requests.length }), w, none)
  | records {escalate : Bool} {now : Instant} {f : Finding} (left : List Finding) (report : Report)
      (recordable : Sweep.Recordable escalate now f w.store) :
      Takes c w (.sweep (.recording escalate now (f :: left) report))
        (.sweep (.recording escalate now left (report.more escalate now f)),
          Sweep.breached escalate now f w, some (.breach escalate now f))
  | passes (escalate : Bool) (now : Instant) (f : Finding) (left : List Finding) (report : Report) :
      Takes c w (.sweep (.recording escalate now (f :: left) report))
        (.sweep (.recording escalate now left report), w, none)
  | ends (escalate : Bool) (now : Instant) (report : Report) :
      Takes c w (.sweep (.recording escalate now [] report)) (.sweep (.answered (.ok report)), w, none)
  | rests (t : Thread) : Takes c w t (t, w, none)

/-- A step commits nothing and leaves the world alone, or it makes a commit. -/
inductive Thread.Moves (w : World) (t : Thread) : Thread × World × Option Commit → Prop
  | quiet {next : Thread} (sound : next.Sound w.store) (accounts : ∀ ks, t.Accounts ks → next.Accounts ks) :
      Moves w t (next, w, none)
  | commits {next : Thread} {w' : World} {k : Commit} (runs : k.Runs w w')
      (writes : k.Writes w.store w'.store) (keyed : w'.store.Keyed) (numbered : w'.store.Numbered)
      (sound : next.Sound w'.store) (accounts : ∀ ks, t.Accounts ks → next.Accounts (ks ++ [k])) :
      Moves w t (next, w', some k)

section Step

variable {c : Context} {w : World}

lemma call_takes (hk : w.store.Keyed) (hn : w.store.Numbered) {id : RequestId} {actor : Actor}
    {d : Decision} {stage : CallStage} (sound : stage.Sound w.store id actor d) :
    Thread.Takes c w (.call id actor d stage) ((Thread.call id actor d stage).step c w) := by
  cases stage with
  | arrived =>
    have inert := Requests.versionFor_inert id d c w
    simp only [Thread.step, CallStage.step]
    rcases observes : Requests.versionFor id d c w with ⟨e | version, u⟩
    all_goals
      rw [observes] at inert
      obtain rfl : u = w := inert
    · exact .refused e (by simp)
    · exact .observes version
  | observed version =>
    simp only [Thread.step, CallStage.step]
    rcases loads : Requests.get id c w with ⟨e | current, u⟩
    · have inert := Requests.get_inert id c w
      rw [loads] at inert
      obtain rfl : u = w := inert
      exact .refused e (by simp)
    · obtain ⟨found, rfl⟩ := Requests.get_eq_ok_iff.mp loads
      obtain ⟨row, at_id, reads⟩ := Store.request?_eq_ok_some.mp found
      obtain rfl : current.id = id := by
        rw [Request.id_of_readBack? reads, (Store.mem_of_row? at_id).2]
      by_cases same : current.version = version
      · subst same
        simp only [if_true]
        exact .loads found
      · simp only [same, if_false]
        exact .refused _ (by simp)
  | loaded current =>
    simp only [Thread.step, CallStage.step]
    cases decides : current.decide actor d c.now with
    | error e => exact .refused e (by simp)
    | ok x => exact .applies decides
  | applied context current x =>
    obtain ⟨rfl, tracks, decides⟩ := sound
    simp only [Thread.step, CallStage.step]
    by_cases same : w.store.version? current.id = some current.version
    · obtain ⟨saves, -, -⟩ := commit_of_current (c := c) hk hn tracks decides same
      rw [saves]
      exact .saves decides same
    · rw [commit_of_not_current hk decides same]
      exact .refused _ (by simp)
  | answered answer => exact .rests _

lemma sweep_takes (hk : w.store.Keyed) (stage : SweepStage) :
    Thread.Takes c w (.sweep stage) ((Thread.sweep stage).step c w) := by
  cases stage with
  | waiting =>
    simp only [Thread.step, SweepStage.step]
    rcases lists : Operation.read (·.listOpen) c w with ⟨e | requests, u⟩
    · obtain ⟨-, -, -, rfl⟩ := Operation.read_eq_error_iff.mp lists
      exact .fails e
    · obtain ⟨listed, rfl⟩ := Operation.read_eq_ok_iff.mp lists
      exact .lists listed
  | listed requests => exact .looks requests
  | recording escalate now left report =>
    cases left with
    | nil => exact .ends escalate now report
    | cons f left =>
      simp only [Thread.step, SweepStage.step]
      by_cases recordable : Sweep.Recordable escalate now f w.store
      · rw [Sweep.record_of_recordable hk recordable]
        have more : report.breaches < (report.more escalate now f).breaches := Nat.lt_succ_self _
        simp only [more, if_true]
        exact .records left report recordable
      · rw [Sweep.record_of_not_recordable hk recordable]
        simp only [Nat.lt_irrefl, if_false]
        exact .passes escalate now f left report
  | answered answer => exact .rests _

/-- Every step is one of those that may be taken. -/
lemma Thread.step_takes (hk : w.store.Keyed) (hn : w.store.Numbered) {t : Thread}
    (sound : t.Sound w.store) : Takes c w t (t.step c w) := by
  cases t with
  | call id actor d stage => exact call_takes hk hn sound
  | sweep stage => exact sweep_takes hk stage

lemma Thread.Takes.moves {t : Thread} {after : Thread × World × Option Commit} (hk : w.store.Keyed)
    (hn : w.store.Numbered) (sound : t.Sound w.store) (h : Takes c w t after) : t.Moves w after := by
  cases h with
  | observes => exact .quiet trivial fun _ h => h
  | loads found =>
    obtain ⟨row, found, reads⟩ := Store.request?_eq_ok_some.mp found
    exact .quiet ⟨rfl, tracks_of_row? found reads⟩ fun _ h => h
  | applies decides => exact .quiet ⟨sound.1, sound.2, decides⟩ fun _ h => h
  | @saves actor d context current x decides same =>
    obtain ⟨-, tracks, -⟩ := sound
    obtain ⟨-, runs, writes⟩ := commit_of_current (c := c) hk hn tracks decides same
    refine .commits runs writes (Requests.keyed_decided hk x) (hn.append rfl) trivial ?_
    rintro _ rfl
    refine ⟨Request.id_of_decide decides, ⟨context, ?_⟩, ?_⟩
    · rw [Request.version_of_decide decides, Int.add_sub_cancel, List.nil_append]
    · obtain ⟨_, _, _, _, _, grounds, -⟩ := Request.decide_eq_ok_iff.mp decides
      intro v expected
      rw [Request.version_of_decide decides, grounds.expected v expected]
  | @refused id actor d stage e unanswered =>
    refine .quiet trivial fun _ h => ?_
    cases stage with
    | answered answer => exact absurd rfl (unanswered answer)
    | _ => exact h
  | lists listed =>
    refine .quiet (fun r hr => ?_) fun _ h => h
    obtain ⟨row, stored, -, reads⟩ := Store.mem_listOpen listed hr
    exact tracks_of_row? (hk.row?_eq stored) reads
  | fails => exact .quiet trivial fun _ h => h
  | looks requests =>
    refine .quiet (fun f hf => ?_) ?_
    · obtain ⟨r, hr, hf⟩ := List.mem_flatMap.mp hf
      rw [(Sweep.mem_findingsOf.mp hf).1]
      exact sound r hr
    · rintro _ rfl
      exact ⟨rfl, by simp⟩
  | @records escalate now f left report recordable =>
    obtain ⟨runs, writes⟩ := record_of_recordable hk (sound f List.mem_cons_self) recordable
    refine .commits runs writes (Sweep.keyed_breached hk f) (hn.append rfl)
      (fun g hg => writes.tracks (sound g (List.mem_cons_of_mem _ hg))) ?_
    rintro ks ⟨length, breaches⟩
    refine ⟨by rw [List.length_append, length]; rfl, ?_⟩
    intro k hk
    rcases List.mem_append.mp hk with old | last
    · exact breaches k old
    · exact ⟨escalate, now, f, List.mem_singleton.mp last⟩
  | passes => exact .quiet (fun g hg => sound g (List.mem_cons_of_mem _ hg)) fun _ h => h
  | ends => exact .quiet trivial fun _ h => h
  | rests => exact .quiet sound fun _ h => h

lemma Thread.step_moves (hk : w.store.Keyed) (hn : w.store.Numbered) {t : Thread}
    (sound : t.Sound w.store) : t.Moves w (t.step c w) :=
  (step_takes hk hn sound).moves hk hn sound

end Step

/-! ### States -/

namespace State

/-- What holds in every state that steps lead to from a world. -/
structure Sound (w : World) (s : State) : Prop where
  keyed : s.world.store.Keyed
  numbered : s.world.store.Numbered
  serial : Serial w (s.commits.map (·.2)) s.world
  threads : ∀ (i : Nat) (t : Thread), s.threads[i]? = some t → t.Sound s.world.store
  accounts : ∀ (i : Nat) (t : Thread), s.threads[i]? = some t → t.Accounts (s.commitsOf i)

variable {w : World} {s : State}

lemma sound_start (hk : w.store.Keyed) (hn : w.store.Numbered) (tasks : List Task) :
    (start w tasks).Sound w where
  keyed := hk
  numbered := hn
  serial := .nil
  threads := by
    intro i t found
    obtain ⟨task, -, rfl⟩ := List.mem_map.mp (List.mem_of_getElem? found)
    cases task <;> trivial
  accounts := by
    intro i t found
    obtain ⟨task, -, rfl⟩ := List.mem_map.mp (List.mem_of_getElem? found)
    cases task <;> rfl

omit [Supply] in
@[simp] lemma commitsOf_append (i j : Nat) (k : Commit) (world : World) (threads : List Thread) :
    commitsOf { world, threads, commits := s.commits ++ [(i, k)] } j =
      if i = j then s.commitsOf j ++ [k] else s.commitsOf j := by
  by_cases same : i = j <;> simp [commitsOf, List.filterMap_append, same]

lemma step_of_none {i : Nat} {c : Context} (none : s.threads[i]? = none) : s.step i c = s := by
  simp only [step, none]

lemma step_eq {i : Nat} {c : Context} {t next : Thread} {world : World} {commit : Option Commit}
    (found : s.threads[i]? = some t) (moved : t.step c s.world = (next, world, commit)) :
    s.step i c =
      { world, threads := s.threads.set i next, commits := s.commits ++ commit.toList.map (i, ·) } := by
  simp only [step, found, moved]

omit [Supply] in
/-- After one member of a list was replaced, a member is the new one or one of before. -/
lemma cases_of_getElem?_set {α : Type} {as : List α} {i j : Nat} {next a : α}
    (found : (as.set i next)[j]? = some a) : (i = j ∧ a = next) ∨ (i ≠ j ∧ as[j]? = some a) := by
  rw [List.getElem?_set] at found
  split_ifs at found with same below
  · exact .inl ⟨same, (Option.some.inj found).symm⟩
  · exact .inr ⟨same, found⟩

lemma Sound.step (h : s.Sound w) (i : Nat) (c : Context) : (s.step i c).Sound w := by
  cases found : s.threads[i]? with
  | none =>
    rw [step_of_none found]
    exact h
  | some t =>
    have moves := t.step_moves (c := c) h.keyed h.numbered (h.threads i t found)
    rcases moved : t.step c s.world with ⟨next, world, commit⟩
    rw [moved] at moves
    rw [step_eq found moved]
    cases moves with
    | quiet sound accounts =>
      rw [Option.toList_none, List.map_nil, List.append_nil]
      refine
        { keyed := h.keyed
          numbered := h.numbered
          serial := h.serial
          threads := ?_
          accounts := ?_ }
      · intro j t' found'
        rcases cases_of_getElem?_set found' with ⟨rfl, rfl⟩ | ⟨-, old⟩
        · exact sound
        · exact h.threads j t' old
      · intro j t' found'
        rcases cases_of_getElem?_set found' with ⟨rfl, rfl⟩ | ⟨-, old⟩
        · exact accounts _ (h.accounts i t found)
        · exact h.accounts j t' old
    | @commits _ _ k runs writes keyed numbered sound accounts =>
      rw [Option.toList_some, List.map_singleton]
      refine
        { keyed := keyed
          numbered := numbered
          serial := ?_
          threads := ?_
          accounts := ?_ }
      · rw [List.map_append]
        exact h.serial.snoc runs writes
      · intro j t' found'
        rcases cases_of_getElem?_set found' with ⟨rfl, rfl⟩ | ⟨-, old⟩
        · exact sound
        · exact (h.threads j t' old).of_writes writes
      · intro j t' found'
        rw [commitsOf_append]
        rcases cases_of_getElem?_set found' with ⟨rfl, rfl⟩ | ⟨other, old⟩
        · rw [if_pos rfl]
          exact accounts _ (h.accounts i t found)
        · rw [if_neg other]
          exact h.accounts j t' old

lemma Sound.run (h : s.Sound w) (schedule : List (Nat × Context)) : (s.run schedule).Sound w := by
  induction schedule generalizing s with
  | nil => exact h
  | cons turn schedule ih => exact ih (h.step turn.1 turn.2)

end State

/-! ### Winners -/

omit [Supply] in
/-- Members of a list that are read as the same are the same, if what is read repeats nothing. -/
lemma eq_of_nodup_filterMap {α β : Type} {f : α → Option β} {as : List α} (h : (as.filterMap f).Nodup)
    {a b : α} (ha : a ∈ as) (hb : b ∈ as) {v : β} (fa : f a = some v) (fb : f b = some v) : a = b := by
  have distinct := List.pairwise_filterMap.mp h
  have : Std.Symm fun a b => ∀ u, f a = some u → ∀ v, f b = some v → u ≠ v :=
    ⟨fun _ _ h u fa v fb => (h v fb u fa).symm⟩
  by_contra different
  exact distinct.forall ha hb different v fa v fb rfl

namespace State

/-- What interleaved calls and sweeps come to. -/
structure Linearizable (w : World) (s : State) : Prop where
  /-- The world is the one that the commits make one after the other, each moving one version on by
  one. -/
  serial : Serial w (s.commits.map (·.2)) s.world
  /-- No version of a request is written twice. -/
  once : (s.commits.filterMap (·.2.written?)).Nodup
  /-- Each call that succeeded committed its decision, each sweep what it reports, and a call that failed
  or is not through nothing. -/
  accounts : ∀ (i : Nat) (t : Thread), s.threads[i]? = some t → t.Accounts (s.commitsOf i)
  /-- A call that saves what it decided succeeds if the version is still the stored one. -/
  saves : ∀ (i : Nat) (c : Context) (id : RequestId) (actor : Actor) (d : Decision) (context : Context)
    (current : Request) (x : Decided),
    s.threads[i]? = some (.call id actor d (.applied context current x)) →
    s.world.store.version? id = some current.version →
    s.step i c =
      { world := Requests.decided x s.world
        threads := s.threads.set i (.call id actor d (.answered (.ok x.request)))
        commits := s.commits ++ [(i, .decision context id actor d current.version)] }
  /-- It is refused, and has written nothing, if the stored version is another one. -/
  refuses : ∀ (i : Nat) (c : Context) (id : RequestId) (actor : Actor) (d : Decision)
    (context : Context) (current : Request) (x : Decided),
    s.threads[i]? = some (.call id actor d (.applied context current x)) →
    s.world.store.version? id ≠ some current.version →
    s.step i c =
      { s with threads := s.threads.set i (.call id actor d (.answered (.error (.clash .stale)))) }
  /-- Of the calls that name a version of a request, one succeeds at most. -/
  winner : ∀ (i j : Nat) (id : RequestId) (actor actor' : Actor) (d d' : Decision) (r r' : Request)
    (v : Int),
    s.threads[i]? = some (.call id actor d (.answered (.ok r))) →
    s.threads[j]? = some (.call id actor' d' (.answered (.ok r'))) →
    d.expectedVersion = some v → d'.expectedVersion = some v → i = j

variable {w : World} {s : State}

omit [Supply] in
lemma mem_commitsOf {i : Nat} {k : Commit} (h : k ∈ s.commitsOf i) : (i, k) ∈ s.commits := by
  obtain ⟨⟨j, k'⟩, hm, same⟩ := List.mem_filterMap.mp h
  simp only [Option.ite_none_right_eq_some, Option.some.injEq] at same
  obtain ⟨rfl, rfl⟩ := same
  exact hm

lemma Sound.once (h : s.Sound w) : (s.commits.filterMap (·.2.written?)).Nodup := by
  have := h.serial.written_nodup
  rwa [List.filterMap_map] at this

/-- A call that succeeded under a named version has committed the next one. -/
lemma Sound.committed (h : s.Sound w) {i : Nat} {id : RequestId} {actor : Actor} {d : Decision}
    {r : Request} {v : Int} (found : s.threads[i]? = some (.call id actor d (.answered (.ok r))))
    (expected : d.expectedVersion = some v) :
    ∃ k, (i, k) ∈ s.commits ∧ k.written? = some (id, v + 1) := by
  obtain ⟨-, ⟨context, own⟩, version⟩ := h.accounts i _ found
  refine ⟨_, mem_commitsOf (by rw [own]; exact List.mem_singleton_self _), ?_⟩
  rw [Commit.written?, version v expected]
  simp

lemma Sound.linearizable (h : s.Sound w) : s.Linearizable w where
  serial := h.serial
  once := h.once
  accounts := h.accounts
  saves := by
    intro i c id actor d context current x found same
    obtain ⟨rfl, tracks, decides⟩ := h.threads i _ found
    obtain ⟨saves, -, -⟩ := commit_of_current (c := c) h.keyed h.numbered tracks decides same
    have moved : Thread.step c s.world (.call current.id actor d (.applied context current x)) =
        (.call current.id actor d (.answered (.ok x.request)), Requests.decided x s.world,
          some (.decision context current.id actor d current.version)) := by
      simp only [Thread.step, CallStage.step, saves]
    exact step_eq found moved
  refuses := by
    intro i c id actor d context current x found other
    obtain ⟨rfl, -, decides⟩ := h.threads i _ found
    have refuses := commit_of_not_current (c := c) h.keyed decides other
    have moved : Thread.step c s.world (.call current.id actor d (.applied context current x)) =
        (.call current.id actor d (.answered (.error (.clash .stale))), s.world, none) := by
      simp only [Thread.step, CallStage.step, refuses]
    rw [step_eq found moved, Option.toList_none, List.map_nil, List.append_nil]
  winner := by
    intro i j id actor actor' d d' r r' v found found' expected expected'
    obtain ⟨k, mem, written⟩ := h.committed found expected
    obtain ⟨k', mem', written'⟩ := h.committed found' expected'
    exact congrArg Prod.fst (eq_of_nodup_filterMap h.once mem mem' written written')

end State

/-- Whatever was done before, and however calls that decide and sweeps are interleaved, they come to what
they come to one after the other. -/
theorem run_linearizable (acts : List Act) (tasks : List Task) (schedule : List (Nat × Context)) :
    ((State.start (World.after {} acts) tasks).run schedule).Linearizable (World.after {} acts) :=
  ((State.sound_start (World.keyed_after acts) (World.numbered_after acts) tasks).run
    schedule).linearizable

end Supplied

/-- Of two calls that take turns, one succeeds. -/
example :
    let tasks := List.replicate 2 (Task.decide Leave.request Leave.admin { outcome := "APPROVED" })
    let turns := [0, 1, 0, 1, 0, 1, 0, 1].map fun i => (i, Leave.clock 12)
    ((State.start (World.after {} (Leave.run.take 2)) tasks).run turns).commits.length = 1 := by
  decide +kernel

end Approval.Race
