import Approval.Proofs.Run.Basic
import Approval.Proofs.Service.Sweep

/-!
# Interleaved calls

Several processes share the store. A call that decides a request takes four steps: it reads the version
that it is meant for, loads the request, applies the decision, and saves what this came to. A sweep lists
the open requests, reads the clock, and records one finding after the other. Between any two steps of one
of them any steps of the others may happen.
-/

namespace Approval.Race

open Sweep (Finding Report)

/-! ### Steps of one call or sweep -/

/-- A change that was committed: a decision made under a context on a version of a request, or a
breach. -/
inductive Commit
  | decision (context : Context) (id : RequestId) (actor : Actor) (d : Decision) (version : Int)
  | breach (escalate : Bool) (now : Instant) (f : Finding)

/-- How far a call that decides a request has come. -/
inductive CallStage
  | arrived
  | observed (version : Int)
  | loaded (current : Request)
  | applied (context : Context) (current : Request) (x : Decided)
  | answered (answer : Except Failure Request)

/-- How far a sweep has come. -/
inductive SweepStage
  | waiting
  | listed (requests : List Request)
  | recording (escalate : Bool) (now : Instant) (left : List Finding) (report : Report)
  | answered (answer : Except Failure Report)

variable [Supply]

/-- The next step of a call, with the world after it and what it committed. -/
def CallStage.step (id : RequestId) (actor : Actor) (d : Decision) (c : Context) (w : World) :
    CallStage → CallStage × World × Option Commit
  | .arrived =>
    match Requests.versionFor id d c w with
    | (.ok version, w) => (.observed version, w, none)
    | (.error e, w) => (.answered (.error e), w, none)
  | .observed version =>
    match Requests.get id c w with
    | (.ok current, w) =>
      if current.version = version then (.loaded current, w, none)
      else (.answered (.error (.clash .stale)), w, none)
    | (.error e, w) => (.answered (.error e), w, none)
  | .loaded current =>
    match current.decide actor d c.now with
    | .ok x => (.applied c current x, w, none)
    | .error e => (.answered (.error e), w, none)
  | .applied context current x =>
    match Requests.commit current.version x c w with
    | (.ok r, w) => (.answered (.ok r), w, some (.decision context id actor d current.version))
    | (.error e, w) => (.answered (.error e), w, none)
  | .answered answer => (.answered answer, w, none)

/-- The next step of a sweep, with the world after it and what it committed. -/
def SweepStage.step (c : Context) (w : World) : SweepStage → SweepStage × World × Option Commit
  | .waiting =>
    match Operation.read (·.listOpen) c w with
    | (.ok requests, w) => (.listed requests, w, none)
    | (.error e, w) => (.answered (.error e), w, none)
  | .listed requests =>
    (.recording c.settings.sweep.escalate c.now (Sweep.findings c.now requests)
      { scanned := requests.length }, w, none)
  | .recording _ _ [] report => (.answered (.ok report), w, none)
  | .recording escalate now (f :: left) report =>
    match Sweep.record escalate now f report c w with
    | (.ok after, w) =>
      (.recording escalate now left after, w,
        if report.breaches < after.breaches then some (.breach escalate now f) else none)
    | (.error e, w) => (.answered (.error e), w, none)
  | .answered answer => (.answered answer, w, none)

/-! ### Steps of all of them -/

/-- What is to be done: a request is to be decided, or a sweep to be made. -/
inductive Task
  | decide (id : RequestId) (actor : Actor) (d : Decision)
  | sweep

/-- A call or a sweep at some stage. -/
inductive Thread
  | call (id : RequestId) (actor : Actor) (d : Decision) (stage : CallStage)
  | sweep (stage : SweepStage)

/-- A task that nothing was done for yet. -/
def Task.thread : Task → Thread
  | .decide id actor d => .call id actor d .arrived
  | .sweep => .sweep .waiting

/-- The next step of a thread, with the world after it and what it committed. -/
def Thread.step (c : Context) (w : World) : Thread → Thread × World × Option Commit
  | .call id actor d stage =>
    let (next, w, commit) := stage.step id actor d c w
    (.call id actor d next, w, commit)
  | .sweep stage =>
    let (next, w, commit) := stage.step c w
    (.sweep next, w, commit)

/-- The threads, the world that they share, and what each of them committed, in order. -/
structure State where
  world : World
  threads : List Thread
  commits : List (Nat × Commit) := []

namespace State

/-- The state in which nothing was done for any task yet. -/
def start (w : World) (tasks : List Task) : State := { world := w, threads := tasks.map Task.thread }

/-- The state after a thread took its next step under a context. -/
def step (s : State) (i : Nat) (c : Context) : State :=
  match s.threads[i]? with
  | none => s
  | some t =>
    let (next, w, commit) := t.step c s.world
    { world := w, threads := s.threads.set i next, commits := s.commits ++ commit.toList.map (i, ·) }

/-- The state after steps of the given threads under the given contexts. -/
def run (s : State) (schedule : List (Nat × Context)) : State :=
  schedule.foldl (fun s turn => s.step turn.1 turn.2) s

/-- What a thread committed. -/
def commitsOf (s : State) (i : Nat) : List Commit :=
  s.commits.filterMap fun commit => if commit.1 = i then some commit.2 else none

end State

/-! ### A thread on its own -/

section Alone

open Work

variable {c : Context} {w w' : World}

/-- What a number of steps of one thread come to when no other thread is there. -/
def Thread.alone (c : Context) (w : World) (t : Thread) : Nat → Thread × World
  | 0 => (t, w)
  | n + 1 => Thread.alone c (t.step c w).2.1 (t.step c w).1 n

variable (id : RequestId) (actor : Actor) (d : Decision)

/-- The answer of an operation as the end of a call, with the world after it. -/
def Thread.ended (p : Except Failure Request × World) : Thread × World :=
  (.call id actor d (.answered p.1), p.2)

@[simp] lemma Thread.alone_answered (answer : Except Failure Request) (n : Nat) :
    alone c w (.call id actor d (.answered answer)) n = ended id actor d (answer, w) := by
  induction n with
  | zero => rfl
  | succ n ih => exact ih

lemma Thread.alone_applied (context : Context) (current : Request) (x : Decided) :
    alone c w (.call id actor d (.applied context current x)) 1 =
      ended id actor d (Requests.commit current.version x c w) := by
  unfold alone
  simp only [step, CallStage.step]
  rcases Requests.commit current.version x c w with ⟨e | r, u⟩
  all_goals rfl

lemma Thread.alone_loaded (current : Request) :
    alone c w (.call id actor d (.loaded current)) 2 =
      ended id actor d
        ((ofResult (current.decide actor d c.now) >>= Requests.commit current.version) c w) := by
  unfold alone
  simp only [step, CallStage.step]
  rcases decides : current.decide actor d c.now with e | x
  · exact alone_answered id actor d _ 1
  · exact alone_applied id actor d c current x

lemma Thread.alone_observed (version : Int) :
    alone c w (.call id actor d (.observed version)) 3 =
      ended id actor d (Requests.decideAt id actor d version c w) := by
  unfold alone Requests.decideAt
  simp only [step, CallStage.step]
  rcases loads : Requests.get id c w with ⟨e | current, u⟩
  · rw [bind_of_error loads]
    exact alone_answered id actor d _ 2
  · rw [bind_of_ok loads]
    by_cases same : current.version = version
    · subst same
      simp only [if_true, ne_eq, not_true_eq_false, if_false]
      exact alone_loaded id actor d current
    · simp only [same, if_false, ne_eq, not_false_eq_true, if_true]
      exact alone_answered id actor d _ 2

/-- The four steps of a call on its own are the call. -/
theorem Thread.alone_call :
    alone c w (.call id actor d .arrived) 4 = ended id actor d (Requests.process id actor d c w) := by
  unfold alone Requests.process
  simp only [step, CallStage.step]
  rcases observes : Requests.versionFor id d c w with ⟨e | version, u⟩
  · rw [bind_of_error observes]
    exact alone_answered id actor d _ 3
  · rw [bind_of_ok observes]
    exact alone_observed id actor d version

lemma Thread.alone_recording (escalate : Bool) (now : Instant) (left : List Finding) (report : Report) :
    alone c w (.sweep (.recording escalate now left report)) (left.length + 1) =
      (.sweep (.answered (Sweep.recordAll escalate now left report c w).1),
        (Sweep.recordAll escalate now left report c w).2) := by
  induction left generalizing w report with
  | nil => rfl
  | cons f left ih =>
    rw [List.length_cons, alone]
    simp only [step, SweepStage.step, Sweep.recordAll]
    rcases records : Sweep.record escalate now f report c w with ⟨e | after, u⟩
    · exact absurd records (Sweep.record_ne_error)
    · rw [bind_of_ok records]
      exact ih _

/-- The steps of a sweep on its own are the sweep. -/
theorem Thread.alone_sweep : ∃ n, alone c w (.sweep .waiting) n =
    (.sweep (.answered (Sweep.once c w).1), (Sweep.once c w).2) := by
  unfold Sweep.once
  rcases lists : Operation.read (·.listOpen) c w with ⟨e | requests, u⟩
  · refine ⟨1, ?_⟩
    rw [bind_of_error lists, alone]
    simp only [step, SweepStage.step, lists]
    rfl
  · rw [bind_of_ok lists, bind_of_ok context_run]
    refine ⟨(Sweep.findings c.now requests).length + 1 + 1 + 1, ?_⟩
    rw [alone, alone]
    simp only [step, SweepStage.step, lists]
    exact alone_recording _ _ _ _

end Alone

end Approval.Race
