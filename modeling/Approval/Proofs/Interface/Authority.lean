import Approval.Proofs.Interface.Happening
import Approval.Proofs.Run.Closing

/-!
# Nobody decides without authority

Whoever closes a step of a request is a stored and active user, who holds what the gate of the step asks for
or is an administrator. The audit entry about the decision says who closed the step, and whether they
overrode its gate.
-/

namespace Approval

open Work

/-- A user closes the step at a position of a request with authority, which leads from one world to another
one, and an audit entry tells of it. -/
structure World.ClosedBy (c : Context) (w w' : World) (r : Request) (i : Nat) (s : StepRecord) (u : User)
    (step : Step) (e : AuditEntry) : Prop where
  /-- The user is stored, and no other one has the same identifier. -/
  stored : u ∈ w.store.users
  only : ∀ v ∈ w.store.users, v.id = u.id → v = u
  /-- The user is active, and is the one who acted. -/
  active : u.isActive = true
  acted : s.actedBy = some u.id
  /-- The step is the one of the plan that was taken. -/
  planned : r.plan.step? s.order = some step
  /-- The user is an administrator or holds what the step asks for. -/
  entitled : w.store.Administers c.settings.access.adminRole u ∨ w.store.Admits u step
  /-- The entry is the only one that is written. -/
  written : w'.store.audit = w.store.audit ++ [e]
  about : e.requestId = some r.id
  /-- It tells of the decision and says whether the gate was overridden. -/
  tells : e.TellsDecision r i s
  override : ∃ overridden, e.detail? "admin_override" = some (.bool overridden) ∧
    (overridden = true ↔ ¬w.store.Admits u step)

/-! ### Who acts -/

section Calls

variable {c : Context} {w w' : World} {a : Actor}

/-- The call carries a token of the user. -/
def Http.Call.Identifies (call : Call) (s : Store) (u : User) : Prop :=
  ∃ token, call.token = .ok token ∧ s.Bears token u

/-- Who calls is a user whose token the call carries. -/
lemma Http.Call.actor_eq_ok {call : Call} (h : call.actor c w = (.ok a, w')) :
    ∃ u, call.Identifies w.store u ∧ a.Represents c w.store u := by
  obtain ⟨token, said, h⟩ := ((Inert.ofResult _).mapError _).bind_eq_ok h
  obtain ⟨u, bears, acts, -⟩ := Directory.authenticate_eq_ok (mapError_eq_ok_iff.mp h)
  have carried : call.token = .ok token := (Prod.mk.inj (mapError_eq_ok_iff.mp said)).1
  exact ⟨u, ⟨token, carried, bears⟩, bears.stored, bears.active, acts⟩

/-- The actor in whose name a command is run is an active user with that name. -/
lemma CommandLine.actorOf_eq_ok {name : Option String} (h : actorOf name c w = (.ok a, w')) :
    ∃ u, name = some u.username ∧ a.Represents c w.store u := by
  cases name with
  | none => simp [actorOf] at h
  | some name =>
    obtain ⟨u, stored, rfl, active, acts, -⟩ := Directory.actorNamed_eq_ok (mapError_eq_ok_iff.mp h)
    exact ⟨u, rfl, ⟨stored, active, acts⟩⟩

/-- Every use acts as an active user with what they hold at that moment. -/
lemma Use.represents_of_actsAs {use : Use} (h : use.ActsAs c w a) : ∃ u, a.Represents c w.store u := by
  cases use with
  | http call =>
    obtain ⟨u, -, represents⟩ := Http.Call.actor_eq_ok h
    exact ⟨u, represents⟩
  | command around invocation =>
    obtain ⟨u, -, represents⟩ := CommandLine.actorOf_eq_ok h
    exact ⟨u, represents⟩

variable [Supply] in
/-- A decision in the name of an actor closes a step with the authority of the user who acts. -/
lemma World.closedBy_of_decide {row current : Request} {d : Decision} {x : Decided} {u : User} {i : Nat}
    {s : StepRecord} (enrolled : w.store.Enrolled) (alive : row.Lifecycle)
    (reads : row.readBack? = some current) (decides : current.decide a d c.now = .ok x)
    (represents : a.Represents c w.store u) (found : (Store.updateRow row x.request).steps[i]? = some s)
    (closed : s.isPending = false) (new : ¬current.ClosedAt i) :
    ∃ step, World.ClosedBy c w (Requests.decided x w) (Store.updateRow row x.request) i s u step
      (w.store.entry x.note) := by
  obtain ⟨step, overridden, planned, admitted, acted, tells, detail⟩ :=
    Request.closed_of_decide (alive.readBack reads) decides found closed new
  have same : a.userId = u.id := by rw [represents.same, Store.actorOf]
  refine ⟨step,
    { stored := represents.stored
      only := fun v hv => enrolled.eq_of_id hv represents.stored
      active := represents.active
      acted := acted.trans (congrArg some same)
      planned := ?_
      entitled := represents.entitled admitted
      written := rfl
      about := ?_
      tells := tells.updateRow
      override := ⟨overridden, detail, represents.overridden_iff admitted⟩ }⟩
  · rwa [Plan.step?, Request.plan_of_readBack? reads] at planned
  · have row_id : current.id = row.id := Request.id_of_readBack? reads
    exact (Request.requestId_of_decide decides).trans (congrArg some row_id)

end Calls

/-! ### Runs -/

variable [Supply] in
/-- Whatever happened before, whenever something closes a step of a request, an active user with the
authority to do so has decided it. -/
theorem Happening.closedBy_after (happenings : List (Context × Happening)) (c : Context) (h : Happening)
    {r : Request} (stored : r ∈ (h.run c (after happenings {})).store.requests) {i : Nat} {s : StepRecord}
    (found : r.steps[i]? = some s) (closed : s.isPending = false)
    (new : ∀ q ∈ (after happenings {}).store.requests, q.id = r.id → ¬q.ClosedAt i) :
    ∃ u step e, World.ClosedBy c (after happenings {}) (h.run c (after happenings {})) r i s u step e := by
  obtain ⟨acts, same, -⟩ := exists_acts happenings {}
  rw [same] at stored new ⊢
  have hk := World.keyed_after acts
  have alive := World.alive_after acts
  rcases h.run_calls c (World.after {} acts) with quiet | ⟨call, -, signed, run⟩
  · rw [quiet] at stored
    exact absurd ⟨s, found, closed⟩ (new r stored rfl)
  · rw [run] at stored ⊢
    obtain ⟨row, mem, current, actor, d, x, reads, decides, rfl, changed, rfl, read⟩ :=
      (call.run_effect hk).closes hk alive stored ⟨s, found, closed⟩ new
    obtain ⟨use, -, acts_as⟩ := signed.process _ _ _ rfl
    obtain ⟨u, represents⟩ := Use.represents_of_actsAs acts_as
    obtain ⟨step, closedBy⟩ := World.closedBy_of_decide (World.enrolled_after acts) (alive row mem) reads
      decides represents found closed read
    rw [changed]
    exact ⟨u, step, _, closedBy⟩

/-! ### A run -/

namespace Leave

/-- A file with a workflow of one step that asks for the first permission. -/
def guardedFile : String :=
  "\x7b\"name\":\"leave\",\"steps\":[\x7b\"step_order\":1,\"name\":\"lead\"," ++
    "\"required_permission_id\":\"" ++ (Id.serial .permission 1).text ++ "\"\x7d],\"transitions\":[" ++
    "\x7b\"from_step_order\":1,\"outcome\":\"APPROVED\",\"to_step_order\":null\x7d]\x7d"

/-- A command in the name of the administrator. -/
def commanded (command : CommandLine.Command) : Context × Happening :=
  (clock 12, .used (.command ⟨"data", fun _ => some guardedFile⟩ ⟨command, some "root", false⟩))

/-- A request waits at a step whose permission no role grants. -/
def guarded : List (Context × Happening) :=
  [(clock 12, .administered (.createPermission ⟨"lead", "leave", "approve", none⟩) rfl),
   commanded (.directory (.createRole ⟨"ADMIN", none, []⟩)),
   commanded (.directory (.createUser ⟨"root", none, ["ADMIN"]⟩)),
   commanded (.workflow (.create "leave.yaml")),
   commanded (.request (.start (Id.serial .workflow 1).text none))]

/-- The administrator approves the request. -/
def approval : Happening := (commanded (.request (.process request.text "APPROVED" none none none))).2

/-- The administrator closes the step without the permission, and the entry says so. -/
theorem closedBy_of_override :
    ∃ r ∈ (approval.run (clock 12) (Happening.after guarded {})).store.requests, ∃ s : StepRecord,
      r.steps[0]? = some s ∧ s.isPending = false ∧
        (∀ q ∈ (Happening.after guarded {}).store.requests, q.id = r.id → ¬q.ClosedAt 0) ∧
        ∃ u step e, World.ClosedBy (clock 12) (Happening.after guarded {})
            (approval.run (clock 12) (Happening.after guarded {})) r 0 s u step e ∧
          ¬(Happening.after guarded {}).store.Admits u step := by
  have ran : (∀ q ∈ (Happening.after guarded {}).store.requests, q.steps[0]?.all (·.isPending) = true) ∧
      (∃ r ∈ (approval.run (clock 12) (Happening.after guarded {})).store.requests,
        r.steps[0]?.any (fun s => !s.isPending) = true) ∧
      (approval.run (clock 12) (Happening.after guarded {})).store.audit.getLast?.map (fun e =>
        (e.detail? "admin_override").map Json.compact) = some (some "true") := by decide +kernel
  obtain ⟨waits, ends, last⟩ := ran
  obtain ⟨r, stored, done⟩ := ends
  obtain ⟨s, found, closed⟩ := (Option.any_eq_true _ _).mp done
  have new : ∀ q ∈ (Happening.after guarded {}).store.requests, q.id = r.id → ¬q.ClosedAt 0 := by
    rintro q mem - ⟨t, at_first, closed⟩
    have pending := waits q mem
    rw [at_first, Option.all_some, closed] at pending
    exact Bool.noConfusion pending
  have closed : s.isPending = false := by simpa using closed
  obtain ⟨u, step, e, closedBy⟩ :=
    Happening.closedBy_after guarded (clock 12) approval stored found closed new
  refine ⟨r, stored, s, found, closed, new, u, step, e, closedBy, ?_⟩
  obtain ⟨overridden, detail, lacks⟩ := closedBy.override
  rw [closedBy.written, List.getLast?_concat, Option.map_some, detail, Option.map_some] at last
  cases overridden with
  | true => exact lacks.mp rfl
  | false => exact absurd last (by decide)

end Leave

end Approval
