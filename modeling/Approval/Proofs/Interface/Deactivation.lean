import Approval.Proofs.Interface.Access
import Approval.Proofs.Run.Marks

/-!
# Users who are not active any more

A user who was deactivated starts and decides nothing any more, and no entry about a request names them again.
Commands on workflows are not kept back by this: they ask for the name of a user only, so that workflows and the
entries about them may name one who is not active.
-/

namespace Approval

open Work Operation

/-! ### Staying inactive -/

/-- The user is stored with their identifier and name, and is not active. -/
def Store.Dismisses (s : Store) (x : User) : Prop :=
  ∃ y ∈ s.users, y.id = x.id ∧ y.username = x.username ∧ y.isActive = false

section Supplied

variable [Supply]

section Calls

variable {c : Context} {w : World} {s t : Store} {x u : User} {call : ServiceCall} {user : UserId}

/-- No edit makes a user active again. -/
lemma Directory.Edit.dismisses (edit : Edit c s call t) (h : s.Dismisses x) : t.Dismisses x := by
  obtain ⟨y, stored, id, name, inactive⟩ := h
  cases edit with
  | permissionCreated | roleCreated | granted | tokenIssued => exact ⟨y, stored, id, name, inactive⟩
  | userCreated => exact ⟨y, List.mem_append_left _ stored, id, name, inactive⟩
  | assigned | deactivated =>
    refine ⟨_, List.mem_map_of_mem stored, ?_⟩
    split <;> simp [id, name, inactive]

/-- No call makes a user active again. -/
lemma ServiceCall.dismisses (call : ServiceCall) (hk : w.store.Keyed) (h : w.store.Dismisses x) :
    (call.run c w).store.Dismisses x := by
  rcases call.run_directory hk (c := c) with same | unchanged | ⟨s, edits, changed⟩
  · rwa [Store.Dismisses, same.users]
  · rwa [unchanged]
  · rw [changed]
    exact edits.dismisses h

/-- A stored user with the identifier of one who was dismissed has their name too, and is not active. -/
lemma Store.Dismisses.of_id (h : s.Dismisses x) (enrolled : s.Enrolled) (stored : u ∈ s.users)
    (same : u.id = x.id) : u.username = x.username ∧ u.isActive = false := by
  obtain ⟨y, mem, id, name, inactive⟩ := h
  obtain rfl := enrolled.eq_of_id stored mem (same.trans id.symm)
  exact ⟨name, inactive⟩

/-! ### In whose name calls are made -/

omit [Supply] in
/-- Calls on the directory are made in nobody's name. -/
lemma ServiceCall.author?_of_isOnDirectory (call : ServiceCall) (h : call.isOnDirectory = true) :
    call.author? = none := by
  cases call with
  | createWorkflow | switchWorkflow | removeWorkflow | start | process => cases h
  | _ => rfl

namespace CommandLine

variable {around : Surroundings} {inJson : Bool}

omit [Supply] in
/-- The user in whose name a command on workflows is run is stored with that name. -/
lemma userIdOf_eq_ok {name : Option String} {w' : World} (h : userIdOf name c w = (.ok (some user), w')) :
    ∃ u ∈ w.store.users, name = some u.username ∧ u.id = user := by
  cases name with
  | none => cases h
  | some name =>
    obtain ⟨u, v, found, same⟩ := bind_eq_ok_iff.mp h
    have answered : Directory.userNamed name c w = (.ok u, v) := mapError_eq_ok_iff.mp found
    obtain ⟨stored, named⟩ := Store.mem_of_userNamed (readOr_eq_ok_iff.mp answered).1
    obtain ⟨rfl, -⟩ : u.id = user ∧ _ := by simpa using same
    exact ⟨u, stored, congrArg some named.symm, rfl⟩

omit [Supply] in
/-- A command on workflows makes calls on workflows, in the name of its user. -/
lemma WorkflowCommand.MakesAs.authored {command : WorkflowCommand} {actor : Option UserId} {call : ServiceCall}
    (h : command.MakesAs around actor call) : call.author? = actor ∧ call.isOnRequest = false := by
  cases h <;> exact ⟨rfl, rfl⟩

/-- A command makes calls in the name of the active user whom it acts as, unless it is one on workflows. -/
lemma Command.run_authored (command : Command) (name : Option String) (c : Context) (w : World) :
    (command.run around name inJson c w).2 = w ∨
      ∃ call : ServiceCall, (command.run around name inJson c w).2 = call.run c w ∧
        ∀ user, call.author? = some user → (∃ u ∈ w.store.users, u.id = user ∧ u.isActive = true) ∨
          call.isOnRequest = false ∧ ∃ u ∈ w.store.users, u.id = user ∧
            (∃ onWorkflows, command = .workflow onWorkflows) ∧ name = some u.username := by
  cases command with
  | workflow command =>
    have calls : ((Command.workflow command).run around name inJson).CallsAs (userIdOf name)
        fun actor call => command.MakesAs around actor call :=
      .of_bind (userIdOf_inert name) fun actor => command.run_calls actor
    rcases calls c w with quiet | ⟨actor, call, found, made, run⟩
    · exact .inl quiet
    · obtain ⟨author, kind⟩ := made.authored
      refine .inr ⟨call, run, fun user named => .inr ⟨kind, ?_⟩⟩
      rw [← author, named] at found
      obtain ⟨u, stored, same, id⟩ := userIdOf_eq_ok found
      exact ⟨u, stored, id, ⟨command, rfl⟩, same⟩
  | request command =>
    have calls : ((Command.request command).run around name inJson).CallsAs (actorOf name)
        fun a call => command.MakesAs a call := command.run_calls name
    rcases calls c w with quiet | ⟨a, call, acts, made, run⟩
    · exact .inl quiet
    · refine .inr ⟨call, run, fun user named => .inl ?_⟩
      obtain ⟨u, -, represents⟩ := actorOf_eq_ok acts
      have author : call.author? = some a.userId := by cases made <;> rfl
      rw [author, represents.same, Store.actorOf] at named
      exact ⟨u, represents.stored, Option.some.inj named, represents.active⟩
  | _ =>
    -- All other commands make calls in nobody's name.
    rcases run_calls _ name c w with quiet | ⟨call, makes, run⟩
    · exact .inl quiet
    · refine .inr ⟨call, run, fun user named => ?_⟩
      cases makes <;> cases named

end CommandLine

end Calls

namespace Happening

/-- The happening is a command on workflows that is run in the name of a user. -/
inductive OnWorkflowsAs (username : String) : Happening → Prop
  | intro (around : CommandLine.Surroundings) (command : CommandLine.WorkflowCommand) (inJson : Bool) :
      OnWorkflowsAs username (.used (.command around ⟨.workflow command, some username, inJson⟩))

variable {c : Context} {w : World} {x : User} {m : Mark}

/-- What happens is a call that is made in the name of an active user, unless it is a command on workflows. -/
lemma run_authored (h : Happening) (c : Context) (w : World) :
    h.run c w = w ∨ ∃ call : ServiceCall, h.run c w = call.run c w ∧ ∀ user, call.author? = some user →
      (∃ u ∈ w.store.users, u.id = user ∧ u.isActive = true) ∨
        call.isOnRequest = false ∧ ∃ u ∈ w.store.users, u.id = user ∧ h.OnWorkflowsAs u.username := by
  cases h with
  | used use =>
    cases use with
    | http call =>
      rcases call.answer_calls c w with quiet | ⟨a, made, acts, makes, run⟩
      · exact .inl quiet
      · refine .inr ⟨made, run, fun user named => .inl ?_⟩
        obtain ⟨u, -, represents⟩ := Http.Call.actor_eq_ok acts
        rw [makes.author_eq, represents.same, Store.actorOf] at named
        exact ⟨u, represents.stored, Option.some.inj named, represents.active⟩
    | command around invocation =>
      obtain ⟨command, name, inJson⟩ := invocation
      rcases command.run_authored name c w with quiet | ⟨call, run, authored⟩
      · exact .inl quiet
      · refine .inr ⟨call, run, fun user named => (authored user named).imp_right ?_⟩
        rintro ⟨kind, u, stored, id, ⟨onWorkflows, rfl⟩, rfl⟩
        exact ⟨kind, u, stored, id, .intro around onWorkflows inJson⟩
  | administered call onDirectory =>
    refine .inr ⟨call, rfl, fun user named => ?_⟩
    rw [call.author?_of_isOnDirectory onDirectory] at named
    cases named

/-- Where a user is dismissed, nothing but a command on workflows in their name names them, and at no place of a
request. -/
lemma names_of_run (happenings : List (Context × Happening)) (c : Context) (h : Happening)
    (dismissed : (after happenings {}).store.Dismisses x)
    (named : (h.run c (after happenings {})).store.Names x.id m) :
    (after happenings {}).store.Names x.id m ∨ m.isOfRequest = false ∧ h.OnWorkflowsAs x.username := by
  obtain ⟨acts, same, -⟩ := exists_acts happenings {}
  rw [same] at dismissed named ⊢
  rcases h.run_authored c (World.after {} acts) with quiet | ⟨call, run, authored⟩
  · rw [quiet] at named
    exact .inl named
  · rw [run] at named
    refine ((call.run_effect (World.keyed_after acts)).names (World.keyed_after acts) (World.alive_after acts)
      named).imp_right ?_
    rintro ⟨author, kind⟩
    rcases authored x.id author with ⟨u, stored, id, active⟩ | ⟨onWorkflow, u, stored, id, asked⟩
    · obtain ⟨-, inactive⟩ := dismissed.of_id (World.enrolled_after acts) stored id
      exact absurd (active.symm.trans inactive) Bool.noConfusion
    · obtain ⟨name, -⟩ := dismissed.of_id (World.enrolled_after acts) stored id
      exact ⟨kind.trans onWorkflow, name ▸ asked⟩

/-- Nothing that happens makes a user active again. -/
lemma dismisses_append (before later : List (Context × Happening))
    (dismissed : (after before {}).store.Dismisses x) : (after (before ++ later) {}).store.Dismisses x := by
  induction later using List.reverseRecOn with
  | nil => rwa [List.append_nil]
  | append_singleton later h ih =>
    obtain ⟨acts, same, -⟩ := exists_acts (before ++ later) {}
    rw [← List.append_assoc, after, List.foldl_append, List.foldl_cons, List.foldl_nil, ← after]
    rw [same] at ih ⊢
    rcases h.2.run_calls h.1 (World.after {} acts) with quiet | ⟨call, -, -, run⟩
    · rwa [quiet]
    · rw [run]
      exact call.dismisses (World.keyed_after acts) ih

/-- Whatever happens, a user who is not active any more is named at no further place of a request. A further
workflow or entry about one names them only if a command on workflows that is run in their name has made it. -/
theorem unnamed_after (before later : List (Context × Happening)) (stored : x ∈ (after before {}).store.users)
    (inactive : x.isActive = false) (named : (after (before ++ later) {}).store.Names x.id m) :
    (after before {}).store.Names x.id m ∨ m.isOfRequest = false ∧ ∃ more c h rest,
      later = more ++ (c, h) :: rest ∧ h.OnWorkflowsAs x.username ∧
        ¬(after (before ++ more) {}).store.Names x.id m ∧
        (h.run c (after (before ++ more) {})).store.Names x.id m := by
  induction later using List.reverseRecOn with
  | nil => exact .inl (by rwa [List.append_nil] at named)
  | append_singleton later last ih =>
    by_cases earlier : (after (before ++ later) {}).store.Names x.id m
    · refine (ih earlier).imp_right ?_
      rintro ⟨kind, more, c, h, rest, rfl, makes⟩
      exact ⟨kind, more, c, h, rest ++ [last], by simp, makes⟩
    · rw [← List.append_assoc, after, List.foldl_append, List.foldl_cons, List.foldl_nil, ← after] at named
      have dismissed := dismisses_append before later ⟨x, stored, rfl, rfl, inactive⟩
      rcases names_of_run (before ++ later) last.1 last.2 dismissed named with old | ⟨kind, asked⟩
      · exact absurd old earlier
      · exact .inr ⟨kind, later, last.1, last.2, [], rfl, asked, earlier, named⟩

end Happening

end Supplied

/-! ### A run -/

namespace Leave

/-- A user who has a token and has created a workflow is deactivated. -/
def dismissed : List (Context × Happening) :=
  staffed ++ [(clock 12, .administered (.deactivate "root") rfl)]

/-- They get one more token, want to start requests over HTTP and by a command, and switch their workflow off. -/
def dismissedLater : List (Context × Happening) :=
  [(clock 13, .administered (.issueToken "root" "more") rfl),
   (clock 13, .used (.http submission.2)),
   commanded (.request (.start (Id.serial .workflow 1).text none)),
   commanded (.workflow (.setActive (Id.serial .workflow 1).text false))]

/-- The user who was deactivated is named once more, as the one who switched the workflow off. -/
lemma names_of_dismissed : ∃ x ∈ (Happening.after dismissed {}).store.users, x.isActive = false ∧
    (Happening.after (dismissed ++ dismissedLater) {}).store.Names x.id (.entry 1 none) ∧
    ¬(Happening.after dismissed {}).store.Names x.id (.entry 1 none) := by
  have ran : ∃ x ∈ (Happening.after dismissed {}).store.users, x.isActive = false ∧
      (Happening.after (dismissed ++ dismissedLater) {}).store.audit[1]?.any (fun e =>
        e.requestId = none ∧ e.actor = some x.id) = true ∧
      (Happening.after dismissed {}).store.audit.length = 1 := by decide +kernel
  obtain ⟨x, stored, inactive, entry, one⟩ := ran
  obtain ⟨e, found, tells⟩ := (Option.any_eq_true _ _).mp entry
  refine ⟨x, stored, inactive, ⟨e, found, of_decide_eq_true tells⟩, ?_⟩
  rintro ⟨e, found, -⟩
  have below := (List.getElem?_eq_some_iff.mp found).1
  omega

/-- Of all that was asked for in the name of the user after they were deactivated, no request came about, and the
command on the workflow has named them. -/
theorem unnamed_of_dismissed : ∃ x ∈ (Happening.after dismissed {}).store.users, x.isActive = false ∧
    (∀ id, ¬(Happening.after (dismissed ++ dismissedLater) {}).store.Names x.id (.requester id)) ∧
    ∃ more c h rest, dismissedLater = more ++ (c, h) :: rest ∧ h.OnWorkflowsAs x.username ∧
      (h.run c (Happening.after (dismissed ++ more) {})).store.Names x.id (.entry 1 none) := by
  have none_started : (Happening.after dismissed {}).store.requests.isEmpty = true := by decide +kernel
  obtain ⟨x, stored, inactive, named, new⟩ := names_of_dismissed
  refine ⟨x, stored, inactive, fun id started => ?_, ?_⟩
  · rcases Happening.unnamed_after dismissed dismissedLater stored inactive started with
      ⟨r, mem, -⟩ | ⟨ofRequest, -⟩
    · rw [List.isEmpty_iff.mp none_started] at mem
      cases mem
    · cases ofRequest
  · rcases Happening.unnamed_after dismissed dismissedLater stored inactive named with old | ⟨-, made⟩
    · exact absurd old new
    · obtain ⟨more, c, h, rest, among, asked, -, names⟩ := made
      exact ⟨more, c, h, rest, among, asked, names⟩

/-- A user who is not active any more may be named at a place at which they were not. -/
theorem not_unnamed_of_dismissed : ¬∀ x ∈ (Happening.after dismissed {}).store.users, x.isActive = false →
    ∀ m, (Happening.after (dismissed ++ dismissedLater) {}).store.Names x.id m →
      (Happening.after dismissed {}).store.Names x.id m := by
  intro unnamed
  obtain ⟨x, stored, inactive, named, new⟩ := names_of_dismissed
  exact new (unnamed x stored inactive _ named)

end Leave

end Approval
