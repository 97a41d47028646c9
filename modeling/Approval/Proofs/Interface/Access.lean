import Approval.Proofs.Interface.Answer
import Approval.Proofs.Interface.Authority
import Approval.Proofs.Run.Attribution
import Approval.Proofs.Run.Refusal
import Approval.Proofs.Workflow.Depth

/-!
# Who may do what over HTTP

A call that carries no token of an active user does nothing and is told nothing of what is stored. Workflows
are changed in the name of administrators only, and the directory is not changed at all. Asking changes
nothing, and neither does a call without success. What changes is attributed to the user whose token the call
carries.
-/

namespace Approval

open Work

/-! ### Strangers -/

namespace Http.Call

variable {c : Context} {w : World} {call : Call} {u v : User}

/-- Who calls without a token of an active user is refused, in one way whatever is stored. -/
lemma exists_actor_error (call : Call) :
    ∃ e, ∀ (c : Context) (w : World), (∀ u, ¬call.Identifies w.store u) → call.actor c w = (.error e, w) := by
  cases said : call.token with
  | error e => exact ⟨.failure e, fun c w _ => bind_of_error (mapError_of_error (by rw [ofResult_run, said]))⟩
  | ok token =>
    refine ⟨.failure (Directory.refusalOf token), fun c w nobody => ?_⟩
    have carried : mapError Refusal.failure (ofResult call.token) c w = (.ok token, w) :=
      mapError_of_ok (by rw [ofResult_run, said])
    refine (bind_of_ok carried).trans (mapError_of_error (Directory.authenticate_of_nobody fun u bears => ?_))
    exact nobody u ⟨token, said, bears⟩

variable [Supply]

/-- A call without a token of an active user is answered in one way whatever is stored, and does nothing. -/
lemma exists_answer (call : Call) :
    ∃ reply, ∀ (c : Context) (w : World), (∀ u, ¬call.Identifies w.store u) →
      call.answer c w = (reply, w) := by
  obtain ⟨e, fails⟩ := call.exists_actor_error
  obtain ⟨reply, answers⟩ := call.answer_of_actor_error e
  exact ⟨reply, fun c w nobody => answers c w (fails c w nobody)⟩

/-- A call carries a token of one user at most. -/
lemma Identifies.unique (enrolled : w.store.Enrolled) (hu : call.Identifies w.store u)
    (hv : call.Identifies w.store v) : u = v := by
  obtain ⟨token, said, bears⟩ := hu
  obtain ⟨token', said', bears'⟩ := hv
  obtain rfl : token = token' := Except.ok.inj (said.symm.trans said')
  obtain ⟨credential, mem, digest, owner⟩ := bears.credential
  obtain ⟨credential', mem', digest', owner'⟩ := bears'.credential
  obtain rfl : credential = credential' :=
    List.inj_on_of_nodup_map enrolled.digests mem mem' (digest.trans digest'.symm)
  exact enrolled.eq_of_id bears.stored bears'.stored (owner.symm.trans owner')

end Http.Call

/-- A token stays one of the same user while the directory stays the same. -/
lemma Store.Bears.of_sameDirectory {s t : Store} {token : String} {u : User} (h : s.Bears token u)
    (same : s.SameDirectory t) : t.Bears token u where
  stored := by rw [same.users]; exact h.stored
  active := h.active
  nonempty := h.nonempty
  credential := by rw [same.credentials]; exact h.credential

/-! ### What is handed in -/

/-- The conditions of drafts that are handed in fit into the rows of workflows. -/
lemma Use.conditions_fit {use : Use} {d : Draft} {createdBy : Option UserId}
    (h : use.Makes (.createWorkflow d createdBy)) : ∀ v ∈ d.rules.filterMap Rule.value?, v.Fits 3 := by
  cases use with
  | http call =>
    cases h with
    | created read => exact Draft.fits_of_decodeText (Http.Call.decodeText_of_read read)
  | command around invocation =>
    obtain ⟨command, actor, inJson⟩ := invocation
    cases h with
    | createdWorkflow _ read => exact Draft.fits_of_ofDocument read

lemma Happening.conditions_fit {h : Happening} {d : Draft} {createdBy : Option UserId}
    (makes : h.Makes (.createWorkflow d createdBy)) : ∀ v ∈ d.rules.filterMap Rule.value?, v.Fits 3 := by
  cases h with
  | used use => exact Use.conditions_fit makes
  | administered call onDirectory =>
    obtain rfl : _ = call := makes
    cases onDirectory

section Supplied

variable [Supply]

/-- What happens in years of four digits are admitted acts. -/
lemma Happening.exists_admitted {happenings : List (Context × Happening)}
    (clock : ∀ h ∈ happenings, h.1.now.hasPlainYear = true) :
    ∃ acts, after happenings {} = World.after {} acts ∧ ∀ a ∈ acts, a.Admitted := by
  obtain ⟨acts, same, theirs⟩ := exists_acts happenings {}
  refine ⟨acts, same, fun a mem => ?_⟩
  obtain ⟨h, among, context, makes⟩ := theirs a mem
  refine ⟨context ▸ clock h among, fun d createdBy creates => ?_⟩
  rw [creates] at makes
  exact conditions_fit makes

/-! ### Calls -/

namespace Http

/-- What a call may do and be told in a world. -/
structure Call.Guarded (c : Context) (w : World) (call : Call) : Prop where
  /-- Without a token of an active user it does nothing, and is told what it would be told whenever else it
  carried none, for instance if nothing were stored. -/
  stranger : (∀ u, ¬call.Identifies w.store u) → (call.answer c w).2 = w ∧
    ∀ (c' : Context) (w' : World), (∀ u, ¬call.Identifies w'.store u) →
      (call.answer c w).1 = (call.answer c' w').1
  /-- It carries a token of one user at most. -/
  one : ∀ u v, call.Identifies w.store u → call.Identifies w.store v → u = v
  /-- In the name of a user who is no administrator it changes no workflow. -/
  workflows : ∀ u, call.Identifies w.store u → ¬w.store.Administers c.settings.access.adminRole u →
    (call.answer c w).2.store.workflows = w.store.workflows ∧
      (call.answer c w).2.store.workflowsStored = w.store.workflowsStored
  /-- It never changes permissions, roles, users and credentials. -/
  directory : w.store.SameDirectory (call.answer c w).2.store
  /-- If it asks for something, or is not answered with success, it changes nothing. -/
  quiet : call.method = .get ∨ ¬(call.answer c w).1.Succeeds → (call.answer c w).2 = w
  /-- What it changes is attributed to the user whose token it carries. -/
  attributed : ∀ u, call.Identifies w.store u → w.AttributesTo (call.answer c w).2 u.id

/-- The calls are guarded one after the other, each in the world that those before it leave. -/
def Guarded : List (Context × Call) → World → Prop
  | [], _ => True
  | x :: rest, w => x.2.Guarded x.1 w ∧ Guarded rest (x.2.answer x.1 w).2

variable {c : Context} {w : World} {call : Call}

omit [Supply] in
lemma Call.MakesAs.author_eq {a : Actor} {made : ServiceCall} (h : call.MakesAs a made) :
    made.author? = some a.userId := by
  cases h <;> rfl

/-- Only administrators change workflows. -/
lemma Call.MakesAs.workflows_eq {a : Actor} {made : ServiceCall} {w' : World} (h : call.MakesAs a made)
    (ordinary : ¬a.isAdmin = true) (effect : made.Effect c w w') :
    w'.store.workflows = w.store.workflows ∧ w'.store.workflowsStored = w.store.workflowsStored := by
  cases h with
  | created _ admin | switched _ _ admin | removed _ admin => exact absurd admin ordinary
  | started | decided =>
    cases effect with
    | nothing => exact ⟨rfl, rfl⟩
    | directory only =>
      rw [only.1]
      exact ⟨rfl, rfl⟩
    | _ => exact ⟨rfl, rfl⟩

lemma Call.MakesAs.sameDirectory {a : Actor} {made : ServiceCall} (h : call.MakesAs a made)
    (hk : w.store.Keyed) : w.store.SameDirectory (made.run c w).store := by
  rcases made.run_directory hk (c := c) with same | unchanged | ⟨s, edits, -⟩
  · exact same
  · rw [unchanged]
    exact .refl _
  · cases h <;> cases edits

/-- A call is guarded where users are enrolled and rows of workflows read back. -/
lemma Call.guarded (hk : w.store.Keyed) (alive : w.store.Alive) (enrolled : w.store.Enrolled)
    (reads : ∀ row ∈ w.store.workflows, ∃ wf, row.readBack? = some wf) (c : Context) (call : Call) :
    call.Guarded c w := by
  -- What changes the world is a call of the service in the name of the user whose token is carried.
  have made (u : User) (identified : call.Identifies w.store u) :
      (call.answer c w).2 = w ∨ ∃ a call', a.Represents c w.store u ∧ call.MakesAs a call' ∧
        (call.answer c w).2 = call'.run c w := by
    rcases call.answer_calls c w with quiet | ⟨a, call', acts, makes, run⟩
    · exact .inl quiet
    · obtain ⟨v, carried, represents⟩ := actor_eq_ok acts
      obtain rfl := Identifies.unique enrolled carried identified
      exact .inr ⟨a, call', represents, makes, run⟩
  refine
    { stranger := fun nobody => ?_
      one := fun u v => Identifies.unique enrolled
      workflows := fun u identified ordinary => ?_
      directory := ?_
      quiet := answer_eq_self reads
      attributed := fun u identified => ?_ }
  · obtain ⟨reply, answers⟩ := call.exists_answer
    rw [answers c w nobody]
    exact ⟨rfl, fun c' w' nobody' => by rw [answers c' w' nobody']⟩
  · rcases made u identified with quiet | ⟨a, call', represents, makes, run⟩
    · rw [quiet]
      exact ⟨rfl, rfl⟩
    · rw [run]
      refine makes.workflows_eq (fun admin => ordinary ?_) (call'.run_effect hk)
      rwa [represents.same, Store.isAdmin_actorOf] at admin
  · rcases call.answer_calls c w with quiet | ⟨a, call', -, makes, run⟩
    · rw [quiet]
      exact .refl _
    · rw [run]
      exact makes.sameDirectory hk
  · rcases made u identified with quiet | ⟨a, call', represents, makes, run⟩
    · rw [quiet]
      exact .refl w u.id
    · rw [run]
      have named : call'.author? = some u.id := by rw [makes.author_eq, represents.same, Store.actorOf]
      exact (call'.run_effect hk).attributesTo hk alive named

end Http

/-! ### Runs -/

/-- Whatever happened before in years of four digits, every call of every sequence of HTTP calls is
guarded. -/
theorem Happening.guarded_after (happenings : List (Context × Happening))
    (clock : ∀ h ∈ happenings, h.1.now.hasPlainYear = true) (calls : List (Context × Http.Call))
    (called : ∀ x ∈ calls, x.1.now.hasPlainYear = true) : Http.Guarded calls (after happenings {}) := by
  induction calls generalizing happenings with
  | nil => trivial
  | cons x rest ih =>
    obtain ⟨now, later⟩ := List.forall_mem_cons.mp called
    refine ⟨?_, ?_⟩
    · obtain ⟨acts, same, admitted⟩ := exists_admitted clock
      rw [same]
      exact Http.Call.guarded (World.keyed_after acts) (World.alive_after acts) (World.enrolled_after acts)
        (rowInvariant_readable.after_empty acts admitted).workflows x.1 x.2
    · -- The call is the last that has happened before the rest.
      have extended : (x.2.answer x.1 (after happenings {})).2 =
          after (happenings ++ [(x.1, .used (.http x.2))]) {} := by
        rw [after, after, List.foldl_append]
        rfl
      rw [extended]
      refine ih _ ?_ later
      intro h mem
      rcases List.mem_append.mp mem with before | last
      · exact clock h before
      · obtain rfl := List.mem_singleton.mp last
        exact now

end Supplied

/-! ### A run -/

namespace Leave

/-- A user without roles creates a workflow, and a token is issued for them. -/
def staffed : List (Context × Happening) :=
  [commanded (.directory (.createUser ⟨"root", none, []⟩)),
   commanded (.workflow (.create "leave.yaml")),
   (clock 12, .administered (.issueToken "root" "leave") rfl)]

/-- The token of the user. -/
def rootsToken : String := Directory.tokenText (⟨0⟩, ⟨1⟩)

/-- A call that carries the token. -/
def tokened (method : Http.Method) (path body : String) : Context × Http.Call :=
  (clock 12,
    { method
      target := ⟨path, none⟩
      headers := [⟨"x-api-key", rootsToken⟩, ⟨"content-type", "application/json"⟩]
      body })

lemma token_tokened (method : Http.Method) (path body : String) :
    (tokened method path body).2.token = .ok rootsToken := by
  rfl

/-- The user starts a request. -/
def submission : Context × Http.Call :=
  tokened .post "/api/v1/requests" ("\x7b\"workflow_id\":\"" ++ (Id.serial .workflow 1).text ++ "\"\x7d")

/-- The user wants to remove the workflow. -/
def removal : Context × Http.Call := tokened .delete ("/api/v1/workflows/" ++ (Id.serial .workflow 1).text) ""

/-- The request is attributed to the user, and the workflow stays. -/
theorem guarded_submission :
    (∀ h ∈ staffed, h.1.now.hasPlainYear = true) ∧ (∀ x ∈ [submission, removal], x.1.now.hasPlainYear = true) ∧
      ∃ u, submission.2.Identifies (Happening.after staffed {}).store u ∧
        let w := (submission.2.answer submission.1 (Happening.after staffed {})).2
        (∃ r ∈ w.store.requests, r.requester = u.id) ∧
          (removal.2.answer removal.1 w).2.store.workflows = w.store.workflows := by
  have clock : ∀ h ∈ staffed, h.1.now.hasPlainYear = true := by decide +kernel
  have called : ∀ x ∈ [submission, removal], x.1.now.hasPlainYear = true := by decide +kernel
  have ran : (Happening.after staffed {}).store.requests.isEmpty = true ∧
      (Happening.after staffed {}).store.roles.isEmpty = true ∧
      (∃ u ∈ (Happening.after staffed {}).store.users, (Happening.after staffed {}).store.Bears rootsToken u) ∧
      (submission.2.answer submission.1 (Happening.after staffed {})).2.store.requests.isEmpty = false := by
    decide +kernel
  obtain ⟨none_started, no_roles, ⟨u, -, bears⟩, starts⟩ := ran
  obtain ⟨first, second, -⟩ := Happening.guarded_after staffed clock [submission, removal] called
  have same := first.directory
  have identified : submission.2.Identifies (Happening.after staffed {}).store u :=
    ⟨_, token_tokened .., bears⟩
  have again : removal.2.Identifies (submission.2.answer submission.1 (Happening.after staffed {})).2.store u :=
    ⟨_, token_tokened .., bears.of_sameDirectory same⟩
  refine ⟨clock, called, u, identified, ?_, (second.workflows u again ?_).1⟩
  · obtain ⟨r, mem⟩ := List.isEmpty_eq_false_iff_exists_mem.mp starts
    refine ⟨r, mem, (first.attributed u identified).requests r mem ?_⟩
    rw [List.isEmpty_iff.mp none_started]
    simp
  · rintro ⟨role, mem, -⟩
    rw [same.roles, List.isEmpty_iff.mp no_roles] at mem
    cases mem

end Leave

end Approval
