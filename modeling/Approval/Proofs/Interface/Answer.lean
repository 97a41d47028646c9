import Approval.Proofs.Interface.Use
import Approval.Proofs.Service.Workflows

/-!
# How HTTP calls are answered

Every handler asks first who calls, and does nothing before it knows. Asking for something changes nothing,
and so does a call that is not answered with success.
-/

namespace Approval

open Work

section Work

variable {ε δ α : Type} {x : Work ε α} {w : World}

/-- When the work fails in the world, it has done nothing to it. -/
def Work.AtomicIn (w : World) (x : Work ε α) : Prop := ∀ c e v, x c w = (.error e, v) → v = w

lemma Work.Atomic.atomicIn (h : x.Atomic) : x.AtomicIn w := fun c e v fails => h c w e v fails

lemma Work.AtomicIn.mapError (h : x.AtomicIn w) (g : ε → δ) : (Work.mapError g x).AtomicIn w := by
  intro c e v fails
  rcases run : x c w with ⟨e' | a, u⟩
  · obtain rfl := h c e' u run
    exact ((Prod.mk.inj ((mapError_of_error run).symm.trans fails)).2).symm
  · exact absurd ((mapError_of_ok run).symm.trans fails) (by simp)

end Work

namespace Http

/-- The reply is one of success. -/
def Reply.Succeeds (reply : Reply) : Prop := 200 ≤ reply.status ∧ reply.status < 300

/-- The handling of a call leaves the world as it is or answers with success. -/
def Settles (w : World) (x : Handling Reply) : Prop :=
  ∀ c, (x c w).2 = w ∨ ∃ reply v, x c w = (.ok reply, v) ∧ reply.Succeeds

section Settling

variable {α : Type} {w : World} {x : Handling α} {f : α → Handling Reply}

lemma settles_of_inert {x : Handling Reply} (h : x.Inert) : Settles w x := fun c => .inl (h c w)

/-- What is read first does nothing. -/
lemma Settles.of_inert_bind (hx : x.Inert) (hf : ∀ a, Settles w (f a)) : Settles w (x >>= f) := by
  intro c
  have same := hx c w
  rcases run : x c w with ⟨e | a, v⟩
  all_goals
    rw [run] at same
    obtain rfl : v = w := same
  · exact .inl (by rw [bind_of_error run])
  · rw [bind_of_ok run]
    exact hf a c

/-- An operation that does nothing when it fails is followed by a reply of success. -/
lemma Settles.of_atomicIn_bind (hx : x.AtomicIn w)
    (hf : ∀ a c v, ∃ reply, f a c v = (.ok reply, v) ∧ reply.Succeeds) : Settles w (x >>= f) := by
  intro c
  rcases run : x c w with ⟨e | a, v⟩
  · obtain rfl := hx c e v run
    exact .inl (by rw [bind_of_error run])
  · obtain ⟨reply, answers, success⟩ := hf a c v
    exact .inr ⟨reply, v, by rw [bind_of_ok run, answers], success⟩

end Settling

/-! ### Handlers -/

variable [Supply]

section Handlers

variable {w : World} {c : Call} {resource : Resource} {method : Method} {handler : Call → Handling Reply}

/-- A handler answers in one way always, or asks first who calls. -/
lemma handler?_asks (h : handler? resource method = some handler) :
    (∃ result, ∀ context w, handler c context w = (result, w)) ∨ ∃ f, handler c = c.actor >>= f := by
  unfold handler? at h
  split at h
  all_goals cases h
  · exact .inl ⟨_, fun _ _ => rfl⟩
  all_goals exact .inr ⟨_, rfl⟩

/-- Asking for something changes nothing. -/
lemma handler?_get_inert (h : handler? resource .get = some handler) : (handler c).Inert := by
  cases resource
  all_goals cases h
  case health => exact .pure _
  case workflows => exact listWorkflows_inert
  case workflow => exact showWorkflow_inert _
  case requests => exact listRequests_inert
  case tasks => exact listTasks_inert
  case dashboard => exact showDashboard_inert
  case request => exact showRequest_inert _
  case roles => exact listRoles_inert
  case permissions => exact listPermissions_inert
  case self => exact showSelf_inert
  case auditLog => exact showAudit_inert
  case totals => exact showTotals_inert

omit [Supply] in
lemma succeeds_found (data : Json) (links : List Link) : (Reply.found data links).Succeeds :=
  ⟨Nat.le_refl _, by simp [Reply.found]⟩

omit [Supply] in
lemma succeeds_created (data : Json) (links : List Link) : (Reply.created data links).Succeeds :=
  ⟨by simp [Reply.created], by simp [Reply.created]⟩

lemma createWorkflow_settles : Settles w (createWorkflow c) := by
  refine .of_inert_bind c.actor_inert fun actor => .of_inert_bind (.ofResult _) fun d => ?_
  refine .of_inert_bind (requireAdmin_inert actor) fun _ => ?_
  refine .of_atomicIn_bind ((Workflows.create_atomic _ _).atomicIn.mapError _) fun wf context v => ?_
  exact ⟨_, rfl, succeeds_created _ _⟩

lemma removeWorkflow_settles (part : String) : Settles w (removeWorkflow part c) := by
  refine .of_inert_bind c.actor_inert fun actor => .of_inert_bind (.ofResult _) fun text => ?_
  refine .of_inert_bind (requireAdmin_inert actor) fun _ => .of_inert_bind (.ofResult _) fun id => ?_
  refine .of_atomicIn_bind ((Workflows.remove_atomic _ _).atomicIn.mapError _) fun _ context v => ?_
  exact ⟨_, rfl, succeeds_found _ _⟩

/-- Here rows of workflows must read back: one that was switched is shown. -/
lemma setWorkflowActive_settles (reads : ∀ row ∈ w.store.workflows, ∃ wf, row.readBack? = some wf)
    (part : String) (isActive : Bool) : Settles w (setWorkflowActive part isActive c) := by
  refine .of_inert_bind c.actor_inert fun actor => .of_inert_bind (.ofResult _) fun text => ?_
  refine .of_inert_bind (requireAdmin_inert actor) fun _ => .of_inert_bind (.ofResult _) fun id => ?_
  have atomic : (Workflows.setActive id isActive (some actor.userId)).AtomicIn w :=
    fun _ _ _ fails => Workflows.setActive_refused reads fails
  refine .of_atomicIn_bind (atomic.mapError _) fun wf context v => ?_
  exact ⟨_, rfl, succeeds_found _ _⟩

lemma startRequest_settles : Settles w (startRequest c) := by
  refine .of_inert_bind c.actor_inert fun actor => .of_inert_bind (.ofResult _) fun form => ?_
  refine .of_atomicIn_bind ((Requests.start_atomic _ _ _).atomicIn.mapError _) fun r context v => ?_
  exact ⟨_, rfl, succeeds_created _ _⟩

lemma decideRequest_settles (part : String) (decode : Decoder Decision) :
    Settles w (decideRequest part decode c) := by
  refine .of_inert_bind c.actor_inert fun actor => .of_inert_bind (.ofResult _) fun text => ?_
  refine .of_inert_bind (.ofResult _) fun d => .of_inert_bind (.ofResult _) fun id => ?_
  refine .of_atomicIn_bind ((Requests.process_atomic _ _ _).atomicIn.mapError _) fun r context v => ?_
  exact ⟨_, rfl, succeeds_found _ _⟩

lemma handler?_settles (reads : ∀ row ∈ w.store.workflows, ∃ wf, row.readBack? = some wf)
    (h : handler? resource method = some handler) : Settles w (handler c) := by
  by_cases asks : method = .get
  · subst asks
    exact settles_of_inert (handler?_get_inert h)
  · unfold handler? at h
    split at h
    all_goals cases h
    case h_3 => exact createWorkflow_settles
    case h_5 => exact removeWorkflow_settles _
    case h_6 => exact setWorkflowActive_settles reads _ _
    case h_7 => exact setWorkflowActive_settles reads _ _
    case h_9 => exact startRequest_settles
    case h_13 => exact decideRequest_settles _ _
    case h_14 => exact decideRequest_settles _ _
    all_goals exact absurd rfl asks

end Handlers

/-! ### Calls -/

namespace Call

variable {c : Call} {w : World}

/-- A call is refused at once or given to a handler. -/
lemma handle_cases (c : Call) :
    (∃ refusal, c.handle = fail refusal) ∨
      ∃ resource handler, handler? resource (if c.method = .head then .get else c.method) = some handler ∧
        c.handle = handler c := by
  unfold handle
  split
  · exact .inl ⟨_, rfl⟩
  · split
    · exact .inl ⟨_, rfl⟩
    · rename_i found
      exact .inr ⟨_, _, found, rfl⟩

lemma handle_get_inert (h : c.method = .get) : c.handle.Inert := by
  rcases c.handle_cases with ⟨refusal, same⟩ | ⟨resource, handler, found, same⟩
  all_goals rw [same]
  · exact .fail _
  · rw [h] at found
    exact handler?_get_inert found

lemma handle_settles (reads : ∀ row ∈ w.store.workflows, ∃ wf, row.readBack? = some wf) :
    Settles w c.handle := by
  rcases c.handle_cases with ⟨refusal, same⟩ | ⟨resource, handler, found, same⟩
  all_goals rw [same]
  · exact settles_of_inert (.fail _)
  · exact handler?_settles reads found

/-- A call that asks for something, or is not answered with success, changes nothing. -/
lemma answer_eq_self (reads : ∀ row ∈ w.store.workflows, ∃ wf, row.readBack? = some wf) {context : Context}
    (h : c.method = .get ∨ ¬(c.answer context w).1.Succeeds) : (c.answer context w).2 = w := by
  unfold answer at h ⊢
  split
  · rfl
  · rcases h with asks | fails
    · exact handle_get_inert asks context w
    · rename_i not_options
      rcases handle_settles reads context with quiet | ⟨reply, v, answers, success⟩
      · exact quiet
      · refine absurd ?_ fails
        rw [if_neg not_options, answers]
        dsimp only
        split
        · exact success
        · exact success

/-- Calls for which it always fails in the same way to find out who calls are answered in one way. -/
lemma answer_of_actor_error (c : Call) (e : Refusal) :
    ∃ reply, ∀ context w, c.actor context w = (.error e, w) → c.answer context w = (reply, w) := by
  have handled : ∃ result, ∀ context w, c.actor context w = (.error e, w) → c.handle context w = (result, w) := by
    rcases c.handle_cases with ⟨refusal, same⟩ | ⟨resource, handler, found, same⟩
    · exact ⟨.error refusal, fun context w _ => by rw [same, fail_run]⟩
    · rcases handler?_asks found with ⟨result, always⟩ | ⟨f, asks⟩
      · exact ⟨result, fun context w _ => by rw [same, always]⟩
      · exact ⟨.error e, fun context w fails => by rw [same, asks, bind_of_error fails]⟩
  obtain ⟨result, same⟩ := handled
  by_cases options : c.method = .options
  · exact ⟨⟨200, none⟩, fun context w _ => by rw [answer, if_pos options]⟩
  · cases result with
    | error refusal =>
      refine ⟨if c.method = .head then (Reply.refused refusal).bare else .refused refusal, ?_⟩
      intro context w fails
      simp only [answer, if_neg options, same context w fails]
    | ok reply =>
      refine ⟨if c.method = .head then reply.bare else reply, ?_⟩
      intro context w fails
      simp only [answer, if_neg options, same context w fails]

end Call

end Http

end Approval
