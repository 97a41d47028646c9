import Approval.Proofs.Store.Verbatim

/-!
# Decisions one after the other

Decisions on a request are made in turn, each on what the ones before it came to; one that fails leaves
the request as it was. Whether null notes are kept makes no difference to what the decisions come to.
-/

namespace Approval

/-- A decision by an actor at a point of time. -/
structure Turn where
  actor : Actor
  decision : Decision
  now : Instant

namespace Request

/-- What a turn comes to. -/
def turn (r : Request) (t : Turn) : Except Failure Request :=
  (·.request) <$> r.decide t.actor t.decision t.now

/-- The request after a turn. -/
def afterTurn (r : Request) (t : Turn) : Request :=
  match r.turn t with
  | .ok next => next
  | .error _ => r

/-- What turns come to, one after the other. -/
def answers (r : Request) : List Turn → List (Except Failure Request)
  | [] => []
  | t :: rest => r.turn t :: (r.afterTurn t).answers rest

/-- The request after all turns. -/
def afterTurns (r : Request) (turns : List Turn) : Request := turns.foldl afterTurn r

@[simp] lemma turn_eq_ok_iff {r next : Request} {t : Turn} :
    r.turn t = .ok next ↔ ∃ x, r.decide t.actor t.decision t.now = .ok x ∧ x.request = next :=
  Except.map_eq_ok_iff

@[simp] lemma id_afterTurn (r : Request) (t : Turn) : (r.afterTurn t).id = r.id := by
  unfold afterTurn
  cases h : r.turn t with
  | error e => rfl
  | ok next =>
    obtain ⟨x, decides, rfl⟩ := turn_eq_ok_iff.mp h
    exact id_of_decide decides

@[simp] lemma id_afterTurns (r : Request) (turns : List Turn) : (r.afterTurns turns).id = r.id := by
  induction turns generalizing r with
  | nil => rfl
  | cons t turns ih => exact (ih (r.afterTurn t)).trans (id_afterTurn r t)

/-- A turn goes through the version, the pending step, its gate, the outcome and the rule. -/
lemma turn_eq (r : Request) (t : Turn) :
    r.turn t =
      if t.decision.expectedVersion.any (· ≠ r.version) = true then .error (.clash .stale)
      else
        r.pendingStep >>= fun step => step.letThrough t.actor >>= fun _ =>
          outcomeOf t.decision >>= fun outcome => r.ruleOf step outcome t.decision.context >>= fun rule =>
            Prod.fst <$> r.advance
              (r.closedSteps outcome t.decision.context t.actor.userId t.now) rule.resolution t.now := by
  unfold turn decide
  split_ifs with stale
  · rfl
  · simp only [← bind_pure_comp, bind_assoc, pure_bind, closedSteps]

/-! ### Null notes -/

@[simp] lemma current?_tidy (r : Request) : r.tidy.current? = r.current?.map StepRecord.tidy := by
  rw [current?, tidy, ← List.map_reverse, List.find?_map]
  rfl

@[simp] lemma pendingStep_tidy (r : Request) : r.tidy.pendingStep = r.pendingStep := by
  unfold pendingStep
  rw [current?_tidy]
  cases r.current? <;> rfl

/-- If `g` makes no difference to what is changed, what it makes of the members makes none to the
change. -/
lemma map_changeLast_map {α : Type} {p : α → Bool} {f : α → α} (g : α → α) (same : ∀ a, p (g a) = p a)
    (once : ∀ a, g (g a) = g a) (hides : ∀ a, g (f (g a)) = g (f a)) (as : List α) :
    (changeLast p f (as.map g)).map g = (changeLast p f as).map g := by
  induction as with
  | nil => rfl
  | cons a as ih =>
    have any : (as.map g).any p = as.any p := by
      rw [List.any_map]
      congr 1
      exact funext same
    simp only [List.map_cons, changeLast, any, same]
    split_ifs with later here
    · rw [List.map_cons, List.map_cons, ih, once]
    · simp [hides, once, Function.comp_def]
    · simp [once, Function.comp_def]

@[simp]
lemma closedSteps_tidy (r : Request) (outcome : String) (context : Option Json) (user : UserId)
    (now : Instant) :
    (r.tidy.closedSteps outcome context user now).map StepRecord.tidy =
      (r.closedSteps outcome context user now).map StepRecord.tidy :=
  map_changeLast_map StepRecord.tidy (fun _ => rfl) StepRecord.tidy_tidy (fun _ => rfl) r.steps

lemma advance_tidy (r : Request) {steps closed : List StepRecord}
    (same : steps.map StepRecord.tidy = closed.map StepRecord.tidy) (way : Resolution) (now : Instant) :
    tidy <$> Prod.fst <$> r.tidy.advance steps way now = tidy <$> Prod.fst <$> r.advance closed way now := by
  cases way with
  | finish status => simp [advance, tidy, same, Functor.map, Except.map]
  | proceed order =>
    have plan : r.tidy.plan = r.plan := rfl
    simp only [advance, plan]
    cases r.plan.step? order with
    | none => rfl
    | some target =>
      cases reached : target.start now with
      | error e => simp [reached, bind, Except.bind, Functor.map, Except.map]
      | ok record => simp [reached, bind, Except.bind, pure, Except.pure, Functor.map, Except.map, tidy, same]

/-- What a turn comes to is the same, but for null notes, whether there were null notes before. -/
@[simp]
theorem turn_tidy (r : Request) (t : Turn) : tidy <$> r.tidy.turn t = tidy <$> r.turn t := by
  have version : r.tidy.version = r.version := rfl
  have ruleOf (step : Step) (outcome : String) (context : Option Json) :
      r.tidy.ruleOf step outcome context = r.ruleOf step outcome context := rfl
  rw [turn_eq, turn_eq, version, pendingStep_tidy]
  split_ifs with stale
  · rfl
  · simp only [map_bind, ruleOf]
    congr! 8 with step _ outcome rule
    exact advance_tidy r (closedSteps_tidy r _ _ _ _) _ _

end Request

end Approval
