import Approval.Proofs.Agreement
import Approval.Proofs.Request.Growth

/-!
# Requests that differ by escalation

A request that is marked as escalated gets another version, another time of change, and its steps stored
again as they were read. Two requests that differ by nothing else are decided in the same way.
-/

namespace Approval

open StepRecord (asRead)

/-! ### Values that are read again -/

namespace Json

mutual

/-- Reading a value again does not change how deep it nests. -/
@[simp] lemma depth_reread (v : Json) : v.reread.depth = v.depth := by
  cases v with
  | array items =>
    rw [reread, depth, depth, depthOfItems_reread items]
  | object members =>
    rw [reread, depth, depth, depthOfMembers_reread members]
  | _ => rfl

@[simp]
lemma depthOfItems_reread (items : List Json) : depthOfItems (rereadItems items) = depthOfItems items := by
  cases items with
  | nil => rfl
  | cons v rest =>
    rw [rereadItems, depthOfItems, depthOfItems, depth_reread v, depthOfItems_reread rest]

@[simp] lemma depthOfMembers_reread (members : List (String × Json)) :
    depthOfMembers (rereadMembers members) = depthOfMembers members := by
  cases members with
  | nil => rfl
  | cons m rest =>
    obtain ⟨name, v⟩ := m
    rw [rereadMembers, depthOfMembers, depthOfMembers, depth_reread v, depthOfMembers_reread rest]

end

end Json

lemma readNote?_isSome_of_readNote? {outer : Nat} {note read : Option Json}
    (h : readNote? outer note = some read) : (readNote? outer read).isSome = true := by
  unfold readNote? at h
  split at h
  · cases h
    rfl
  · cases h
    rfl
  · rename_i v _
    simp only [Json.readBack?, Option.map_eq_some_iff, Option.ite_none_right_eq_some, Option.some.injEq] at h
    obtain ⟨_, ⟨fits, rfl⟩, rfl⟩ := h
    unfold readNote?
    split
    · rfl
    · rfl
    · rename_i u _ same
      cases same
      simp [Json.readBack?, fits]

/-! ### Records of steps -/

namespace StepRecord

variable {N : Json → Prop} {s t : StepRecord}

lemma readBack?_eq_some_asRead (h : s.readBack?.isSome = true) : s.readBack? = some s.asRead := by
  obtain ⟨t, reads⟩ := Option.isSome_iff_exists.mp h
  rw [reads, asRead, reads]
  rfl

@[simp]
lemma isSome_readBack? (s : StepRecord) : s.readBack?.isSome = (readNote? 2 s.note).isSome := by
  unfold readBack?
  cases readNote? 2 s.note <;> rfl

/-- A record that reads back does so once more, and one that does not stays as it is. -/
@[simp]
lemma isSome_readBack?_asRead (s : StepRecord) : s.asRead.readBack?.isSome = s.readBack?.isSome := by
  cases read : readNote? 2 s.note with
  | none =>
    have unread : s.readBack? = none := by
      rw [readBack?, read]
      rfl
    rw [asRead, unread, Option.getD_none, unread]
  | some note =>
    have reads : s.readBack? = some { s with status := StepStatus.ofLabel s.status.label, note } := by
      rw [readBack?, read]
      rfl
    rw [isSome_readBack?, isSome_readBack?, read, asRead, reads]
    exact readNote?_isSome_of_readNote? read

@[simp] lemma isSome_readBack?_iterate (s : StepRecord) (n : Nat) :
    (asRead^[n] s).readBack?.isSome = s.readBack?.isSome := by
  induction n with
  | zero => rfl
  | succ n ih => rw [Function.iterate_succ_apply', isSome_readBack?_asRead, ih]

/-- Both records are what becomes of one when it is read and stored again some number of times. If it was
stored with a note, `N` holds of the note. -/
inductive Alike (N : Json → Prop) : StepRecord → StepRecord → Prop
  | intro {stored : StepRecord} (m n : Nat) (labelled : stored.Labelled)
      (noted : ∀ v, stored.note = some v → N v) : Alike N (asRead^[m] stored) (asRead^[n] stored)

namespace Alike

lemma refl (labelled : s.Labelled) (noted : ∀ v, s.note = some v → N v) : Alike N s s :=
  .intro 0 0 labelled noted

lemma symm (h : Alike N s t) : Alike N t s := by
  cases h with
  | intro m n labelled noted => exact .intro n m labelled noted

lemma asRead_left (h : Alike N s t) : Alike N s.asRead t := by
  cases h with
  | @intro stored m n labelled noted =>
    rw [← Function.iterate_succ_apply' asRead m stored]
    exact .intro (m + 1) n labelled noted

lemma asRead_right (h : Alike N s t) : Alike N s t.asRead := h.symm.asRead_left.symm

lemma bare_eq (h : Alike N s t) : s.bare = t.bare := by
  cases h with
  | intro m n labelled noted => rw [labelled.bare_iterate, labelled.bare_iterate]

lemma tidy_eq (h : Alike N s t) (verbatim : ∀ v, N v → v.Verbatim) : s.tidy = t.tidy := by
  cases h with
  | @intro stored m n labelled noted =>
    have kept : stored.Verbatim := fun v hv => verbatim v (noted v hv)
    rw [(kept.tidy_iterate labelled m).2, (kept.tidy_iterate labelled n).2]

lemma readBack? (h : Alike N s t) : Option.Rel (Alike N) s.readBack? t.readBack? := by
  have same : s.readBack?.isSome = t.readBack?.isSome := by
    cases h with
    | intro m n => rw [isSome_readBack?_iterate, isSome_readBack?_iterate]
  cases reads : t.readBack?.isSome with
  | false =>
    rw [Option.isSome_eq_false_iff.mp reads |> Option.isNone_iff_eq_none.mp,
      Option.isSome_eq_false_iff.mp (same.trans reads) |> Option.isNone_iff_eq_none.mp]
    exact .none
  | true =>
    rw [readBack?_eq_some_asRead reads, readBack?_eq_some_asRead (same.trans reads)]
    exact .some h.asRead_left.asRead_right

end Alike

/-! ### Records that differ in their notes -/

/-- What does not look at the note is the same of records that differ in it only. -/
lemma congr_bare {β : Type} (h : s.bare = t.bare) (f : StepRecord → β) (blind : ∀ s, f s.bare = f s) :
    f s = f t := by
  rw [← blind s, h, blind t]

/-- Related records differ in their notes only, and a record without a note or with the given one is related to
itself. -/
structure Blind (E : StepRecord → StepRecord → Prop) (context : Option Json) : Prop where
  bare : ∀ s t, E s t → s.bare = t.bare
  new : ∀ s : StepRecord, s.Labelled → s.note = none ∨ s.note = context → E s s

lemma blind_alike {context : Option Json} (noted : ∀ v, context = some v → N v) : Blind (Alike N) context where
  bare _ _ h := h.bare_eq
  new s labelled note := .refl labelled fun v named => by
    rcases note with note | note
    · exact absurd (note.symm.trans named) (by simp)
    · exact noted v (note.symm.trans named)

lemma blind_bare (context : Option Json) : Blind (fun s t => s.bare = t.bare) context :=
  ⟨fun _ _ => id, fun _ _ _ => rfl⟩

lemma blind_tidy (context : Option Json) : Blind (fun s t => s.tidy = t.tidy) context where
  bare s t same := by
    change s.tidy.bare = t.tidy.bare
    rw [same]
  new _ _ _ := rfl

/-- Records that are closed in the same way with the given note are related. -/
lemma Blind.close {E : StepRecord → StepRecord → Prop} {context : Option Json} (h : Blind E context)
    (related : E s t) {outcome : String} (unreserved : outcome ≠ reservedOutcome) (user : UserId) (now : Instant) :
    E (s.close outcome context user now) (t.close outcome context user now) := by
  have same := congr_bare (h.bare s t related) (·.close outcome context user now) fun _ => rfl
  exact same ▸ h.new _ (StepStatus.ofLabel_ofOutcome unreserved) (.inr rfl)

end StepRecord

/-! ### Requests -/

namespace Status

/-- The status without the mark that the request is late. -/
def calm : Status → Status
  | .escalated => .inProgress
  | status => status

variable {s t : Status}

lemma isTerminal_eq_of_calm_eq (h : s.calm = t.calm) : s.isTerminal = t.isTerminal := by
  cases s <;> cases t <;> first | rfl | exact absurd h (by decide)

lemma eq_of_calm_eq (h : s.calm = t.calm) (terminal : s.isTerminal = true) : s = t := by
  cases s <;> cases t <;> first | rfl | exact absurd h (by decide) | exact absurd terminal (by decide)

@[simp] lemma calm_eq_inProgress_iff : s.calm = .inProgress ↔ s = .inProgress ∨ s = .escalated := by
  cases s <;> simp [calm]

end Status

/-- The last change of a request that reads back was in a year of four digits. -/
lemma Request.hasPlainYear_of_readBack? {row r : Request} (h : row.readBack? = some r) :
    row.updatedAt.hasPlainYear = true := by
  simp only [Request.readBack?, Option.bind_eq_bind, Option.bind_eq_some_iff, Instant.readBack?,
    Option.ite_none_right_eq_some] at h
  obtain ⟨_, -, _, -, _, -, _, -, _, ⟨plain, -⟩, -⟩ := h
  exact plain

/-- The requests differ in versions, in marks that they are late, in the times of the last change, and in the
steps as far as `E` allows. -/
structure Request.Alike (E : StepRecord → StepRecord → Prop) (r q : Request) : Prop where
  same : q = { r with
    status := q.status
    version := q.version
    steps := q.steps
    updatedAt := q.updatedAt }
  status : r.status.calm = q.status.calm
  steps : List.Forall₂ E r.steps q.steps
  updatedAt : r.updatedAt.hasPlainYear = q.updatedAt.hasPlainYear

/-- An object without the members of a name. -/
def Json.without (name : String) : Json → Json
  | .object members => .object (members.filter (·.1 ≠ name))
  | v => v

/-- A note of the audit log; one about a decision does not say which status the request had before. -/
def AuditNote.masked (n : AuditNote) : AuditNote :=
  if n.action = .stepDecided then { n with details := n.details.map (·.without "from_status") } else n

@[simp] lemma AuditNote.action_masked (n : AuditNote) : n.masked.action = n.action := by
  unfold masked
  split <;> rfl

/-- The decisions came to requests that differ as `Request.Alike` says, and to the same otherwise, but for the
status that the audit log names as the one before. -/
structure Decided.Alike (E : StepRecord → StepRecord → Prop) (x y : Decided) : Prop where
  request : x.request.Alike E y.request
  resolution : x.resolution = y.resolution
  note : x.note.masked = y.note.masked
  event : x.event = y.event

namespace Request.Alike

section General

variable {E F : StepRecord → StepRecord → Prop} {r q : Request}

lemma mono (h : r.Alike E q) (le : ∀ s t, E s t → F s t) : r.Alike F q :=
  ⟨h.same, h.status, h.steps.imp le, h.updatedAt⟩

lemma symm (h : r.Alike E q) (symmetric : ∀ s t, E s t → E t s) : q.Alike E r where
  same := by rw [h.same]
  status := h.status.symm
  steps := (h.steps.imp symmetric).flip
  updatedAt := h.updatedAt.symm

lemma id_eq (h : r.Alike E q) : r.id = q.id := by rw [h.same]

lemma workflowId_eq (h : r.Alike E q) : r.workflowId = q.workflowId := by rw [h.same]

lemma workflowName_eq (h : r.Alike E q) : r.workflowName = q.workflowName := by rw [h.same]

lemma payload_eq (h : r.Alike E q) : r.payload = q.payload := by rw [h.same]

lemma plan_eq (h : r.Alike E q) : r.plan = q.plan := by rw [h.same]

lemma createdAt_eq (h : r.Alike E q) : r.createdAt = q.createdAt := by rw [h.same]

lemma isOpen_eq (h : r.Alike E q) : r.isOpen = q.isOpen := by
  rw [isOpen, isOpen, Status.isTerminal_eq_of_calm_eq h.status]

lemma updateRow {r' q' : Request} (h : r.Alike E q) (h' : r'.Alike E q') :
    (Store.updateRow r r').Alike E (Store.updateRow q q') where
  same := by
    have ended : r'.completedAt = q'.completedAt := by rw [h'.same]
    rw [h.same, Store.updateRow, Store.updateRow, ended]
  status := h'.status
  steps := h'.steps
  updatedAt := h'.updatedAt

end General

variable {N : Json → Prop} {r q : Request}

/-- Both requests read back or neither, and then as requests that differ in the same way. -/
lemma readBack? (h : r.Alike (StepRecord.Alike N) q) :
    Option.Rel (Request.Alike (StepRecord.Alike N)) r.readBack? q.readBack? := by
  obtain ⟨same, status, steps, plain⟩ := h
  generalize q.status = status', q.version = version', q.steps = steps', q.updatedAt = updated' at *
  subst same
  refine optionRel_bind_same fun payload => optionRel_bind_same fun plan => ?_
  refine optionRel_bind (optionRel_mapM steps fun s t alike => alike.readBack?) fun read read' alike => ?_
  refine optionRel_bind_same fun created => ?_
  simp only [Instant.readBack?, plain]
  cases updated : updated'.hasPlainYear with
  | false => exact .none
  | true => exact optionRel_bind_same fun completed => .some ⟨rfl, status, alike, plain⟩

end Request.Alike

/-! ### Decisions -/

/-- Of related lists the last members that satisfy something are changed in the same way. -/
lemma forall₂_changeLast {α β : Type} {R : α → β → Prop} {as : List α} {bs : List β} {p : α → Bool}
    {q : β → Bool} {f : α → α} {g : β → β} (h : List.Forall₂ R as bs) (same : ∀ a b, R a b → p a = q b)
    (changed : ∀ a b, R a b → R (f a) (g b)) : List.Forall₂ R (changeLast p f as) (changeLast q g bs) := by
  induction h with
  | nil => exact .nil
  | @cons a b as bs first rest ih =>
    rw [changeLast, changeLast, any_eq_of_forall₂ rest same, same a b first]
    cases bs.any q with
    | true => exact .cons first ih
    | false =>
      cases q b with
      | true => exact .cons (changed a b first) rest
      | false => exact .cons first rest

namespace Request.Alike

variable {E : StepRecord → StepRecord → Prop} {r q : Request}

section Bare

variable (h : r.Alike E q) (bare : ∀ s t, E s t → s.bare = t.bare)
include h bare

lemma current? : Option.Rel E r.current? q.current? :=
  optionRel_find? (List.rel_reverse h.steps) fun s t related =>
    StepRecord.congr_bare (bare s t related) _ fun _ => rfl

lemma pendingStep_eq : r.pendingStep = q.pendingStep := by
  have current := h.current? bare
  have terminal := Status.isTerminal_eq_of_calm_eq h.status
  unfold pendingStep
  rw [terminal, h.plan_eq]
  cases finished : q.status.isTerminal with
  | true =>
    rw [Status.eq_of_calm_eq h.status (terminal.trans finished)]
    rfl
  | false =>
    simp only [Bool.false_eq_true, if_false]
    generalize r.current? = x, q.current? = y at current
    cases current with
    | none => rfl
    | some related => simp only [StepRecord.congr_bare (bare _ _ related) (·.order) fun _ => rfl]

lemma assigned_eq (step : Step) : r.assigned step = q.assigned step := by
  have due : (r.current?.bind (·.deadline)) = q.current?.bind (·.deadline) := by
    have current := h.current? bare
    generalize r.current? = x, q.current? = y at current
    cases current with
    | none => rfl
    | some related => exact StepRecord.congr_bare (bare _ _ related) (·.deadline) fun _ => rfl
  rw [assigned, assigned, h.id_eq, h.workflowName_eq, due]

end Bare

lemma ruleOf_eq (h : r.Alike E q) (step : Step) (outcome : String) (context : Option Json) :
    r.ruleOf step outcome context = q.ruleOf step outcome context := by
  rw [ruleOf, ruleOf, h.plan_eq, h.payload_eq]

section Blind

variable {context : Option Json} (h : r.Alike E q) (blind : StepRecord.Blind E context)
include h blind

lemma closedSteps {outcome : String} (unreserved : outcome ≠ reservedOutcome) (user : UserId) (now : Instant) :
    List.Forall₂ E (r.closedSteps outcome context user now) (q.closedSteps outcome context user now) :=
  forall₂_changeLast h.steps (fun s t related => StepRecord.congr_bare (blind.bare s t related) _ fun _ => rfl)
    fun _ _ related => blind.close related unreserved user now

/-- Both requests take a way or are refused it for the same reason, and what is announced is the same. -/
lemma advance {cs ds : List StepRecord} (closed : List.Forall₂ E cs ds) (way : Resolution) (now : Instant) :
    Agree (fun x y => x.1.Alike E y.1 ∧ x.1.status = y.1.status ∧ x.2 = y.2)
      (r.advance cs way now) (q.advance ds way now) := by
  cases way with
  | proceed order =>
    have found : r.plan.step? order = q.plan.step? order := by rw [h.plan_eq]
    simp only [Request.advance, found]
    cases q.plan.step? order with
    | none => exact .error _
    | some target =>
      refine Agree.bind (Agree.self fun record => Step.start_eq_ok_iff.mp) ?_
      rintro _ _ ⟨rfl, deadline, -, rfl⟩
      have waits : E (target.waiting now deadline) (target.waiting now deadline) := blind.new _ rfl (.inl rfl)
      have next : (r.onward cs (target.waiting now deadline) now).Alike E
          (q.onward ds (target.waiting now deadline) now) :=
        ⟨by rw [h.same]; rfl, rfl, List.rel_append closed (.cons waits .nil), rfl⟩
      exact .ok ⟨next, rfl, next.assigned_eq blind.bare target⟩
  | finish status =>
    refine .ok ⟨⟨?_, rfl, closed, rfl⟩, rfl, ?_⟩
    · rw [h.same]
    · rw [h.same]
      rfl

end Blind

/-- Both requests are decided in the same way, or the decision is refused for the same reason. -/
theorem decide (h : r.Alike E q) {actor : Actor} {d : Decision} {now : Instant}
    (blind : StepRecord.Blind E d.context) (unversioned : d.expectedVersion = none) :
    Agree (Decided.Alike E) (r.decide actor d now) (q.decide actor d now) := by
  simp only [Request.decide, unversioned, Option.any_none, Bool.false_eq_true, if_false]
  refine Agree.bind (.of_eq (h.pendingStep_eq blind.bare)) ?_
  rintro step _ rfl
  refine Agree.bind (.rfl_eq _) ?_
  rintro overridden _ rfl
  refine Agree.bind (Agree.self fun outcome => ne_reserved_of_outcomeOf) ?_
  rintro outcome _ ⟨rfl, unreserved⟩
  refine Agree.bind (.of_eq (h.ruleOf_eq step outcome d.context)) ?_
  rintro rule _ rfl
  have closed := h.closedSteps blind unreserved actor.userId now
  refine Agree.bind (h.advance blind closed rule.resolution now) ?_
  rintro ⟨next, event⟩ ⟨next', _⟩ ⟨alike, same, rfl⟩
  refine .ok ⟨alike, rfl, ?_, rfl⟩
  simp only at same
  simp [AuditNote.masked, decisionDetails, Json.without, h.id_eq, same]

/-! ### Escalation -/

/-- A row that is marked as escalated, from what it read back as, differs from the other request as before. -/
lemma updateRow_escalated {N : Json → Prop} {row marked : Request} (h : row.Alike (StepRecord.Alike N) q)
    (reads : row.readBack? = some r) {escalate : Bool} {now : Instant}
    (marks : Sweep.escalated escalate now r = some marked) (plain : now.hasPlainYear = true) :
    (Store.updateRow row marked).Alike (StepRecord.Alike N) q := by
  obtain ⟨-, inProgress, rfl⟩ := Sweep.escalated_eq_some.mp marks
  refine ⟨?_, ?_, ?_, ?_⟩
  · rw [Store.updateRow, completedAt_of_readBack? reads]
    exact h.same
  · rw [← h.status, ← status_of_readBack? reads, inProgress]
    rfl
  · change List.Forall₂ _ r.steps q.steps
    rw [steps_of_readBack? reads]
    exact List.forall₂_map_left_iff.mpr (h.steps.imp fun _ _ alike => alike.asRead_left)
  · exact plain.trans ((hasPlainYear_of_readBack? reads).symm.trans h.updatedAt)

end Request.Alike

end Approval
