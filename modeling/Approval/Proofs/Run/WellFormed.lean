import Approval.Proofs.Run.Tables
import Approval.Proofs.Workflow.Proper

/-!
# The tables of the store

Permissions, roles, users and workflows are tables with names. After every run they are well-formed: names are
as they must be and distinct, roles and users refer to what is stored, workflows are proper, and the lists show
what was created and not removed.
-/

namespace Approval

open Work Operation

variable {c : Context} {w w' : World} {acts : List Act}

/-! ### Names -/

/-- The text has characters, and none of them is blank. -/
structure Text.IsWord (s : String) : Prop where
  nonempty : s ≠ ""
  unbroken : ∀ ch ∈ s.toList, isBlank ch = false

/-- The text has characters, and no blanks at its ends. -/
structure Text.IsTrimmed (s : String) : Prop where
  nonempty : s ≠ ""
  trimmed : trim s = s

lemma Directory.isWord_of_requireName {kind : NameKind} {given name : String}
    (h : requireName kind given = .ok name) : Text.IsWord name := by
  simp only [requireName, Except.ite_error_eq_ok_iff, Except.ok.injEq, Bool.not_eq_true] at h
  obtain ⟨nonempty, unbroken, rfl⟩ := h
  refine ⟨by simpa using nonempty, ?_⟩
  simpa [Text.hasBlank] using unbroken

/-! ### The tables -/

/-- The act is made in a year of four digits. -/
def Act.Dated (a : Act) : Prop := a.context.now.hasPlainYear = true

/-- A row of which only a time is kept as text reads back if the time does. -/
lemma Instant.isSome_bind_readBack? {α : Type} (t : Instant) (row : Instant → α) :
    (t.readBack?.bind fun u => some (row u)).isSome = t.hasPlainYear := by
  unfold readBack?
  split_ifs with plain <;> simp [plain]

namespace Table

variable [Supply]

/-- Permissions never change. -/
def permissions : Table Permission where
  rows s := s.permissions
  name p := p.name
  good := Text.IsWord
  read := Permission.readBack?
  core p := p
  create?
    | .createPermission d => some (Directory.createPermission d)
    | _ => none
  removes _ _ := false
  legible := Act.Dated
  empty := rfl
  name_core _ := rfl
  name_read _ _ reads := by rw [Permission.eq_of_readBack? reads]
  read_core x := by simp
  removes_core _ _ := rfl
  removes_of_create _ _ _ _ := rfl

/-- Of a role changes what it grants. -/
def roles : Table Role where
  rows s := s.roles
  name r := r.name
  good := Text.IsWord
  read := Role.readBack?
  core r := { r with permissionIds := [] }
  create?
    | .createRole d => some (Directory.createRole d)
    | _ => none
  removes _ _ := false
  legible := Act.Dated
  empty := rfl
  name_core _ := rfl
  name_read _ _ reads := by rw [Role.eq_of_readBack? reads]
  read_core r := by
    simp only [Role.readBack?]
    cases r.createdAt.readBack? <;> rfl
  removes_core _ _ := rfl
  removes_of_create _ _ _ _ := rfl

/-- Of a user changes what they hold and whether they are active. -/
def users : Table User where
  rows s := s.users
  name u := u.username
  good := Text.IsWord
  read := User.readBack?
  core u := { u with isActive := true, roleIds := [] }
  create?
    | .createUser d => some (Directory.createUser d)
    | _ => none
  removes _ _ := false
  legible := Act.Dated
  empty := rfl
  name_core _ := rfl
  name_read _ _ reads := by rw [User.eq_of_readBack? reads]
  read_core u := by
    simp only [User.readBack?]
    cases u.createdAt.readBack? <;> rfl
  removes_core _ _ := rfl
  removes_of_create _ _ _ _ := rfl

/-- Of a workflow changes whether it is active. -/
def workflows : Table Workflow where
  rows s := s.workflows
  name wf := wf.name
  good := Text.IsTrimmed
  read := Workflow.readBack?
  core wf := { wf with isActive := true }
  create?
    | .createWorkflow d createdBy => some (Workflows.create d createdBy)
    | _ => none
  removes
    | .removeWorkflow id _, wf => wf.id = id
    | _, _ => false
  legible := Act.Admitted
  empty := rfl
  name_core _ := rfl
  name_read _ _ reads := by rw [Workflow.eq_of_readBack? reads]
  read_core wf := Workflow.readBack?_isActive wf true
  removes_core call _ := by cases call <;> rfl
  removes_of_create call _ _ creates := by
    cases call with
    | createWorkflow => rfl
    | _ => exact absurd creates nofun

end Table

/-! ### What edits do -/

namespace Directory

variable [Supply] {s t : Store} {call : ServiceCall}

/-- Only the creation of a permission changes permissions. -/
lemma Edit.permissions_eq (edit : Edit c s call t) (other : Table.permissions.create? call = none) :
    t.permissions = s.permissions := by
  cases edit with
  | permissionCreated => exact absurd other nofun
  | _ => rfl

/-- Edits other than the creation of a role change what roles grant at most. -/
lemma Edit.roles_eq (edit : Edit c s call t) (other : Table.roles.create? call = none) :
    ∃ f : Role → Role, (∀ r, Table.roles.core (f r) = Table.roles.core r) ∧ t.roles = s.roles.map f := by
  cases edit with
  | roleCreated => exact absurd other nofun
  | granted =>
    refine ⟨_, fun r => ?_, rfl⟩
    split <;> rfl
  | _ => exact ⟨id, fun _ => rfl, (List.map_id _).symm⟩

/-- Edits other than the creation of a user change what users hold and whether they are active at most. -/
lemma Edit.users_eq (edit : Edit c s call t) (other : Table.users.create? call = none) :
    ∃ f : User → User, (∀ u, Table.users.core (f u) = Table.users.core u) ∧ t.users = s.users.map f := by
  cases edit with
  | userCreated => exact absurd other nofun
  | assigned | deactivated =>
    refine ⟨_, fun u => ?_, rfl⟩
    split <;> rfl
  | _ => exact ⟨id, fun _ => rfl, (List.map_id _).symm⟩

end Directory

namespace Table

variable [Supply]

/-- A call that neither creates nor removes changes what may change, if edits of the directory do so. -/
lemma Step.of_edits {α : Type} {T : Table α} {call : ServiceCall} (hk : w.store.Keyed)
    (creates : T.create? call = none) (removes : ∀ x, T.removes call x = false)
    (same : ∀ t, w.store.SameDirectory t → T.rows t = T.rows w.store)
    (edit : ∀ t, Directory.Edit c w.store call t →
      ∃ f : α → α, (∀ x, T.core (f x) = T.core x) ∧ T.rows t = (T.rows w.store).map f) :
    T.Step c w call (T.rows (call.run c w).store) := by
  rcases call.run_directory hk (c := c) with keeps | unchanged | ⟨t, edits, changed⟩
  · exact .of_same creates removes (same _ keeps)
  · exact .of_same creates removes (by rw [unchanged])
  · obtain ⟨f, core, rows⟩ := edit t edits
    exact .of_map creates removes core (by rw [changed]; exact rows)

theorem follows_permissions : permissions.Follows := by
  intro c w call hk
  by_cases creates : permissions.create? call = none
  · refine .of_edits hk creates (fun _ => rfl) (fun t same => same.permissions) fun t edit => ?_
    exact ⟨id, fun _ => rfl, (edit.permissions_eq creates).trans (List.map_id _).symm⟩
  · cases call with
    | createPermission d =>
      refine .of_create rfl rfl (Directory.createPermission_writes d).atomic fun p w' answers => ?_
      obtain ⟨named, new, made, rfl⟩ := Directory.createPermission_eq_ok answers
      refine ⟨p, rfl, rfl, Directory.isWord_of_requireName named, new, fun dated => ?_⟩
      have created : p.createdAt = c.now := congrArg Permission.createdAt made
      refine (Instant.isSome_bind_readBack? _ _).trans ?_
      rw [created]
      exact dated
    | _ => exact absurd rfl creates

theorem follows_roles : roles.Follows := by
  intro c w call hk
  by_cases creates : roles.create? call = none
  · exact .of_edits hk creates (fun _ => rfl) (fun t same => same.roles) fun t edit => edit.roles_eq creates
  · cases call with
    | createRole d =>
      refine .of_create rfl rfl (Directory.createRole_writes d).atomic fun r w' answers => ?_
      obtain ⟨granted, named, -, new, made, rfl⟩ := Directory.createRole_eq_ok answers
      refine ⟨_, rfl, rfl, Directory.isWord_of_requireName named, new, fun dated => ?_⟩
      have created : r.createdAt = c.now := congrArg Role.createdAt made
      refine (Instant.isSome_bind_readBack? _ _).trans ?_
      rw [created]
      exact dated
    | _ => exact absurd rfl creates

theorem follows_users : users.Follows := by
  intro c w call hk
  by_cases creates : users.create? call = none
  · exact .of_edits hk creates (fun _ => rfl) (fun t same => same.users) fun t edit => edit.users_eq creates
  · cases call with
    | createUser d =>
      refine .of_create rfl rfl (Directory.createUser_writes d).atomic fun u w' answers => ?_
      obtain ⟨held, named, -, new, made, rfl⟩ := Directory.createUser_eq_ok answers
      refine ⟨_, rfl, rfl, Directory.isWord_of_requireName named, new, fun dated => ?_⟩
      have created : u.createdAt = c.now := congrArg User.createdAt made
      refine (Instant.isSome_bind_readBack? _ _).trans ?_
      rw [created]
      exact dated
    | _ => exact absurd rfl creates

/-- Calls that neither create, switch nor remove a workflow leave workflows as they are. -/
lemma workflows_eq_of_effect {call : ServiceCall} (effect : call.Effect c w w')
    (creates : ∀ d createdBy, call ≠ .createWorkflow d createdBy)
    (switches : ∀ id isActive actor, call ≠ .switchWorkflow id isActive actor)
    (removes : ∀ id actor, call ≠ .removeWorkflow id actor) :
    workflows.rows w'.store = workflows.rows w.store := by
  cases effect with
  | nothing | started | decided => rfl
  | directory only =>
    rw [only.1]
    rfl
  | created => exact absurd rfl (creates _ _)
  | switched => exact absurd rfl (switches _ _ _)
  | removed => exact absurd rfl (removes _ _)
  | swept breached => exact (Sweep.same_of_breached breached).1

omit [Supply] in
/-- The name of an accepted draft is trimmed. -/
lemma isTrimmed_of_accepted {d : Draft} (accepted : d.normalize.verify = .ok ()) :
    Text.IsTrimmed d.normalize.name := by
  obtain ⟨named, -⟩ := Draft.check_eq_ok_iff.mp (Draft.verify_eq_ok_iff.mp accepted)
  refine ⟨?_, Text.trim_trim d.name⟩
  intro empty
  rw [empty] at named
  exact absurd named (by decide)

theorem follows_workflows : workflows.Follows := by
  intro c w call hk
  -- Said before the call is known, so that nothing here unfolds what it runs.
  have kept := workflows_eq_of_effect (call.run_effect hk (c := c))
  cases call with
  | createWorkflow d createdBy =>
    refine .of_create rfl rfl (Workflows.create_atomic d createdBy) fun wf w' answers => ?_
    obtain ⟨accepted, rfl, new, -, rfl⟩ := Workflows.create_eq_ok_iff.mp answers
    have named (x : Workflow) (stored : x ∈ w.store.workflows) := (new x stored).2
    refine ⟨_, rfl, rfl, isTrimmed_of_accepted accepted, named, fun admitted => ?_⟩
    exact Option.isSome_iff_exists.mpr (rowInvariant_readable.created _ admitted accepted)
  | switchWorkflow id isActive actor =>
    rcases Workflows.setActive_cases id isActive actor (c := c) (w := w) with same | ⟨-, -, changed⟩
    · exact .of_same rfl (fun _ => rfl) (by rw [ServiceCall.run, same])
    · rw [ServiceCall.run, changed]
      refine .of_map rfl (fun _ => rfl) (fun wf => ?_) rfl
      split <;> rfl
  | removeWorkflow id actor =>
    rw [ServiceCall.run]
    rcases ran : Workflows.remove id actor c w with ⟨e | _, w'⟩
    · obtain rfl := Workflows.remove_atomic id actor c w e w' ran
      have refused : ¬(ServiceCall.removeWorkflow id actor).Answers c w' := by
        rintro ⟨v, answers⟩
        exact absurd (ran.symm.trans answers) (by simp)
      exact .of_failed (by simp [workflows]) (fun _ _ => refused) rfl
    · obtain ⟨-, -, -, rfl⟩ := Workflows.remove_eq_ok_iff.mp ran
      exact .of_filter rfl ⟨_, ran⟩ (List.filter_congr fun wf _ => by simp [workflows])
  | _ => exact .of_same rfl (fun _ => rfl) (kept (by simp) (by simp) (by simp))

end Table

/-! ### References -/

/-- The identifiers ascend, and each is one of those that are known. -/
structure Id.Refers {kind : Kind} (ids known : List (Id kind)) : Prop where
  ascend : Ascend ids
  known : ids ⊆ known

namespace Id.Refers

variable {kind : Kind} {ids known : List (Id kind)} {a : Id kind}

lemma mono (h : Refers ids known) {more : List (Id kind)} (grows : known ⊆ more) : Refers ids more :=
  ⟨h.ascend, List.Subset.trans h.known grows⟩

lemma insert (h : Refers ids known) (mem : a ∈ known) : Refers (Id.insert a ids) known where
  ascend := ascend_insert h.ascend
  known b among := by
    rcases mem_insert.mp among with rfl | old
    · exact mem
    · exact h.known old

lemma ascending (among : ids ⊆ known) : Refers (Id.ascending ids) known :=
  ⟨ascend_ascending ids, fun _ mem => among (mem_ascending.mp mem)⟩

end Id.Refers

/-- Roles refer to permissions that are stored, and users to roles that are. -/
structure Store.Linked (s : Store) : Prop where
  grants : ∀ r ∈ s.roles, Id.Refers r.permissionIds (s.permissions.map (·.id))
  holds : ∀ u ∈ s.users, Id.Refers u.roleIds (s.roles.map (·.id))

namespace Store

variable {s t : Store} {call : ServiceCall}

/-- Things that are found under names are among those that are stored. -/
lemma map_subset_of_known {α β : Type} {f : String → Access (Option α)} {rows : List α} {key : α → β}
    (stored : ∀ n a, f n = .ok (some a) → a ∈ rows) {names : List String} {as : List α}
    (known : List.Forall₂ (fun n a => f n = .ok (some a)) names as) : as.map key ⊆ rows.map key := by
  refine List.map_subset key fun a mem => ?_
  obtain ⟨n, -, found⟩ := exists_of_forall₂_right known mem
  exact stored n a found

namespace Linked

lemma of_same (h : s.Linked) (same : s.SameDirectory t) : t.Linked where
  grants := by rw [same.roles, same.permissions]; exact h.grants
  holds := by rw [same.users, same.roles]; exact h.holds

variable [Supply] in
lemma edit (h : s.Linked) (edit : Directory.Edit c s call t) : t.Linked := by
  have append {α β : Type} {key : α → β} (rows : List α) (row : α) :
      rows.map key ⊆ (rows ++ [row]).map key := List.map_subset key (List.subset_append_left _ _)
  cases edit with
  | permissionCreated => exact ⟨fun r mem => (h.grants r mem).mono (append _ _), h.holds⟩
  | roleCreated _ known =>
    refine ⟨fun r mem => ?_, fun u mem => (h.holds u mem).mono (append _ _)⟩
    rcases List.mem_append.mp mem with old | created
    · exact h.grants r old
    · obtain rfl := List.mem_singleton.mp created
      exact .ascending (map_subset_of_known (fun _ _ => mem_of_permissionNamed) known)
  | userCreated _ known =>
    refine ⟨h.grants, fun u mem => ?_⟩
    rcases List.mem_append.mp mem with old | created
    · exact h.holds u old
    · obtain rfl := List.mem_singleton.mp created
      exact .ascending (map_subset_of_known (fun _ _ => mem_of_roleNamed) known)
  | @granted _ _ r p roleKnown permissionKnown =>
    have ids : (s.grant r.id p.id).roles.map (·.id) = s.roles.map (·.id) := by
      simp only [grant, List.map_map]
      exact List.map_congr_left fun x _ => by simp only [Function.comp_apply]; split <;> rfl
    refine ⟨fun x mem => ?_, fun u mem => ids ▸ h.holds u mem⟩
    obtain ⟨row, stored, rfl⟩ := List.mem_map.mp mem
    split
    · exact (h.grants row stored).insert (List.mem_map_of_mem (mem_of_permissionNamed permissionKnown))
    · exact h.grants row stored
  | assigned _ roleKnown =>
    refine ⟨h.grants, fun u mem => ?_⟩
    obtain ⟨row, stored, rfl⟩ := List.mem_map.mp mem
    split
    · exact (h.holds row stored).insert (List.mem_map_of_mem (mem_of_roleNamed roleKnown))
    · exact h.holds row stored
  | deactivated =>
    refine ⟨h.grants, fun u mem => ?_⟩
    obtain ⟨row, stored, rfl⟩ := List.mem_map.mp mem
    split <;> exact h.holds row stored
  | tokenIssued => exact ⟨h.grants, h.holds⟩

end Linked

end Store

/-! ### Runs -/

section Supplied

variable [Supply]

/-- What holds of the tables of the store after acts. -/
structure World.WellFormed (acts : List Act) : Prop where
  permissionNames : Named Text.IsWord (·.name) (World.after {} acts).store.permissions
  roleNames : Named Text.IsWord (·.name) (World.after {} acts).store.roles
  usernames : Named Text.IsWord (·.username) (World.after {} acts).store.users
  workflowNames : Named Text.IsTrimmed (·.name) (World.after {} acts).store.workflows
  linked : (World.after {} acts).store.Linked
  permissions : Table.permissions.Lists Directory.listPermissions acts
  roles : Table.roles.Lists Directory.listRoles acts
  users : Table.users.Lists Directory.listUsers acts
  workflows : Table.workflows.Lists Workflows.list acts
  /-- Workflows are proper as they are stored and as they are read. -/
  proper : ∀ row ∈ (World.after {} acts).store.workflows,
    row.Proper ∧ ∀ wf, row.readBack? = some wf → wf.Proper

namespace World

theorem linked_after (acts : List Act) : (World.after {} acts).store.Linked :=
  directory_after ⟨by simp, by simp⟩ (fun _ _ same h => h.of_same same) (fun _ _ _ _ edits h => h.edit edits) acts

omit [Supply] in
/-- Workflows are proper from their creation on. -/
lemma rowInvariant_proper : RowInvariant (fun _ => True) Workflow.Proper fun _ => True where
  created id _ accepted := Workflows.proper_ofDraft accepted id _ _
  switched _ before := ⟨before.passes, before.ordered, before.trimmed⟩
  started _ _ _ _ := trivial
  decided _ _ _ _ _ := trivial
  escalated _ _ _ _ _ := trivial

/-- After any acts the tables of the store are well-formed. -/
theorem wellFormed_after (acts : List Act) : WellFormed acts := by
  have permissions := Table.follows_permissions.registers acts
  have roles := Table.follows_roles.registers acts
  have users := Table.follows_users.registers acts
  have workflows := Table.follows_workflows.registers acts
  refine
    { permissionNames := permissions.named
      roleNames := roles.named
      usernames := users.named
      workflowNames := workflows.named
      linked := linked_after acts
      permissions := permissions.lists
      roles := roles.lists
      users := users.lists
      workflows := workflows.lists
      proper := fun row stored => ?_ }
  have proper := (rowInvariant_proper.after_empty acts fun _ _ => trivial).workflows row stored
  exact ⟨proper, fun _ reads => proper.readBack reads⟩

end World

end Supplied

/-! ### A run -/

namespace Leave

/-- The permission to approve leave, as it is handed in. -/
def consent : PermissionDraft where
  name := "approve"
  resource := "leave"
  action := "approve"
  description := none

/-- In the year 10000 a permission is created. -/
def permittedMuchLater : List Act := [⟨clock 70389528, .createPermission consent⟩]

/-- A permission that was created is not listed while its row does not read back. -/
theorem unlisted_of_permittedMuchLater :
    (∃ p, Table.permissions.Stands permittedMuchLater p) ∧
      ∀ c, ¬∃ ps w', Directory.listPermissions c (World.after {} permittedMuchLater) = (.ok ps, w') := by
  have ran : (Directory.createPermission consent (clock 70389528) {}).1.isOk = true ∧
      (Directory.listPermissions (clock 12) (World.after {} permittedMuchLater)).1.isOk = false := by
    decide +kernel
  obtain ⟨created, refused⟩ := ran
  constructor
  · rcases made : Directory.createPermission consent (clock 70389528) {} with ⟨e | p, w'⟩
    · rw [made] at created
      exact Bool.noConfusion created
    · have stands : Table.permissions.Stands ([] ++ permittedMuchLater) p :=
        .created ⟨_, p, w', rfl, made, rfl⟩
      exact ⟨p, stands⟩
  · rintro c ⟨ps, w', answers⟩
    -- What is listed does not depend on when it is.
    have at_noon : Directory.listPermissions (clock 12) (World.after {} permittedMuchLater) = (.ok ps, w') := answers
    rw [at_noon] at refused
    exact Bool.noConfusion refused

end Leave

end Approval
