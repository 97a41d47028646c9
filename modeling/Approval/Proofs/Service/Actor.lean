import Approval.Proofs.Id
import Approval.Proofs.Store.Rows
import Approval.Proofs.Work
import Approval.Request.Decision
import Approval.Service.Directory

/-!
# Who acts

The actor that a user is has the roles of the user, the permissions that these grant, and the powers of an
administrator if one of the roles has the configured name. Only active users act. At a gate nothing else
counts than what the user holds.
-/

namespace Approval

open Work Operation

/-! ### What users hold -/

namespace Store

/-- The user holds a role that has the name of that of administrators, up to the case of its letters. -/
def Administers (s : Store) (adminRole : String) (u : User) : Prop :=
  ∃ role ∈ s.roles, role.id ∈ u.roleIds ∧ Text.sameIgnoringCase role.name adminRole = true

/-- The user holds a role that grants the permission. -/
def Permits (s : Store) (u : User) (p : PermissionId) : Prop :=
  ∃ role ∈ s.roles, role.id ∈ u.roleIds ∧ p ∈ role.permissionIds

/-- The user holds the role and the permission that the step asks for, if it asks for any. -/
def Admits (s : Store) (u : User) (step : Step) : Prop :=
  (∀ role, step.role = some role → role ∈ u.roleIds) ∧
    ∀ permission, step.permission = some permission → s.Permits u permission

/-- The actor that a user is, if the role of administrators has the given name. -/
def actorOf (s : Store) (adminRole : String) (u : User) : Actor :=
  { userId := u.id
    username := u.username
    roleIds := u.roleIds
    permissionIds := s.permissionsOf u.roleIds
    isAdmin := s.roles.any fun r => u.roleIds.contains r.id && Text.sameIgnoringCase r.name adminRole }

/-- The text is a token of the user, who is active: a credential of theirs has its digest. -/
structure Bears (s : Store) (token : String) (u : User) : Prop where
  stored : u ∈ s.users
  active : u.isActive = true
  nonempty : (Text.trim token).isEmpty = false
  credential : ∃ credential ∈ s.credentials, credential.digest = Digest.ofText (Text.trim token) ∧
    credential.owner = u.id

variable {s : Store} {adminRole : String} {u : User}

instance (token : String) : Decidable (s.Bears token u) :=
  decidable_of_iff (u ∈ s.users ∧ u.isActive = true ∧ (Text.trim token).isEmpty = false ∧
      ∃ credential ∈ s.credentials, credential.digest = Digest.ofText (Text.trim token) ∧
        credential.owner = u.id)
    ⟨fun ⟨stored, active, nonempty, credential⟩ => ⟨stored, active, nonempty, credential⟩,
      fun ⟨stored, active, nonempty, credential⟩ => ⟨stored, active, nonempty, credential⟩⟩

@[simp]
lemma mem_permissionsOf {p : PermissionId} : p ∈ s.permissionsOf u.roleIds ↔ s.Permits u p := by
  simp [permissionsOf, Permits, and_assoc]

@[simp]
lemma isAdmin_actorOf : (s.actorOf adminRole u).isAdmin = true ↔ s.Administers adminRole u := by
  simp [actorOf, Administers]

end Store

/-! ### Gates -/

namespace Step

variable {step : Step} {a : Actor}

@[simp] lemma membership_eq_allowed_iff :
    step.membership a = .allowed ↔
      (∀ role, step.role = some role → role ∈ a.roleIds) ∧
        ∀ permission, step.permission = some permission → permission ∈ a.permissionIds := by
  unfold membership
  split
  · rename_i role lacks
    obtain ⟨asked, missing⟩ := Option.filter_eq_some_iff.mp lacks
    simp_all
  · rename_i roles
    have holds : ∀ role, step.role = some role → role ∈ a.roleIds := by simpa using roles
    split
    · rename_i permission lacks
      obtain ⟨asked, missing⟩ := Option.filter_eq_some_iff.mp lacks
      simp_all
    · rename_i permissions
      have grants : ∀ permission, step.permission = some permission → permission ∈ a.permissionIds := by
        simpa using permissions
      simp only [true_iff]
      exact ⟨holds, grants⟩

/-- Roles and permissions alone override no gate. -/
lemma membership_ne_overridden : step.membership a ≠ .overridden := by
  unfold membership
  split
  · simp
  · split <;> simp

/-- Who is let through a gate holds what it asks for or is an administrator, and overrides it in the second
case only. -/
lemma letThrough_eq_ok_iff {overridden : Bool} :
    step.letThrough a = .ok overridden ↔
      (step.membership a = .allowed ∧ overridden = false) ∨
        (step.membership a ≠ .allowed ∧ a.isAdmin = true ∧ overridden = true) := by
  unfold letThrough passage
  cases member : step.membership a with
  | overridden => exact absurd member membership_ne_overridden
  | allowed | lacksRole | lacksPermission => cases a.isAdmin <;> cases overridden <;> simp

end Step

/-- At the gate of a step counts what the user holds who acts. -/
@[simp] lemma Store.membership_actorOf {s : Store} {adminRole : String} {u : User} {step : Step} :
    step.membership (s.actorOf adminRole u) = .allowed ↔ s.Admits u step := by
  simp only [Step.membership_eq_allowed_iff, actorOf, mem_permissionsOf, Admits]

/-! ### Rows that are read as they are -/

@[grind →]
lemma Permission.eq_of_readBack? {row p : Permission} (h : row.readBack? = some p) : p = row := by
  simp only [Permission.readBack?, Option.bind_eq_bind, Option.bind_eq_some_iff, Option.some.injEq] at h
  obtain ⟨created, hc, rfl⟩ := h
  rw [Instant.eq_of_readBack? hc]

@[grind →] lemma Role.eq_of_readBack? {row r : Role} (h : row.readBack? = some r) : r = row := by
  simp only [Role.readBack?, Option.bind_eq_bind, Option.bind_eq_some_iff, Option.some.injEq] at h
  obtain ⟨created, hc, rfl⟩ := h
  rw [Instant.eq_of_readBack? hc]

@[grind →] lemma User.eq_of_readBack? {row u : User} (h : row.readBack? = some u) : u = row := by
  simp only [User.readBack?, Option.bind_eq_bind, Option.bind_eq_some_iff, Option.some.injEq] at h
  obtain ⟨created, hc, rfl⟩ := h
  rw [Instant.eq_of_readBack? hc]

namespace Store

/-- A list of rows that are read as they are is read as it is. -/
lemma eq_of_readAll {α : Type} {f : α → Option α} (same : ∀ row a, f row = some a → a = row)
    {rows as : List α} (h : readAll f rows = .ok as) : as = rows := by
  have each := forall₂_of_mapM_except h
  clear h
  induction each with
  | nil => rfl
  | cons read _ ih => rw [same _ _ (read_eq_ok_iff.mp read), ih]

variable {s : Store} {u : User}

lemma eq_of_listRoles {roles : List Role} (h : s.listRoles = .ok roles) : roles = byName (·.name) s.roles :=
  eq_of_readAll (fun _ _ => Role.eq_of_readBack?) h

/-- Roles that read back one by one are listed. -/
lemma exists_listRoles (reads : ∀ role ∈ s.roles, role.readBack?.isSome = true) :
    ∃ roles, s.listRoles = .ok roles :=
  exists_readAll fun role mem =>
    Option.isSome_iff_exists.mp (reads role ((List.mergeSort_perm _ _).mem_iff.mp mem))

/-- One role that does not read back keeps all from being listed. -/
lemma listRoles_of_not_reads (unread : ¬∀ role ∈ s.roles, role.readBack?.isSome = true) :
    s.listRoles = .error unreadable := by
  simp only [not_forall, Bool.not_eq_true, Option.isSome_eq_false_iff, Option.isNone_iff_eq_none] at unread
  obtain ⟨role, stored, fails⟩ := unread
  exact readAll_of_none ((List.mergeSort_perm _ _).mem_iff.mpr stored) fails

lemma mem_of_userNamed {username : String} (h : s.userNamed username = .ok (some u)) :
    u ∈ s.users ∧ u.username = username := by
  obtain ⟨row, found, reads⟩ := readOption_eq_ok_some.mp h
  obtain rfl := User.eq_of_readBack? reads
  exact ⟨List.mem_of_find?_eq_some found, by simpa using List.find?_some found⟩

lemma mem_of_permissionNamed {name : String} {p : Permission} (h : s.permissionNamed name = .ok (some p)) :
    p ∈ s.permissions := by
  obtain ⟨row, found, reads⟩ := readOption_eq_ok_some.mp h
  rw [Permission.eq_of_readBack? reads]
  exact List.mem_of_find?_eq_some found

lemma mem_of_roleNamed {name : String} {r : Role} (h : s.roleNamed name = .ok (some r)) : r ∈ s.roles := by
  obtain ⟨row, found, reads⟩ := readOption_eq_ok_some.mp h
  obtain rfl := Role.eq_of_readBack? reads
  exact List.mem_of_find?_eq_some found

/-- The owner of a digest is an active user who has a credential with it. -/
lemma bears_of_ownerOf {token : String} (nonempty : (Text.trim token).isEmpty = false)
    (h : s.ownerOf (Digest.ofText (Text.trim token)) = .ok (some u)) : s.Bears token u := by
  obtain ⟨row, found, reads⟩ := readOption_eq_ok_some.mp h
  obtain rfl := User.eq_of_readBack? reads
  obtain ⟨credential, stored, owned⟩ := Option.bind_eq_some_iff.mp found
  have owns : u.id = credential.owner ∧ u.isActive = true := by simpa using List.find?_some owned
  refine ⟨List.mem_of_find?_eq_some owned, owns.2, nonempty, credential, List.mem_of_find?_eq_some stored, ?_,
    owns.1.symm⟩
  simpa using List.find?_some stored

/-- A text that is nobody's token has no owner. -/
lemma ownerOf_of_nobody {token : String} (nonempty : (Text.trim token).isEmpty = false)
    (nobody : ∀ u, ¬s.Bears token u) : s.ownerOf (Digest.ofText (Text.trim token)) = .ok none := by
  unfold ownerOf
  cases found : (s.credentials.find? (·.digest = Digest.ofText (Text.trim token))).bind
      fun credential => s.users.find? fun u => u.id = credential.owner ∧ u.isActive with
  | none => exact congrArg (readOption User.readBack?) found
  | some u =>
    obtain ⟨credential, stored, owned⟩ := Option.bind_eq_some_iff.mp found
    have owns : u.id = credential.owner ∧ u.isActive = true := by simpa using List.find?_some owned
    refine absurd ⟨List.mem_of_find?_eq_some owned, owns.2, nonempty, credential,
      List.mem_of_find?_eq_some stored, ?_, owns.1.symm⟩ (nobody u)
    simpa using List.find?_some stored

end Store

/-! ### Acting -/

variable {c : Context} {w w' : World} {a : Actor}

namespace Directory

/-- Who is asked to act is refused if they are inactive or a role does not read back, and acts with what they
hold otherwise. -/
@[simp] lemma actorFor_run (u : User) :
    actorFor u c w =
      (if u.isActive = true then
        if ∀ role ∈ w.store.roles, role.readBack?.isSome = true then
          .ok (w.store.actorOf c.settings.access.adminRole u)
        else .error (.ofStore Store.unreadable)
      else .error (.stranger (.deactivated u.username)), w) := by
  unfold actorFor
  cases active : u.isActive with
  | false => rfl
  | true =>
    have asked : ask (·.permissionsOf u.roleIds) c w = (.ok (w.store.permissionsOf u.roleIds), w) := rfl
    simp only [Bool.not_true, Bool.false_eq_true, if_false, if_true]
    rw [bind_of_ok context_run, bind_of_ok asked]
    by_cases reads : ∀ role ∈ w.store.roles, role.readBack?.isSome = true
    · obtain ⟨roles, stored⟩ := Store.exists_listRoles reads
      have listed : listRoles c w = (.ok roles, w) := read_eq_ok_iff.mpr ⟨stored, rfl⟩
      rw [bind_of_ok listed, if_pos reads, Store.eq_of_listRoles stored, Store.byName,
        (List.mergeSort_perm _ _).any_eq]
      rfl
    · have refused : listRoles c w = (.error (.ofStore Store.unreadable), w) :=
        read_eq_error_iff.mpr ⟨_, Store.listRoles_of_not_reads reads, rfl, rfl⟩
      rw [bind_of_error refused, if_neg reads]

/-- Who acts is an active user, and acts with what they hold. -/
lemma actorFor_eq_ok {u : User} (h : actorFor u c w = (.ok a, w')) :
    u.isActive = true ∧ a = w.store.actorOf c.settings.access.adminRole u ∧ w' = w := by
  rw [actorFor_run, Prod.mk.injEq] at h
  obtain ⟨answer, rfl⟩ := h
  split_ifs at answer with active reads
  exact ⟨active, (Except.ok.inj answer).symm, rfl⟩

lemma actorNamed_eq_ok {username : String} (h : actorNamed username c w = (.ok a, w')) :
    ∃ u ∈ w.store.users, u.username = username ∧ u.isActive = true ∧
      a = w.store.actorOf c.settings.access.adminRole u ∧ w' = w := by
  obtain ⟨u, named, h⟩ := (readOr_inert _ _).bind_eq_ok h
  obtain ⟨stored, name⟩ := Store.mem_of_userNamed (readOr_eq_ok_iff.mp named).1
  obtain ⟨active, acts, same⟩ := actorFor_eq_ok h
  exact ⟨u, stored, name, active, acts, same⟩

/-- The actor that a token stands for is a user whose token it is. -/
lemma authenticate_eq_ok {token : String} (h : authenticate token c w = (.ok a, w')) :
    ∃ u, w.store.Bears token u ∧ a = w.store.actorOf c.settings.access.adminRole u ∧ w' = w := by
  unfold authenticate at h
  split_ifs at h with empty
  · simp at h
  · obtain ⟨owner, read, h⟩ := (read_inert _).bind_eq_ok h
    cases owner with
    | none => simp at h
    | some u =>
      obtain ⟨-, acts, same⟩ := actorFor_eq_ok h
      exact ⟨u, Store.bears_of_ownerOf (by simpa using empty) (read_eq_ok_iff.mp read).1, acts, same⟩

/-- Why a text that is nobody's token is refused. -/
def refusalOf (token : String) : Failure :=
  .stranger (if (Text.trim token).isEmpty then .missingCredentials else .invalidCredentials)

/-- A text that is nobody's token is refused whatever is stored. -/
lemma authenticate_of_nobody {token : String} (nobody : ∀ u, ¬w.store.Bears token u) :
    authenticate token c w = (.error (refusalOf token), w) := by
  unfold authenticate refusalOf
  split_ifs with empty
  · rfl
  · have nonempty : (Text.trim token).isEmpty = false := by simpa using empty
    have unknown : read (·.ownerOf (Digest.ofText (Text.trim token))) c w = (.ok none, w) :=
      read_eq_ok_iff.mpr ⟨Store.ownerOf_of_nobody nonempty nobody, rfl⟩
    exact bind_of_ok unknown

end Directory

/-- The actor is an active user of the store with all that they hold. -/
structure Actor.Represents (a : Actor) (c : Context) (s : Store) (u : User) : Prop where
  stored : u ∈ s.users
  active : u.isActive = true
  same : a = s.actorOf c.settings.access.adminRole u

namespace Actor.Represents

variable {s : Store} {u : User} {step : Step} {overridden : Bool}

/-- A user who is let through a gate holds what it asks for or is an administrator. -/
lemma entitled (h : a.Represents c s u) (admitted : step.letThrough a = .ok overridden) :
    s.Administers c.settings.access.adminRole u ∨ s.Admits u step := by
  rw [h.same, Step.letThrough_eq_ok_iff, Store.membership_actorOf, Store.isAdmin_actorOf] at admitted
  rcases admitted with ⟨admits, -⟩ | ⟨-, administers, -⟩
  · exact .inr admits
  · exact .inl administers

/-- A gate is overridden by those only who lack something that it asks for. -/
lemma overridden_iff (h : a.Represents c s u) (admitted : step.letThrough a = .ok overridden) :
    overridden = true ↔ ¬s.Admits u step := by
  rw [h.same, Step.letThrough_eq_ok_iff, Store.membership_actorOf] at admitted
  rcases admitted with ⟨admits, rfl⟩ | ⟨lacks, -, rfl⟩
  · simp [admits]
  · rw [ne_eq, Store.membership_actorOf] at lacks
    simp [lacks]

end Actor.Represents

end Approval
