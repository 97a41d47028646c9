import Approval.Proofs.Run.WellFormed

/-!
# Actors after a run

The actor of a user gathers the roles that were ever given to the user, and the permissions that were ever
given to these, each listed once and in ascending order. Neither the order in which they were given nor how
often matters: two runs with the same entities that give the same make the same actors.
-/

namespace Approval

open Work Operation

variable {c : Context} {w : World} {r : RoleId} {p : PermissionId}

/-! ### Users and their actors -/

namespace Store

variable {s t : Store} {x : User}

variable [Supply] in
lemma Enrolled.mem_roleIds_iff (h : s.Enrolled) (stored : x ∈ s.users) :
    r ∈ x.roleIds ↔ s.HasRole x.id r := by
  constructor
  · intro holds
    exact ⟨x, stored, rfl, holds⟩
  · rintro ⟨y, mem, same, holds⟩
    rwa [h.eq_of_id stored mem same.symm]

lemma hasRole_iff_mem {u : UserId} :
    s.HasRole u r ↔ ∃ e ∈ (s.users.map fun x => (x.id, x.roleIds)), e.1 = u ∧ r ∈ e.2 := by
  simp only [HasRole, List.mem_map, exists_exists_and_eq_and]

lemma grants_iff_mem :
    s.Grants r p ↔ ∃ e ∈ (s.roles.map fun x => (x.id, x.permissionIds)), e.1 = r ∧ p ∈ e.2 := by
  simp only [Grants, List.mem_map, exists_exists_and_eq_and]

lemma permits_iff : s.Permits x p ↔ ∃ r, r ∈ x.roleIds ∧ s.Grants r p := by
  constructor
  · rintro ⟨role, stored, holds, grants⟩
    exact ⟨role.id, holds, role, stored, rfl, grants⟩
  · rintro ⟨_, holds, role, stored, rfl, grants⟩
    exact ⟨role, stored, holds, grants⟩

end Store

variable [Supply] in
/-- The actor is the user with all that the acts gave them: their roles, what was given to these, and the
powers of an administrator if one of them has the configured name. -/
structure Actor.Gathers (a : Actor) (adminRole : String) (acts : List Act) (u : User) : Prop where
  userId : a.userId = u.id
  username : a.username = u.username
  roles : Id.Enumerates a.roleIds (World.GaveRole acts u.id)
  permissions : Id.Enumerates a.permissionIds fun p =>
    ∃ r, World.GaveRole acts u.id r ∧ World.GavePermission acts r p
  isAdmin : a.isAdmin = true ↔ ∃ role ∈ (World.after {} acts).store.roles,
    World.GaveRole acts u.id role.id ∧ Text.sameIgnoringCase role.name adminRole = true

variable [Supply] in
lemma Actor.gathers_actorOf (acts : List Act) (adminRole : String) {x : User}
    (stored : x ∈ (World.after {} acts).store.users) :
    ((World.after {} acts).store.actorOf adminRole x).Gathers adminRole acts x := by
  have holds (r : RoleId) : r ∈ x.roleIds ↔ World.GaveRole acts x.id r :=
    ((World.enrolled_after acts).mem_roleIds_iff stored).trans (World.hasRole_after acts)
  refine ⟨rfl, rfl, ⟨((World.linked_after acts).holds x stored).ascend, holds⟩, ⟨Id.ascend_ascending _, fun p => ?_⟩, ?_⟩
  · refine Store.mem_permissionsOf.trans ?_
    simp only [Store.permits_iff, holds, World.grants_after]
  · rw [Store.isAdmin_actorOf]
    simp only [Store.Administers, holds]

/-! ### Runs that give the same -/

/-- What of a user does not depend on what they hold: who they are, whether they may act, and whether their
row reads back. -/
def User.entity (u : User) : UserId × String × Bool × Bool := (u.id, u.username, u.isActive, u.readBack?.isSome)

/-- What of a role does not depend on what it grants. -/
def Role.entity (r : Role) : RoleId × String × Bool := (r.id, r.name, r.readBack?.isSome)

/-- The two stores have the same users and the same roles, whatever these hold and grant. -/
structure Store.SameEntities (s t : Store) : Prop where
  users : ∀ e, e ∈ s.users.map User.entity ↔ e ∈ t.users.map User.entity
  roles : ∀ e, e ∈ s.roles.map Role.entity ↔ e ∈ t.roles.map Role.entity

variable [Supply] in
/-- The two runs give users the same roles and roles the same permissions. -/
structure World.GiveAlike (acts others : List Act) : Prop where
  roles : ∀ u r, GaveRole acts u r ↔ GaveRole others u r
  permissions : ∀ r p, GavePermission acts r p ↔ GavePermission others r p

namespace Store.SameEntities

variable {s t : Store}

lemma symm (h : s.SameEntities t) : t.SameEntities s := ⟨fun e => (h.users e).symm, fun e => (h.roles e).symm⟩

lemma exists_user (h : s.SameEntities t) {x : User} (stored : x ∈ s.users) :
    ∃ y ∈ t.users, y.entity = x.entity :=
  List.mem_map.mp ((h.users _).mp (List.mem_map_of_mem stored))

lemma exists_role (h : s.SameEntities t) {x : Role} (stored : x ∈ s.roles) :
    ∃ y ∈ t.roles, y.entity = x.entity :=
  List.mem_map.mp ((h.roles _).mp (List.mem_map_of_mem stored))

/-- What is asked of all roles but for what they grant holds in both stores or in neither. -/
lemma forall_roles_iff (h : s.SameEntities t) {q : RoleId × String × Bool → Prop} :
    (∀ x ∈ s.roles, q x.entity) ↔ ∀ x ∈ t.roles, q x.entity := by
  have one {s t : Store} (h : s.SameEntities t) (all : ∀ x ∈ s.roles, q x.entity) :
      ∀ x ∈ t.roles, q x.entity := by
    intro x stored
    obtain ⟨y, mem, same⟩ := h.symm.exists_role stored
    rw [← same]
    exact all y mem
  exact ⟨one h, one h.symm⟩

end Store.SameEntities

variable [Supply] in
/-- Of the same user two runs that give alike make the same actor. -/
lemma Actor.Gathers.eq {a b : Actor} {adminRole : String} {acts others : List Act} {x y : User}
    (h : a.Gathers adminRole acts x) (h' : b.Gathers adminRole others y) (same : y.entity = x.entity)
    (entities : (World.after {} acts).store.SameEntities (World.after {} others).store)
    (alike : World.GiveAlike acts others) : a = b := by
  have id : x.id = y.id := congrArg Prod.fst same.symm
  have username : x.username = y.username := congrArg (·.2.1) same.symm
  have roleIds : a.roleIds = b.roleIds := h.roles.ascend.eq_of_mem_iff h'.roles.ascend fun r => by
    rw [h.roles.mem_iff, h'.roles.mem_iff, id, alike.roles]
  have permissionIds : a.permissionIds = b.permissionIds :=
    h.permissions.ascend.eq_of_mem_iff h'.permissions.ascend fun p => by
      simp only [h.permissions.mem_iff, h'.permissions.mem_iff, id, alike.roles, alike.permissions]
  have isAdmin : a.isAdmin = b.isAdmin := by
    rw [Bool.eq_iff_iff, h.isAdmin, h'.isAdmin, ← not_iff_not]
    simp only [not_exists, not_and, id, alike.roles]
    exact entities.forall_roles_iff (q := fun e => World.GaveRole others y.id e.1 →
      ¬Text.sameIgnoringCase e.2.1 adminRole = true)
  obtain ⟨_, _, _, _, _⟩ := a
  obtain ⟨_, _, _, _, _⟩ := b
  simp only [Actor.mk.injEq]
  exact ⟨h.userId.trans (id.trans h'.userId.symm), h.username.trans (username.trans h'.username.symm), roleIds,
    permissionIds, isAdmin⟩

namespace Directory

/-- Who acts under the name of a user is the user, if their row reads back. -/
lemma actorNamed_of_mem (distinct : (w.store.users.map (·.username)).Nodup) {x : User}
    (stored : x ∈ w.store.users) :
    actorNamed x.username c w =
      if x.readBack?.isSome = true then actorFor x c w else (.error (.ofStore Store.unreadable), w) := by
  have found := Store.find?_eq_of_nodup_map distinct stored
  cases reads : x.readBack? with
  | none =>
    have refused : userNamed x.username c w = (.error (.ofStore Store.unreadable), w) := by
      simp only [userNamed, readOr, Store.userNamed, found, Store.readOption, Store.read, reads]
      rfl
    exact bind_of_error refused
  | some y =>
    obtain rfl := User.eq_of_readBack? reads
    have known : userNamed y.username c w = (.ok y, w) := by
      simp only [userNamed, readOr, Store.userNamed, found, Store.readOption, Store.read, reads]
      rfl
    exact bind_of_ok known

/-- Nobody acts under a name that no user has. -/
lemma actorNamed_of_unknown {username : String} (unknown : ∀ x ∈ w.store.users, x.username ≠ username) :
    actorNamed username c w = (.error (.missing (.named .user username)), w) := by
  have missing : w.store.users.find? (·.username = username) = none := by simpa using unknown
  have refused : userNamed username c w = (.error (.missing (.named .user username)), w) := by
    simp only [userNamed, readOr, Store.userNamed, missing, Store.readOption]
  exact bind_of_error refused

/-- Worlds with the same entities, whose users have the same actors, answer alike who acts under a name. -/
lemma actorNamed_alike {v : World} (entities : w.store.SameEntities v.store)
    (distinct : (w.store.users.map (·.username)).Nodup) (distinct' : (v.store.users.map (·.username)).Nodup)
    (actors : ∀ x ∈ w.store.users, ∀ y ∈ v.store.users, y.entity = x.entity →
      w.store.actorOf c.settings.access.adminRole x = v.store.actorOf c.settings.access.adminRole y)
    (username : String) : (actorNamed username c w).1 = (actorNamed username c v).1 := by
  by_cases known : ∃ x ∈ w.store.users, x.username = username
  · obtain ⟨x, stored, rfl⟩ := known
    obtain ⟨y, mem, same⟩ := entities.exists_user stored
    obtain ⟨-, username, active, reads⟩ : y.id = x.id ∧ y.username = x.username ∧ y.isActive = x.isActive ∧
        y.readBack?.isSome = x.readBack?.isSome := by
      simpa [User.entity] using same
    have roles : (∀ role ∈ w.store.roles, role.readBack?.isSome = true) ↔
        ∀ role ∈ v.store.roles, role.readBack?.isSome = true :=
      entities.forall_roles_iff (q := fun e => e.2.2 = true)
    have there := actorNamed_of_mem distinct' mem (c := c)
    rw [username, reads, actorFor_run, active, username, ← actors x stored y mem same] at there
    rw [there, actorNamed_of_mem distinct stored, actorFor_run]
    simp only [roles]
    split <;> rfl
  · have unknown : ∀ x ∈ w.store.users, x.username ≠ username := fun x stored same => known ⟨x, stored, same⟩
    have unknown' : ∀ y ∈ v.store.users, y.username ≠ username := fun y stored same => by
      obtain ⟨x, mem, entity⟩ := entities.symm.exists_user stored
      exact unknown x mem ((congrArg (·.2.1) entity).trans same)
    rw [actorNamed_of_unknown unknown, actorNamed_of_unknown unknown']

end Directory

section Supplied

variable [Supply]

/-- After acts the directory makes actors of active users from what was given to them, and only from this. -/
structure World.Resolves (acts : List Act) (c : Context) : Prop where
  gathers : ∀ x ∈ (World.after {} acts).store.users, ∀ (a : Actor) (w' : World),
    Directory.actorFor x c (World.after {} acts) = (.ok a, w') →
      a.Gathers c.settings.access.adminRole acts x
  answers : (∀ role ∈ (World.after {} acts).store.roles, role.readBack?.isSome = true) →
    ∀ x ∈ (World.after {} acts).store.users, x.isActive = true →
      ∃ a, Directory.actorFor x c (World.after {} acts) = (.ok a, World.after {} acts)
  alike : ∀ others : List Act, (World.after {} acts).store.SameEntities (World.after {} others).store →
    World.GiveAlike acts others → ∀ username : String,
      (Directory.actorNamed username c (World.after {} acts)).1 =
        (Directory.actorNamed username c (World.after {} others)).1

/-- Who acts after a run depends on the entities and on who holds what, not on when and how often it was
given. -/
theorem World.resolves_after (acts : List Act) (c : Context) : World.Resolves acts c := by
  refine ⟨?_, ?_, ?_⟩
  · intro x stored a w' answers
    obtain ⟨-, rfl, -⟩ := Directory.actorFor_eq_ok answers
    exact Actor.gathers_actorOf acts _ stored
  · intro reads x _ active
    exact ⟨_, by rw [Directory.actorFor_run, if_pos active, if_pos reads]⟩
  · intro others entities alike
    refine Directory.actorNamed_alike entities (Table.follows_users.registers acts).named.distinct
      (Table.follows_users.registers others).named.distinct fun x stored y mem same => ?_
    exact (Actor.gathers_actorOf acts _ stored).eq (Actor.gathers_actorOf others _ mem) same entities alike

end Supplied

/-! ### Two runs -/

namespace Leave

/-- What may be decided here. -/
def permission : PermissionDraft where
  name := "leave:decide"
  resource := "leave"
  action := "decide"
  description := none

/-- A user is created with nothing and comes to hold a role before this grants anything. -/
def staffedLate : List Act :=
  [⟨clock 12, .createPermission permission⟩,
   ⟨clock 12, .createUser { username := "ana", fullName := none, roleNames := [] }⟩,
   ⟨clock 13, .createRole { name := "lead", description := none, permissionNames := [] }⟩,
   ⟨clock 13, .createRole { name := "Admin", description := none, permissionNames := [] }⟩,
   ⟨clock 14, .assign "ana" "Admin"⟩,
   ⟨clock 14, .assign "ana" "clerk"⟩,
   ⟨clock 14, .assign "ana" "lead"⟩,
   ⟨clock 15, .grant "lead" "leave:decide"⟩]

/-- The same user is created with all that they come to hold, and is given some of it again. -/
def staffedEarly : List Act :=
  [⟨clock 12, .createPermission permission⟩,
   ⟨clock 12, .createRole { name := "lead", description := none, permissionNames := ["leave:decide"] }⟩,
   ⟨clock 12, .createRole { name := "Admin", description := none, permissionNames := [] }⟩,
   ⟨clock 13, .createUser { username := "ana", fullName := none, roleNames := ["lead", "Admin", "lead"] }⟩,
   ⟨clock 13, .assign "ana" "lead"⟩,
   ⟨clock 13, .grant "lead" "leave:decide"⟩]

/-- Both ways to staff give alike, and the user may act after either. -/
theorem resolves_of_staffed :
    (World.after {} staffedLate).store.SameEntities (World.after {} staffedEarly).store ∧
      World.GiveAlike staffedLate staffedEarly ∧
      (∀ role ∈ (World.after {} staffedLate).store.roles, role.readBack?.isSome = true) ∧
      (∃ x ∈ (World.after {} staffedLate).store.users, x.isActive = true ∧ x.roleIds.length = 2) ∧
      World.Resolves staffedLate (clock 16) := by
  have users : (World.after {} staffedLate).store.users.map User.entity =
      (World.after {} staffedEarly).store.users.map User.entity := by decide +kernel
  have roles : (World.after {} staffedLate).store.roles.map Role.entity =
      (World.after {} staffedEarly).store.roles.map Role.entity := by decide +kernel
  have held : (World.after {} staffedLate).store.users.map (fun x => (x.id, x.roleIds)) =
      (World.after {} staffedEarly).store.users.map fun x => (x.id, x.roleIds) := by decide +kernel
  have granted : (World.after {} staffedLate).store.roles.map (fun x => (x.id, x.permissionIds)) =
      (World.after {} staffedEarly).store.roles.map fun x => (x.id, x.permissionIds) := by decide +kernel
  refine ⟨?_, ?_, by decide +kernel, by decide +kernel, World.resolves_after staffedLate (clock 16)⟩
  · exact ⟨by rw [users]; exact fun _ => Iff.rfl, by rw [roles]; exact fun _ => Iff.rfl⟩
  · refine ⟨fun u r => ?_, fun r p => ?_⟩
    · rw [← World.hasRole_after, ← World.hasRole_after, Store.hasRole_iff_mem, Store.hasRole_iff_mem, held]
    · rw [← World.grants_after, ← World.grants_after, Store.grants_iff_mem, Store.grants_iff_mem, granted]

end Leave

end Approval
