import Approval.Proofs.Run.Directory
import Approval.Proofs.Run.Growth
import Approval.Proofs.Run.Refusal
import Mathlib.Data.List.Induction

/-!
# What users hold after a run

Users hold the roles that were ever given to them, and roles grant the permissions that were ever given to
them. They are given by a call that names them and answers: one that creates the user or the role, or one that
adds to what is held.
-/

namespace Approval

open Work Operation

/-! ### What is held -/

namespace Store

/-- The user with an identifier holds the role with another. -/
def HasRole (s : Store) (u : UserId) (r : RoleId) : Prop := ∃ row ∈ s.users, row.id = u ∧ r ∈ row.roleIds

/-- The role with an identifier grants the permission with another. -/
def Grants (s : Store) (r : RoleId) (p : PermissionId) : Prop :=
  ∃ row ∈ s.roles, row.id = r ∧ p ∈ row.permissionIds

/-- Where the rows with one key gain an identifier, that is held and what was held. -/
lemma exists_mem_map_insert {α : Type} {j k : Kind} {key : α → Id j} {held : α → List (Id k)} {f : α → α}
    {i : Id j} {gained : Id k} (keeps : ∀ x, key (f x) = key x)
    (gains : ∀ x, held (f x) = if key x = i then Id.insert gained (held x) else held x)
    {rows : List α} (known : ∃ x ∈ rows, key x = i) {a : Id j} {b : Id k} :
    (∃ x ∈ rows.map f, key x = a ∧ b ∈ held x) ↔
      (∃ x ∈ rows, key x = a ∧ b ∈ held x) ∨ (a = i ∧ b = gained) := by
  simp only [List.mem_map, exists_exists_and_eq_and, keeps, gains]
  constructor
  · rintro ⟨x, mem, rfl, holds⟩
    split_ifs at holds with same
    · rcases Id.mem_insert.mp holds with rfl | before
      · exact .inr ⟨same, rfl⟩
      · exact .inl ⟨x, mem, rfl, before⟩
    · exact .inl ⟨x, mem, rfl, holds⟩
  · rintro (⟨x, mem, rfl, before⟩ | ⟨rfl, rfl⟩)
    · refine ⟨x, mem, rfl, ?_⟩
      split_ifs
      · exact Id.mem_insert.mpr (.inr before)
      · exact before
    · obtain ⟨x, mem, same⟩ := known
      exact ⟨x, mem, same, by rw [if_pos same]; exact Id.mem_insert.mpr (.inl rfl)⟩

end Store

/-! ### What calls give -/

variable [Supply]

namespace ServiceCall

/-- The call asks for a user to hold a role: the one that is created, or the one that it names. -/
inductive NamesRole (s : Store) : ServiceCall → UserId → RoleId → Prop
  | created {d : UserDraft} {name : String} {r : Role} (named : name ∈ d.roleNames)
      (known : s.roleNamed name = .ok (some r)) : NamesRole s (.createUser d) s.nextUserId r.id
  | assigned {username role : String} {u : User} {r : Role} (userKnown : s.userNamed username = .ok (some u))
      (roleKnown : s.roleNamed role = .ok (some r)) : NamesRole s (.assign username role) u.id r.id

/-- The call asks for a role to grant a permission: the one that is created, or the one that it names. -/
inductive NamesPermission (s : Store) : ServiceCall → RoleId → PermissionId → Prop
  | created {d : RoleDraft} {name : String} {p : Permission} (named : name ∈ d.permissionNames)
      (known : s.permissionNamed name = .ok (some p)) : NamesPermission s (.createRole d) s.nextRoleId p.id
  | granted {role permission : String} {r : Role} {p : Permission}
      (roleKnown : s.roleNamed role = .ok (some r))
      (permissionKnown : s.permissionNamed permission = .ok (some p)) :
      NamesPermission s (.grant role permission) r.id p.id

end ServiceCall

/-- The call answers. -/
def ServiceCall.Answers (c : Context) (w : World) (call : ServiceCall) : Prop :=
  ∃ w', call.operation c w = (.ok (), w')

/-- Among the acts is one that answers and that names something in the store that it comes upon. -/
def World.Gave (names : Store → Act → Prop) (acts : List Act) : Prop :=
  ∃ before a later, acts = before ++ a :: later ∧ a.call.Answers a.context (World.after {} before) ∧
    names (World.after {} before).store a

/-- The acts have given a role to a user, when they were created or later. -/
def World.GaveRole (acts : List Act) (u : UserId) (r : RoleId) : Prop :=
  Gave (fun s a => a.call.NamesRole s u r) acts

/-- The acts have given a permission to a role, when it was created or later. -/
def World.GavePermission (acts : List Act) (r : RoleId) (p : PermissionId) : Prop :=
  Gave (fun s a => a.call.NamesPermission s r p) acts

namespace ServiceCall

variable {s : Store} {u : UserId} {r : RoleId} {p : PermissionId}

omit [Supply] in
/-- The things that names stand for are those that are looked up by one of the names. -/
lemma mem_map_iff_of_known {α : Type} {k : Kind} {key : α → Id k} {f : String → Store.Access (Option α)}
    {names : List String} {as : List α} (known : List.Forall₂ (fun n a => f n = .ok (some a)) names as)
    {i : Id k} : i ∈ as.map key ↔ ∃ n ∈ names, ∃ a, f n = .ok (some a) ∧ key a = i := by
  rw [List.mem_map]
  constructor
  · rintro ⟨a, mem, same⟩
    obtain ⟨n, named, found⟩ := exists_of_forall₂_right known mem
    exact ⟨n, named, a, found, same⟩
  · rintro ⟨n, named, a, found, same⟩
    obtain ⟨b, mem, other⟩ := exists_of_forall₂_right known.flip named
    cases found.symm.trans other
    exact ⟨a, mem, same⟩

lemma namesRole_createUser_iff {d : UserDraft} {held : List Role}
    (known : List.Forall₂ (fun n r => s.roleNamed n = .ok (some r)) d.roleNames held) :
    (createUser d).NamesRole s u r ↔ s.nextUserId = u ∧ r ∈ held.map (·.id) := by
  rw [mem_map_iff_of_known known]
  constructor
  · intro names
    cases names with
    | created named found => exact ⟨rfl, _, named, _, found, rfl⟩
  · rintro ⟨rfl, _, named, _, found, rfl⟩
    exact .created named found

lemma namesRole_assign_iff {username role : String} {x : User} {y : Role}
    (userKnown : s.userNamed username = .ok (some x)) (roleKnown : s.roleNamed role = .ok (some y)) :
    (assign username role).NamesRole s u r ↔ u = x.id ∧ r = y.id := by
  constructor
  · intro names
    cases names with
    | assigned userFound roleFound =>
      cases userKnown.symm.trans userFound
      cases roleKnown.symm.trans roleFound
      exact ⟨rfl, rfl⟩
  · rintro ⟨rfl, rfl⟩
    exact .assigned userKnown roleKnown

lemma namesPermission_createRole_iff {d : RoleDraft} {granted : List Permission}
    (known : List.Forall₂ (fun n p => s.permissionNamed n = .ok (some p)) d.permissionNames granted) :
    (createRole d).NamesPermission s r p ↔ s.nextRoleId = r ∧ p ∈ granted.map (·.id) := by
  rw [mem_map_iff_of_known known]
  constructor
  · intro names
    cases names with
    | created named found => exact ⟨rfl, _, named, _, found, rfl⟩
  · rintro ⟨rfl, _, named, _, found, rfl⟩
    exact .created named found

lemma namesPermission_grant_iff {role permission : String} {x : Role} {y : Permission}
    (roleKnown : s.roleNamed role = .ok (some x))
    (permissionKnown : s.permissionNamed permission = .ok (some y)) :
    (grant role permission).NamesPermission s r p ↔ r = x.id ∧ p = y.id := by
  constructor
  · intro names
    cases names with
    | granted roleFound permissionFound =>
      cases roleKnown.symm.trans roleFound
      cases permissionKnown.symm.trans permissionFound
      exact ⟨rfl, rfl⟩
  · rintro ⟨rfl, rfl⟩
    exact .granted roleKnown permissionKnown

end ServiceCall

/-! ### What calls do -/

variable {c : Context} {w w' : World} {u : UserId} {r : RoleId} {p : PermissionId}

namespace Directory.Edit

variable {s t : Store} {call : ServiceCall}

/-- An edit lets users hold the roles that its call names for them, and no other new ones. -/
lemma hasRole_iff (edit : Edit c s call t) : t.HasRole u r ↔ s.HasRole u r ∨ call.NamesRole s u r := by
  cases edit with
  | permissionCreated | roleCreated | granted | tokenIssued =>
    exact (or_iff_left fun names => nomatch names).symm
  | deactivated username =>
    rw [or_iff_left fun names => nomatch names]
    simp only [Store.HasRole, Store.deactivate, List.mem_map, exists_exists_and_eq_and]
    have same (x : User) : (if x.username = username then { x with isActive := false } else x).id = x.id ∧
        (if x.username = username then { x with isActive := false } else x).roleIds = x.roleIds := by
      split <;> exact ⟨rfl, rfl⟩
    simp only [same]
  | userCreated _ known =>
    rw [ServiceCall.namesRole_createUser_iff known]
    simp only [Store.HasRole, List.mem_append, List.mem_singleton, or_and_right, exists_or, exists_eq_left,
      Id.mem_ascending]
  | @assigned _ _ x _ userKnown roleKnown =>
    rw [ServiceCall.namesRole_assign_iff userKnown roleKnown]
    refine Store.exists_mem_map_insert (fun z => ?_) (fun z => ?_) ⟨x, (Store.mem_of_userNamed userKnown).1, rfl⟩
    · split <;> rfl
    · split <;> rfl

/-- An edit lets roles grant the permissions that its call names for them, and no other new ones. -/
lemma grants_iff (edit : Edit c s call t) : t.Grants r p ↔ s.Grants r p ∨ call.NamesPermission s r p := by
  cases edit with
  | permissionCreated | userCreated | assigned | deactivated | tokenIssued =>
    exact (or_iff_left fun names => nomatch names).symm
  | roleCreated _ known =>
    rw [ServiceCall.namesPermission_createRole_iff known]
    simp only [Store.Grants, List.mem_append, List.mem_singleton, or_and_right, exists_or, exists_eq_left,
      Id.mem_ascending]
  | @granted _ _ x _ roleKnown permissionKnown =>
    rw [ServiceCall.namesPermission_grant_iff roleKnown permissionKnown]
    refine Store.exists_mem_map_insert (fun z => ?_) (fun z => ?_) ⟨x, Store.mem_of_roleNamed roleKnown, rfl⟩
    · split <;> rfl
    · split <;> rfl

end Directory.Edit

/-- The call answers and makes its edit of the directory, or it does not and changes nothing. -/
def ServiceCall.EditsOrNot (c : Context) (w : World) (call : ServiceCall) : Prop :=
  (call.Answers c w ∧ ∃ s, Directory.Edit c w.store call s ∧ call.run c w = { w with store := s }) ∨
    (¬call.Answers c w ∧ call.run c w = w)

lemma Directory.Writes.editsOrNot {α : Type} {x : Operation α} (h : Writes x) {call : ServiceCall}
    (asks : call.operation = x.silent)
    (edits : ∀ a w', x c w = (.ok a, w') → ∃ s, Edit c w.store call s ∧ w' = { w with store := s }) :
    call.EditsOrNot c w := by
  rw [ServiceCall.EditsOrNot, ← ServiceCall.operation_world, ServiceCall.Answers, asks, silent_world]
  simp only [silent_eq_ok_iff]
  rcases run : x c w with ⟨e | a, w'⟩
  · exact .inr ⟨by simp, h.atomic c w e w' run⟩
  · exact .inl ⟨⟨w', a, rfl⟩, edits a w' run⟩

namespace ServiceCall

variable {call : ServiceCall}

lemma NamesRole.editsOrNot (h : call.NamesRole w.store u r) : call.EditsOrNot c w := by
  cases h with
  | created => exact (Directory.createUser_writes _).editsOrNot rfl fun _ _ => Directory.createUser_edit
  | assigned =>
    exact (Directory.assign_writes _ _).editsOrNot (silent_unit _).symm fun _ _ => Directory.assign_edit

lemma NamesPermission.editsOrNot (h : call.NamesPermission w.store r p) : call.EditsOrNot c w := by
  cases h with
  | created => exact (Directory.createRole_writes _).editsOrNot rfl fun _ _ => Directory.createRole_edit
  | granted =>
    exact (Directory.grant_writes _ _).editsOrNot (silent_unit _).symm fun _ _ => Directory.grant_edit

/-- What an edit adds if its call names it is added by the calls that name it and answer. -/
lemma run_iff (held : Store → Prop) (names : Store → ServiceCall → Prop) (hk : w.store.Keyed)
    (same : ∀ s t, s.SameDirectory t → (held t ↔ held s))
    (edit : ∀ t, Directory.Edit c w.store call t → (held t ↔ held w.store ∨ names w.store call))
    (named : names w.store call → call.EditsOrNot c w) :
    held (call.run c w).store ↔ held w.store ∨ (call.Answers c w ∧ names w.store call) := by
  by_cases asks : names w.store call
  · rcases named asks with ⟨answered, s, edited, changed⟩ | ⟨refused, unchanged⟩
    · rw [changed, edit s edited]
      simp [answered]
    · rw [unchanged]
      simp [refused]
  · have kept : held (call.run c w).store ↔ held w.store := by
      rcases call.run_directory hk (c := c) with keeps | unchanged | ⟨s, edited, changed⟩
      · exact same _ _ keeps
      · rw [unchanged]
      · rw [changed, edit s edited]
        simp [asks]
    simp [kept, asks]

end ServiceCall

/-! ### Runs -/

namespace World

variable {names : Store → Act → Prop}

lemma not_gave_nil : ¬Gave names [] := fun ⟨_, _, _, whole, _⟩ => by simp at whole

/-- What acts gave is what all but the last of them gave and what the last one names, if it answers. -/
@[simp] lemma gave_append_singleton {acts : List Act} {a : Act} :
    Gave names (acts ++ [a]) ↔ Gave names acts ∨
      (a.call.Answers a.context (World.after {} acts) ∧ names (World.after {} acts).store a) := by
  constructor
  · rintro ⟨before, b, later, whole, gives⟩
    induction later using List.reverseRecOn with
    | nil =>
      obtain ⟨rfl, same⟩ := List.append_inj' whole rfl
      cases same
      exact .inr gives
    | append_singleton later last _ =>
      rw [← List.cons_append, ← List.append_assoc] at whole
      obtain ⟨rfl, -⟩ := List.append_inj' whole rfl
      exact .inl ⟨before, b, later, rfl, gives⟩
  · rintro (⟨before, b, later, rfl, gives⟩ | gives)
    · exact ⟨before, b, later ++ [a], by simp, gives⟩
    · exact ⟨acts, a, [], rfl, gives⟩

/-- What is added by the calls that name it and answer is there after a run if the run gave it. -/
lemma after_iff_gave (held : Store → Prop) (empty : ¬held {})
    (step : ∀ (c : Context) (w : World) (call : ServiceCall), w.store.Keyed →
      (held (call.run c w).store ↔ held w.store ∨ (call.Answers c w ∧ names w.store ⟨c, call⟩)))
    (acts : List Act) : held (World.after {} acts).store ↔ Gave names acts := by
  -- The induction takes acts off the end, since what an act names depends on the acts before it.
  induction acts using List.reverseRecOn with
  | nil => exact iff_of_false empty not_gave_nil
  | append_singleton acts a ih =>
    rw [after_append, gave_append_singleton, ← ih]
    exact step a.context _ a.call (keyed_after acts)

/-- After a run users hold the roles that were given to them. -/
lemma hasRole_after (acts : List Act) : (World.after {} acts).store.HasRole u r ↔ GaveRole acts u r := by
  refine after_iff_gave (·.HasRole u r) (by simp [Store.HasRole]) (fun c w call hk => ?_) acts
  refine call.run_iff (·.HasRole u r) (fun s call => call.NamesRole s u r) hk (fun s t same => ?_)
    (fun t edit => edit.hasRole_iff) fun names => names.editsOrNot
  simp only [Store.HasRole, same.users]

/-- After a run roles grant the permissions that were given to them. -/
lemma grants_after (acts : List Act) : (World.after {} acts).store.Grants r p ↔ GavePermission acts r p := by
  refine after_iff_gave (·.Grants r p) (by simp [Store.Grants]) (fun c w call hk => ?_) acts
  refine call.run_iff (·.Grants r p) (fun s call => call.NamesPermission s r p) hk (fun s t same => ?_)
    (fun t edit => edit.grants_iff) fun names => names.editsOrNot
  simp only [Store.Grants, same.roles]

end World

end Approval
