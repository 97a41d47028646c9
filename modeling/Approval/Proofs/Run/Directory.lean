import Approval.Proofs.Run.Change
import Approval.Proofs.Service.Actor

/-!
# How the directory changes

Operations on the directory that answer make one edit each, and no other call changes the directory. From
this follows what holds of users and credentials after every run: no two users share an identifier and no
two credentials a digest.
-/

namespace Approval

open Work Operation

/-! ### Edits -/

namespace Store

@[simp] lemma addPermission_eq_ok_iff {s t : Store} {p : Permission} :
    s.addPermission p = .ok t ↔
      (∀ x ∈ s.permissions, x.name ≠ p.name) ∧ t = { s with permissions := s.permissions ++ [p] } := by
  simp [addPermission, eq_comm (a := t)]

@[simp] lemma addRole_eq_ok_iff {s t : Store} {r : Role} :
    s.addRole r = .ok t ↔
      (∀ x ∈ s.roles, x.name ≠ r.name) ∧
        t = { s with roles := s.roles ++ [{ r with permissionIds := Id.ascending r.permissionIds }] } := by
  simp [addRole, eq_comm (a := t)]

@[simp] lemma addUser_eq_ok_iff {s t : Store} {u : User} :
    s.addUser u = .ok t ↔
      (∀ x ∈ s.users, x.username ≠ u.username) ∧
        t = { s with users := s.users ++ [{ u with roleIds := Id.ascending u.roleIds }] } := by
  simp [addUser, eq_comm (a := t)]

@[simp] lemma addCredential_eq_ok_iff {s t : Store} {c : Credential} :
    s.addCredential c = .ok t ↔
      (∀ x ∈ s.credentials, x.digest ≠ c.digest) ∧ t = { s with credentials := s.credentials ++ [c] } := by
  simp [addCredential, eq_comm (a := t)]

end Store

namespace Directory

variable [Supply] in
/-- What a call that changes the directory does to the store. -/
inductive Edit (c : Context) (s : Store) : ServiceCall → Store → Prop
  | permissionCreated {d : PermissionDraft} {name : String}
      (named : requireName .permission d.name = .ok name) (new : ∀ p ∈ s.permissions, p.name ≠ name) :
      Edit c s (.createPermission d)
        { s with
          permissions := s.permissions ++
            [{ id := s.nextPermissionId, name, resource := Text.trim d.resource,
               action := Text.trim d.action, description := d.description, createdAt := c.now }] }
  | roleCreated {d : RoleDraft} {name : String} {granted : List Permission}
      (named : requireName .role d.name = .ok name)
      (known : List.Forall₂ (fun n p => s.permissionNamed n = .ok (some p)) d.permissionNames granted)
      (new : ∀ r ∈ s.roles, r.name ≠ name) :
      Edit c s (.createRole d)
        { s with
          roles := s.roles ++
            [{ id := s.nextRoleId, name, description := d.description,
               permissionIds := Id.ascending (granted.map (·.id)), createdAt := c.now }] }
  | userCreated {d : UserDraft} {username : String} {held : List Role}
      (named : requireName .user d.username = .ok username)
      (known : List.Forall₂ (fun n r => s.roleNamed n = .ok (some r)) d.roleNames held)
      (new : ∀ u ∈ s.users, u.username ≠ username) :
      Edit c s (.createUser d)
        { s with
          users := s.users ++
            [{ id := s.nextUserId, username, fullName := fullName d.fullName username, isActive := true,
               roleIds := Id.ascending (held.map (·.id)), createdAt := c.now }] }
  | granted {role permission : String} {r : Role} {p : Permission}
      (roleKnown : s.roleNamed role = .ok (some r))
      (permissionKnown : s.permissionNamed permission = .ok (some p)) :
      Edit c s (.grant role permission) (s.grant r.id p.id)
  | assigned {username role : String} {u : User} {r : Role} (userKnown : s.userNamed username = .ok (some u))
      (roleKnown : s.roleNamed role = .ok (some r)) : Edit c s (.assign username role) (s.assign u.id r.id)
  | deactivated (username : String) : Edit c s (.deactivate username) (s.deactivate username)
  | tokenIssued {username label : String} {u : User} (known : s.userNamed username = .ok (some u))
      (new : ∀ x ∈ s.credentials, x.digest ≠ Digest.ofText (tokenText (c.drawn (s.credentials.length + 1)))) :
      Edit c s (.issueToken username label)
        { s with
          credentials := s.credentials ++
            [{ digest := Digest.ofText (tokenText (c.drawn (s.credentials.length + 1))), owner := u.id, label }] }

end Directory

/-! ### Calls -/

/-- The two stores have the same permissions, roles, users and credentials. -/
structure Store.SameDirectory (s t : Store) : Prop where
  permissions : t.permissions = s.permissions
  roles : t.roles = s.roles
  users : t.users = s.users
  credentials : t.credentials = s.credentials

lemma Store.SameDirectory.refl (s : Store) : s.SameDirectory s := ⟨rfl, rfl, rfl, rfl⟩

lemma Store.SameDirectory.trans {s t u : Store} (h : s.SameDirectory t) (h' : t.SameDirectory u) :
    s.SameDirectory u :=
  ⟨h'.permissions.trans h.permissions, h'.roles.trans h.roles, h'.users.trans h.users,
    h'.credentials.trans h.credentials⟩

variable [Supply] {c : Context} {w w' : World}

namespace Directory

/-- The call leaves the world as it is or makes an edit. -/
def Edits (c : Context) (w : World) (call : ServiceCall) (w' : World) : Prop :=
  w' = w ∨ ∃ s, Edit c w.store call s ∧ w' = { w with store := s }

/-- An operation that fails does nothing, and one that answers makes its edit. -/
lemma Writes.edits {α : Type} {x : Operation α} (h : Writes x) {call : ServiceCall}
    (answers : ∀ a w', x c w = (.ok a, w') → ∃ s, Edit c w.store call s ∧ w' = { w with store := s }) :
    Edits c w call (x c w).2 := by
  rcases run : x c w with ⟨e | a, w'⟩
  · exact .inl (h.atomic c w e w' run)
  · exact .inr (answers a w' run)

/-- A permission is created under a name of one word, if it is a new one. -/
lemma createPermission_eq_ok {d : PermissionDraft} {p : Permission}
    (answers : createPermission d c w = (.ok p, w')) :
    requireName .permission d.name = .ok p.name ∧ (∀ x ∈ w.store.permissions, x.name ≠ p.name) ∧
      p = { id := w.store.nextPermissionId, name := p.name, resource := Text.trim d.resource,
            action := Text.trim d.action, description := d.description, createdAt := c.now } ∧
      w' = { w with store := { w.store with permissions := w.store.permissions ++ [p] } } := by
  simp only [createPermission, bind_eq_ok_iff, ofResult_run, now_run, ask_run, change, write_eq_ok_iff,
    Store.addPermission_eq_ok_iff, pure_run, Prod.mk.injEq, Except.ok.injEq] at answers
  obtain ⟨name, _, ⟨named, rfl⟩, _, _, ⟨rfl, rfl⟩, _, _, ⟨rfl, rfl⟩, _, _, ⟨_, ⟨new, rfl⟩, rfl⟩, rfl, rfl⟩ :=
    answers
  exact ⟨named, new, rfl, rfl⟩

lemma createPermission_edits (d : PermissionDraft) :
    Edits c w (.createPermission d) (createPermission d c w).2 := by
  refine (createPermission_writes d).edits fun p w' answers => ?_
  obtain ⟨named, new, made, rfl⟩ := createPermission_eq_ok answers
  rw [made]
  exact ⟨_, .permissionCreated named new, rfl⟩

omit [Supply] in
/-- Things that are looked up by name, one after the other. -/
lemma mapM_readOr_eq_ok {α : Type} {missing : String → Missing} {f : String → Store → Store.Access (Option α)}
    {names : List String} {as : List α}
    (h : (names.mapM fun n => readOr (missing n) (f n)) c w = (.ok as, w')) :
    List.Forall₂ (fun n a => f n w.store = .ok (some a)) names as ∧ w' = w := by
  induction names generalizing as with
  | nil =>
    simp only [List.mapM_nil, pure_run, Prod.mk.injEq, Except.ok.injEq] at h
    obtain ⟨rfl, rfl⟩ := h
    exact ⟨.nil, rfl⟩
  | cons n names ih =>
    simp only [List.mapM_cons, bind_eq_ok_iff, readOr_eq_ok_iff, pure_run, Prod.mk.injEq,
      Except.ok.injEq] at h
    obtain ⟨a, _, ⟨found, rfl⟩, as', v, rest, rfl, rfl⟩ := h
    obtain ⟨others, rfl⟩ := ih rest
    exact ⟨.cons found others, rfl⟩

/-- A role is created under a name of one word, if it is a new one, with permissions that are known. -/
lemma createRole_eq_ok {d : RoleDraft} {r : Role} (answers : createRole d c w = (.ok r, w')) :
    ∃ granted, requireName .role d.name = .ok r.name ∧
      List.Forall₂ (fun n p => w.store.permissionNamed n = .ok (some p)) d.permissionNames granted ∧
      (∀ x ∈ w.store.roles, x.name ≠ r.name) ∧
      r = { id := w.store.nextRoleId, name := r.name, description := d.description,
            permissionIds := granted.map (·.id), createdAt := c.now } ∧
      w' = { w with store := { w.store with
        roles := w.store.roles ++ [{ r with permissionIds := Id.ascending r.permissionIds }] } } := by
  simp only [createRole, bind_eq_ok_iff, ofResult_run, now_run, ask_run, change, write_eq_ok_iff,
    Store.addRole_eq_ok_iff, pure_run, Prod.mk.injEq, Except.ok.injEq] at answers
  obtain ⟨name, _, ⟨named, rfl⟩, granted, v, looked, _, _, ⟨rfl, rfl⟩, _, _, ⟨rfl, rfl⟩, _, _,
    ⟨_, ⟨new, rfl⟩, rfl⟩, rfl, rfl⟩ := answers
  obtain ⟨known, rfl⟩ := mapM_readOr_eq_ok (f := fun n s => s.permissionNamed n) looked
  exact ⟨granted, named, known, new, rfl, rfl⟩

lemma createRole_edit {d : RoleDraft} {r : Role} (answers : createRole d c w = (.ok r, w')) :
    ∃ s, Edit c w.store (.createRole d) s ∧ w' = { w with store := s } := by
  obtain ⟨granted, named, known, new, made, rfl⟩ := createRole_eq_ok answers
  rw [made]
  exact ⟨_, .roleCreated named known new, rfl⟩

lemma createRole_edits (d : RoleDraft) : Edits c w (.createRole d) (createRole d c w).2 :=
  (createRole_writes d).edits fun _ _ => createRole_edit

/-- A user is created under a name of one word, if it is a new one, with roles that are known. -/
lemma createUser_eq_ok {d : UserDraft} {u : User} (answers : createUser d c w = (.ok u, w')) :
    ∃ held, requireName .user d.username = .ok u.username ∧
      List.Forall₂ (fun n r => w.store.roleNamed n = .ok (some r)) d.roleNames held ∧
      (∀ x ∈ w.store.users, x.username ≠ u.username) ∧
      u = { id := w.store.nextUserId, username := u.username, fullName := fullName d.fullName u.username,
            isActive := true, roleIds := held.map (·.id), createdAt := c.now } ∧
      w' = { w with store := { w.store with
        users := w.store.users ++ [{ u with roleIds := Id.ascending u.roleIds }] } } := by
  simp only [createUser, bind_eq_ok_iff, ofResult_run, now_run, ask_run, change, write_eq_ok_iff,
    Store.addUser_eq_ok_iff, pure_run, Prod.mk.injEq, Except.ok.injEq] at answers
  obtain ⟨name, _, ⟨named, rfl⟩, held, v, looked, _, _, ⟨rfl, rfl⟩, _, _, ⟨rfl, rfl⟩, _, _,
    ⟨_, ⟨new, rfl⟩, rfl⟩, rfl, rfl⟩ := answers
  obtain ⟨known, rfl⟩ := mapM_readOr_eq_ok (f := fun n s => s.roleNamed n) looked
  exact ⟨held, named, known, new, rfl, rfl⟩

lemma createUser_edit {d : UserDraft} {u : User} (answers : createUser d c w = (.ok u, w')) :
    ∃ s, Edit c w.store (.createUser d) s ∧ w' = { w with store := s } := by
  obtain ⟨held, named, known, new, made, rfl⟩ := createUser_eq_ok answers
  rw [made]
  exact ⟨_, .userCreated named known new, rfl⟩

lemma createUser_edits (d : UserDraft) : Edits c w (.createUser d) (createUser d c w).2 :=
  (createUser_writes d).edits fun _ _ => createUser_edit

lemma grant_edit {role permission : String} {a : Unit} (answers : grant role permission c w = (.ok a, w')) :
    ∃ s, Edit c w.store (.grant role permission) s ∧ w' = { w with store := s } := by
  simp only [grant, roleNamed, permissionNamed, bind_eq_ok_iff, readOr_eq_ok_iff, change, write_eq_ok_iff,
    Except.ok.injEq] at answers
  obtain ⟨r, _, ⟨roleKnown, rfl⟩, p, _, ⟨permissionKnown, rfl⟩, _, rfl, rfl⟩ := answers
  exact ⟨_, .granted roleKnown permissionKnown, rfl⟩

lemma grant_edits (role permission : String) :
    Edits c w (.grant role permission) (grant role permission c w).2 :=
  (grant_writes role permission).edits fun _ _ => grant_edit

lemma assign_edit {username role : String} {a : Unit} (answers : assign username role c w = (.ok a, w')) :
    ∃ s, Edit c w.store (.assign username role) s ∧ w' = { w with store := s } := by
  simp only [assign, userNamed, roleNamed, bind_eq_ok_iff, readOr_eq_ok_iff, change, write_eq_ok_iff,
    Except.ok.injEq] at answers
  obtain ⟨u, _, ⟨userKnown, rfl⟩, r, _, ⟨roleKnown, rfl⟩, _, rfl, rfl⟩ := answers
  exact ⟨_, .assigned userKnown roleKnown, rfl⟩

lemma assign_edits (username role : String) :
    Edits c w (.assign username role) (assign username role c w).2 :=
  (assign_writes username role).edits fun _ _ => assign_edit

lemma deactivate_edits (username : String) :
    Edits c w (.deactivate username) (deactivate username c w).2 := by
  refine (deactivate_writes username).edits fun _ w' answers => ?_
  simp only [deactivate, change, write_eq_ok_iff, Except.ok.injEq] at answers
  obtain ⟨_, rfl, rfl⟩ := answers
  exact ⟨_, .deactivated username, rfl⟩

omit [Supply] in
/-- A token is issued to a stored user, made of what was drawn, if its digest is a new one. -/
lemma issueToken_eq_ok {username label token : String} (answers : issueToken username label c w = (.ok token, w')) :
    ∃ u, w.store.userNamed username = .ok (some u) ∧
      token = tokenText (c.drawn (w.store.credentials.length + 1)) ∧ (∀ x ∈ w.store.credentials, x.digest ≠ Digest.ofText token) ∧
      w' = { w with store := { w.store with
        credentials := w.store.credentials ++ [{ digest := Digest.ofText token, owner := u.id, label }] } } := by
  simp only [issueToken, userNamed, bind_eq_ok_iff, readOr_eq_ok_iff, context_run, ask_run, change,
    write_eq_ok_iff, Store.addCredential_eq_ok_iff, pure_run, Prod.mk.injEq, Except.ok.injEq] at answers
  obtain ⟨u, _, ⟨known, rfl⟩, _, _, ⟨rfl, rfl⟩, _, _, ⟨rfl, rfl⟩, _, _, ⟨_, ⟨new, rfl⟩, rfl⟩, rfl, rfl⟩ := answers
  exact ⟨u, known, rfl, new, rfl⟩

lemma issueToken_edit {username label token : String} (answers : issueToken username label c w = (.ok token, w')) :
    ∃ s, Edit c w.store (.issueToken username label) s ∧ w' = { w with store := s } := by
  obtain ⟨u, known, rfl, new, rfl⟩ := issueToken_eq_ok answers
  exact ⟨_, .tokenIssued known new, rfl⟩

lemma issueToken_edits (username label : String) :
    Edits c w (.issueToken username label) (issueToken username label c w).2 :=
  (issueToken_writes username label).edits fun _ _ => issueToken_edit

end Directory

namespace Store.SameDirectory

omit [Supply] in
/-- Work that changes nothing when it fails keeps the directory if it does so when it answers. -/
lemma of_atomic {α : Type} {x : Operation α} (h : x.Atomic)
    (answers : ∀ a w', x c w = (.ok a, w') → w.store.SameDirectory w'.store) :
    w.store.SameDirectory (x c w).2.store := by
  rcases run : x c w with ⟨e | a, w'⟩
  · obtain rfl := h c w e w' run
    exact .refl _
  · exact answers a w' run

lemma of_breached (h : Relation.ReflTransGen (Sweep.Breached c) w w') :
    w.store.SameDirectory w'.store := by
  induction h with
  | refl => exact .refl _
  | tail _ breached ih =>
    cases breached with
    | intro => exact ih.trans ⟨rfl, rfl, rfl, rfl⟩

lemma of_createWorkflow (d : Draft) (createdBy : Option UserId) :
    w.store.SameDirectory (Workflows.create d createdBy c w).2.store := by
  refine of_atomic (Workflows.create_atomic d createdBy) fun wf w' answers => ?_
  obtain ⟨-, -, -, -, rfl⟩ := Workflows.create_eq_ok_iff.mp answers
  exact ⟨rfl, rfl, rfl, rfl⟩

lemma of_switchWorkflow (id : WorkflowId) (isActive : Bool) (actor : Option UserId) :
    w.store.SameDirectory (Workflows.setActive id isActive actor c w).2.store := by
  rcases Workflows.setActive_cases id isActive actor (c := c) (w := w) with same | ⟨-, -, changed⟩
  · rw [same]
    exact .refl _
  · rw [changed]
    exact ⟨rfl, rfl, rfl, rfl⟩

lemma of_removeWorkflow (id : WorkflowId) (actor : Option UserId) :
    w.store.SameDirectory (Workflows.remove id actor c w).2.store := by
  refine of_atomic (Workflows.remove_atomic id actor) fun _ w' answers => ?_
  obtain ⟨-, -, -, rfl⟩ := Workflows.remove_eq_ok_iff.mp answers
  exact ⟨rfl, rfl, rfl, rfl⟩

lemma of_start (id : WorkflowId) (requester : UserId) (payload : Json) :
    w.store.SameDirectory (Requests.start id requester payload c w).2.store := by
  refine of_atomic (Requests.start_atomic id requester payload) fun r w' answers => ?_
  obtain ⟨wf, -, -, entered⟩ := Requests.start_eq_ok_iff.mp answers
  obtain ⟨-, -, -, -, first, -, rfl⟩ := Requests.enter_eq_ok_iff.mp entered
  exact ⟨rfl, rfl, rfl, rfl⟩

lemma of_process (hk : w.store.Keyed) (id : RequestId) (actor : Actor) (d : Decision) :
    w.store.SameDirectory (Requests.process id actor d c w).2.store := by
  refine of_atomic (Requests.process_atomic id actor d) fun r w' answers => ?_
  obtain ⟨-, -, -, -, -, -, -, -, -, rfl⟩ := (Requests.process_eq_ok_iff hk).mp answers
  exact ⟨rfl, rfl, rfl, rfl⟩

end Store.SameDirectory

/-- A call makes an edit of the directory or keeps it. -/
theorem ServiceCall.run_directory (hk : w.store.Keyed) (call : ServiceCall) :
    w.store.SameDirectory (call.run c w).store ∨ Directory.Edits c w call (call.run c w) := by
  cases call with
  | createPermission d => exact .inr (Directory.createPermission_edits d)
  | createRole d => exact .inr (Directory.createRole_edits d)
  | createUser d => exact .inr (Directory.createUser_edits d)
  | grant role permission => exact .inr (Directory.grant_edits role permission)
  | assign username role => exact .inr (Directory.assign_edits username role)
  | deactivate username => exact .inr (Directory.deactivate_edits username)
  | issueToken username label => exact .inr (Directory.issueToken_edits username label)
  | createWorkflow d createdBy =>
    rw [run]
    exact .inl (.of_createWorkflow d createdBy)
  | switchWorkflow id isActive actor => exact .inl (.of_switchWorkflow id isActive actor)
  | removeWorkflow id actor => exact .inl (.of_removeWorkflow id actor)
  | start id requester payload => exact .inl (.of_start id requester payload)
  | process id actor d => exact .inl (.of_process hk id actor d)
  | sweep => exact .inl (.of_breached (Sweep.once_spec hk))

/-! ### Runs -/

/-- What holds of the empty store and depends on the directory alone holds after every run if every edit
keeps it. -/
theorem World.directory_after {P : Store → Prop} (empty : P {})
    (same : ∀ s t, s.SameDirectory t → P s → P t)
    (edit : ∀ c s call t, Directory.Edit c s call t → P s → P t) (acts : List Act) :
    P (World.after {} acts).store := by
  have run (w : World) (hk : w.store.Keyed) (hw : P w.store) (acts : List Act) : P (w.after acts).store := by
    induction acts generalizing w with
    | nil => exact hw
    | cons a acts ih =>
      have hk' := (preserved_of_changes (P := fun _ => True) hk trivial (fun _ _ _ _ _ => trivial)
        (a.call.run_changes hk (c := a.context))).1
      refine ih (a.run w) hk' ?_
      rcases a.call.run_directory hk (c := a.context) with keeps | unchanged | ⟨s, edits, changed⟩
      · exact same _ _ keeps hw
      · rwa [Act.run, unchanged]
      · rw [Act.run, changed]
        exact edit _ _ _ _ edits hw
  exact run {} keyed_empty empty acts

/-- Users are numbered from 1 in the order in which they were created, and no two credentials have the same
digest. -/
structure Store.Enrolled (s : Store) : Prop where
  users : ∀ (n : Nat) (id : UserId), (s.users.map (·.id))[n]? = some id → id = Supply.id .user (n + 1)
  digests : (s.credentials.map (·.digest)).Nodup

namespace Store.Enrolled

variable {s t : Store}

lemma of_same_users (h : s.Enrolled) (users : t.users.map (·.id) = s.users.map (·.id))
    (credentials : t.credentials = s.credentials) : t.Enrolled where
  users := by rw [users]; exact h.users
  digests := by rw [credentials]; exact h.digests

/-- No two users have the same identifier. -/
lemma eq_of_id (h : s.Enrolled) {u v : User} (hu : u ∈ s.users) (hv : v ∈ s.users) (same : u.id = v.id) :
    u = v := by
  obtain ⟨m, atM⟩ := List.mem_iff_getElem?.mp hu
  obtain ⟨n, atN⟩ := List.mem_iff_getElem?.mp hv
  have numberM := h.users m u.id (by rw [List.getElem?_map, atM]; rfl)
  have numberN := h.users n v.id (by rw [List.getElem?_map, atN]; rfl)
  have := Supply.id_injective _ (numberM.symm.trans (same.trans numberN))
  obtain rfl : m = n := by omega
  exact Option.some.inj (atM.symm.trans atN)

lemma edit (h : s.Enrolled) {c : Context} {call : ServiceCall} (edits : Directory.Edit c s call t) :
    t.Enrolled := by
  cases edits with
  | permissionCreated | roleCreated | granted => exact ⟨h.users, h.digests⟩
  | userCreated =>
    refine ⟨?_, h.digests⟩
    intro n id found
    rw [List.map_append, List.getElem?_append] at found
    split_ifs at found with below
    · exact h.users n id found
    · obtain ⟨inside, rfl⟩ := List.getElem?_eq_some_iff.mp found
      have last : n = s.users.length := by
        rw [List.map_singleton, List.length_singleton] at inside
        rw [List.length_map] at inside below
        omega
      simp [last, nextUserId]
  | assigned | deactivated =>
    refine h.of_same_users ?_ rfl
    simp only [assign, deactivate, List.map_map]
    apply List.map_congr_left
    intro u _
    simp only [Function.comp_apply]
    split <;> rfl
  | tokenIssued _ new =>
    refine ⟨h.users, ?_⟩
    rw [List.map_append, List.nodup_append]
    exact ⟨h.digests, List.nodup_singleton _, by simpa using new⟩

end Store.Enrolled

theorem World.enrolled_after (acts : List Act) : (World.after {} acts).store.Enrolled :=
  directory_after ⟨by simp, List.nodup_nil⟩
    (fun _ _ same h => h.of_same_users (by rw [same.users]) same.credentials) (fun _ _ _ _ edits h => h.edit edits)
    acts

end Approval
