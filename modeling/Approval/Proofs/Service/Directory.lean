import Approval.Proofs.Work
import Approval.Service.Directory
import Mathlib.Tactic.SplitIfs

/-!
# What the directory leaves alone

Operations on the directory read first and then make one write, which changes permissions, roles, users and
credentials only.
-/

namespace Approval.Directory

open Work Operation

/-- The second store is the first one but for permissions, roles, users and credentials. -/
def OnlyStore (s t : Store) : Prop :=
  t = { s with
    permissions := t.permissions
    roles := t.roles
    users := t.users
    credentials := t.credentials }

/-- The second world is the first one but for permissions, roles, users and credentials. -/
def Only (_ : Context) (w w' : World) : Prop := OnlyStore w.store w'.store ∧ w'.events = w.events

/-- The operation is refused and has changed nothing, or it makes one write, to permissions, roles, users
or credentials, and answers. -/
def Writes {α : Type} (x : Operation α) : Prop :=
  ∀ c w, (∃ e, x c w = (.error e, w)) ∨
    ∃ a s, OnlyStore w.store s ∧ x c w = (.ok a, { w with store := s })

namespace Writes

variable {α β : Type} {x : Operation α} {f : α → Operation β}

lemma within (h : Writes x) : x.Within Only := by
  intro c w
  rcases h c w with ⟨e, refused⟩ | ⟨a, s, only, answered⟩
  · rw [refused]
    exact ⟨rfl, rfl⟩
  · rw [answered]
    exact ⟨only, rfl⟩

lemma atomic (h : Writes x) : x.Atomic := by
  intro c w e v fails
  rcases h c w with ⟨e', refused⟩ | ⟨a, s, -, answered⟩
  · rw [refused] at fails
    exact (Prod.mk.inj fails).2.symm
  · rw [answered] at fails
    exact absurd (Prod.mk.inj fails).1 (by simp)

/-- What is read before the write leaves it the only one. -/
lemma of_inert_bind (hx : x.Inert) (hf : ∀ a, Writes (f a)) : Writes (x >>= f) := by
  intro c w
  have same := hx c w
  rcases first : x c w with ⟨e | a, v⟩
  all_goals
    rw [first] at same
    obtain rfl : v = w := same
  · exact .inl ⟨e, bind_of_error first⟩
  · rw [bind_of_ok first]
    exact hf a c v

lemma change {g : Store → Store.Access Store} (h : ∀ s t, g s = .ok t → OnlyStore s t) :
    Writes (change g) := by
  intro c w
  cases written : g w.store with
  | error e => exact .inl ⟨.ofStore e, write_eq_error_iff.mpr ⟨e, written, rfl, rfl⟩⟩
  | ok s => exact .inr ⟨(), s, h _ _ written, write_eq_ok_iff.mpr ⟨s, written, rfl⟩⟩

lemma bind_pure (hx : Writes x) (g : α → β) : Writes (x >>= fun a => pure (g a)) := by
  intro c w
  rcases hx c w with ⟨e, refused⟩ | ⟨a, s, only, answered⟩
  · exact .inl ⟨e, bind_of_error refused⟩
  · exact .inr ⟨g a, s, only, bind_of_ok answered⟩

end Writes

/-! ### Operations -/

variable [Supply] in
lemma createPermission_writes (d : PermissionDraft) : Writes (createPermission d) := by
  apply Writes.of_inert_bind (.ofResult _)
  intro name
  apply Writes.of_inert_bind .now
  intro now
  apply Writes.of_inert_bind (ask_inert _)
  intro id
  refine Writes.bind_pure (.change ?_) fun _ => _
  intro s t h
  unfold Store.addPermission at h
  split_ifs at h
  cases h
  rfl

lemma permissionNamed_inert (name : String) : (permissionNamed name).Inert := readOr_inert _ _

lemma roleNamed_inert (name : String) : (roleNamed name).Inert := readOr_inert _ _

lemma userNamed_inert (name : String) : (userNamed name).Inert := readOr_inert _ _

variable [Supply] in
lemma createRole_writes (d : RoleDraft) : Writes (createRole d) := by
  apply Writes.of_inert_bind (.ofResult _)
  intro name
  apply Writes.of_inert_bind (.mapM permissionNamed_inert _)
  intro permissions
  apply Writes.of_inert_bind .now
  intro now
  apply Writes.of_inert_bind (ask_inert _)
  intro id
  refine Writes.bind_pure (.change ?_) fun _ => _
  intro s t h
  unfold Store.addRole at h
  split_ifs at h
  cases h
  rfl

variable [Supply] in
lemma createUser_writes (d : UserDraft) : Writes (createUser d) := by
  apply Writes.of_inert_bind (.ofResult _)
  intro name
  apply Writes.of_inert_bind (.mapM roleNamed_inert _)
  intro roles
  apply Writes.of_inert_bind .now
  intro now
  apply Writes.of_inert_bind (ask_inert _)
  intro id
  refine Writes.bind_pure (.change ?_) fun _ => _
  intro s t h
  unfold Store.addUser at h
  split_ifs at h
  cases h
  rfl

lemma grant_writes (role permission : String) : Writes (grant role permission) := by
  apply Writes.of_inert_bind (roleNamed_inert _)
  intro r
  apply Writes.of_inert_bind (permissionNamed_inert _)
  intro p
  apply Writes.change
  intro s t h
  cases h
  rfl

lemma assign_writes (username role : String) : Writes (assign username role) := by
  apply Writes.of_inert_bind (userNamed_inert _)
  intro u
  apply Writes.of_inert_bind (roleNamed_inert _)
  intro r
  apply Writes.change
  intro s t h
  cases h
  rfl

lemma deactivate_writes (username : String) : Writes (deactivate username) := by
  apply Writes.change
  intro s t h
  cases h
  rfl

lemma issueToken_writes (username label : String) : Writes (issueToken username label) := by
  apply Writes.of_inert_bind (userNamed_inert _)
  intro u
  apply Writes.of_inert_bind .context
  intro c
  apply Writes.of_inert_bind (ask_inert _)
  intro token
  refine Writes.bind_pure (.change ?_) fun _ => _
  intro s t h
  unfold Store.addCredential at h
  split_ifs at h
  cases h
  rfl

end Approval.Directory
