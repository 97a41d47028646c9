import Approval.Proofs.Run.WellFormed
import Mathlib.Data.Set.Function

/-!
# Tokens after a run

A token stands for the user to whom it was issued, while that user is active, and the user acts with what they
hold at that moment. Every other text is refused. Tokens may be made of any identifiers that are drawn, since the
store takes no second credential with the same digest. Only digests of tokens are stored, so this rests on digests
telling the presented text and the issued tokens apart.
-/

namespace Approval

open Work Operation

variable {c : Context} {w : World} {acts : List Act} {text token digest : String} {u : UserId}

/-! ### Tokens that were issued -/

section Supplied

variable [Supply]

/-- The acts have issued a token to a user: one of them asks for one under the name that the user has, and is
answered with it. -/
inductive World.Issued : List Act → String → UserId → Prop
  | intro {before later : List Act} {c : Context} {username label token : String} {x : User} {w' : World}
      (known : (World.after {} before).store.userNamed username = .ok (some x))
      (answered : Directory.issueToken username label c (World.after {} before) = (.ok token, w')) :
      Issued (before ++ ⟨c, .issueToken username label⟩ :: later) token x.id

/-- The tokens that the acts have issued. -/
def World.tokens (acts : List Act) : Set String := { token | ∃ u, Issued acts token u }

namespace Store

/-- A credential with the digest belongs to the user. -/
def Assigns (s : Store) (digest : String) (u : UserId) : Prop :=
  ∃ k ∈ s.credentials, k.digest = digest ∧ k.owner = u

/-- Each credential belongs to a user whose row reads back. -/
def Entrusted (s : Store) : Prop := ∀ k ∈ s.credentials, ∃ x ∈ s.users, x.id = k.owner ∧ x.readBack? = some x

end Store

/-- The call asks for a token with the digest, made of what the context draws, in the name of a user. -/
inductive ServiceCall.NamesOwner (c : Context) (s : Store) : ServiceCall → String → UserId → Prop
  | intro {username label : String} {x : User} (known : s.userNamed username = .ok (some x)) :
      NamesOwner c s (.issueToken username label)
        (Digest.ofText (Directory.tokenText (c.drawn (s.credentials.length + 1)))) x.id

namespace Directory

omit [Supply] in
@[simp] lemma isEmpty_tokenText (drawn : Uuid × Uuid) : (tokenText drawn).isEmpty = false := by
  have nonempty : (tokenText drawn).toList ≠ [] := by
    unfold tokenText
    rw [String.toList_ofList]
    exact List.append_ne_nil_of_left_ne_nil (List.append_ne_nil_of_left_ne_nil (by decide +kernel) _) _
  rwa [String.isEmpty_eq_false_iff, ne_eq, ← String.toList_eq_nil_iff]

namespace Edit

variable {s t : Store} {call : ServiceCall}

/-- An edit adds the credential that its call names, and no other one. -/
lemma assigns_iff (edit : Edit c s call t) :
    t.Assigns digest u ↔ s.Assigns digest u ∨ call.NamesOwner c s digest u := by
  cases edit with
  | permissionCreated | roleCreated | userCreated | granted | assigned | deactivated =>
    exact (or_iff_left fun names => nomatch names).symm
  | @tokenIssued username label x known new =>
    have names : (ServiceCall.issueToken username label).NamesOwner c s digest u ↔
        Digest.ofText (tokenText (c.drawn (s.credentials.length + 1))) = digest ∧ x.id = u := by
      constructor
      · intro names
        cases names with
        | intro found =>
          cases known.symm.trans found
          exact ⟨rfl, rfl⟩
      · rintro ⟨rfl, rfl⟩
        exact .intro known
    rw [names]
    simp only [Store.Assigns, List.mem_append, List.mem_singleton, or_and_right, exists_or, exists_eq_left]

/-- Users keep their rows but for what they hold and whether they are active. -/
lemma entrusted (h : s.Entrusted) (edit : Edit c s call t) : t.Entrusted := by
  have owners {f : User → User} (id : ∀ x, (f x).id = x.id)
      (reads : ∀ x, x.readBack? = some x → (f x).readBack? = some (f x)) :
      ∀ k ∈ s.credentials, ∃ x ∈ s.users.map f, x.id = k.owner ∧ x.readBack? = some x := by
    intro k stored
    obtain ⟨x, mem, owns, read⟩ := h k stored
    exact ⟨f x, List.mem_map_of_mem mem, (id x).trans owns, reads x read⟩
  cases edit with
  | permissionCreated | roleCreated | granted => exact h
  | userCreated =>
    intro k stored
    obtain ⟨x, mem, owns⟩ := h k stored
    exact ⟨x, List.mem_append_left _ mem, owns⟩
  | assigned | deactivated =>
    refine owners (fun x => by split <;> rfl) fun x read => ?_
    simp only [User.readBack?, Option.bind_eq_bind, Option.bind_eq_some_iff, Option.some.injEq] at read ⊢
    obtain ⟨created, plain, same⟩ := read
    have same : created = x.createdAt := congrArg User.createdAt same
    subst same
    split <;> exact ⟨_, plain, rfl⟩
  | @tokenIssued username label x known new =>
    intro k stored
    rcases List.mem_append.mp stored with old | last
    · exact h k old
    · obtain rfl := List.mem_singleton.mp last
      obtain ⟨row, found, read⟩ := Store.readOption_eq_ok_some.mp known
      obtain rfl := User.eq_of_readBack? read
      exact ⟨x, List.mem_of_find?_eq_some found, rfl, read⟩

end Edit

end Directory

namespace World

theorem entrusted_after (acts : List Act) : (World.after {} acts).store.Entrusted :=
  directory_after (by simp [Store.Entrusted])
    (fun _ _ same h => by rwa [Store.Entrusted, same.credentials, same.users])
    (fun _ _ _ _ edits h => edits.entrusted h) acts

/-- After a run the credentials are those that were asked for. -/
lemma assigns_after (acts : List Act) : (World.after {} acts).store.Assigns digest u ↔
    Gave (fun s a => a.call.NamesOwner a.context s digest u) acts := by
  refine after_iff_gave (·.Assigns digest u) (by simp [Store.Assigns]) (fun c w call hk => ?_) acts
  refine call.run_iff (·.Assigns digest u) (fun s call => call.NamesOwner c s digest u) hk (fun s t same => ?_)
    (fun t edit => edit.assigns_iff) fun names => ?_
  · simp only [Store.Assigns, same.credentials]
  · cases names with
    | intro => exact (Directory.issueToken_writes _ _).editsOrNot rfl fun _ _ => Directory.issueToken_edit

/-- The credentials of a user have the digests of the tokens that were issued to them. -/
lemma assigns_iff_issued : (World.after {} acts).store.Assigns digest u ↔
    ∃ token, Issued acts token u ∧ Digest.ofText token = digest := by
  rw [assigns_after]
  constructor
  · rintro ⟨before, ⟨c, call⟩, later, rfl, ⟨w', answers⟩, names⟩
    cases names with
    | intro known =>
      obtain ⟨token, answered⟩ := silent_eq_ok_iff.mp answers
      obtain ⟨-, -, rfl, -⟩ := Directory.issueToken_eq_ok answered
      exact ⟨_, .intro known answered, rfl⟩
  · rintro ⟨_, ⟨known, answered⟩, rfl⟩
    obtain ⟨-, -, rfl, -⟩ := Directory.issueToken_eq_ok answered
    exact ⟨_, _, _, rfl, ⟨_, silent_eq_ok_iff.mpr ⟨_, answered⟩⟩, .intro known⟩

/-- Tokens are made of what the acts draw that ask for them. -/
lemma exists_drawn (issued : Issued acts token u) :
    ∃ a ∈ acts, (∃ username label, a.call = .issueToken username label) ∧
      ∃ n, token = Directory.tokenText (a.context.drawn n) := by
  obtain ⟨known, answered⟩ := issued
  obtain ⟨-, -, rfl, -⟩ := Directory.issueToken_eq_ok answered
  exact ⟨_, List.mem_append_right _ List.mem_cons_self, ⟨_, _, rfl⟩, _, rfl⟩

end World

/-! ### Whom a text stands for -/

/-- The text is, but for blanks around it, a token that the acts have issued to the user, who is active now. -/
structure World.TokenOf (acts : List Act) (text : String) (x : User) : Prop where
  stored : x ∈ (World.after {} acts).store.users
  active : x.isActive = true
  issued : Issued acts (Text.trim text) x.id

namespace World

variable {x : User}

lemma TokenOf.bears (h : TokenOf acts text x) : (World.after {} acts).store.Bears text x where
  stored := h.stored
  active := h.active
  nonempty := by
    obtain ⟨_, -, -, _, same⟩ := exists_drawn h.issued
    rw [same]
    exact Directory.isEmpty_tokenText _
  credential := assigns_iff_issued.mpr ⟨_, h.issued, rfl⟩

/-- Where digests tell the text and the issued tokens apart, a text that is taken for a token is one. -/
lemma tokenOf_of_bears (apart : Set.InjOn Digest.ofText (insert (Text.trim text) (tokens acts)))
    (h : (World.after {} acts).store.Bears text x) : TokenOf acts text x := by
  obtain ⟨token, issued, same⟩ := assigns_iff_issued.mp h.credential
  have same := apart (Set.mem_insert_of_mem _ ⟨x.id, issued⟩) (Set.mem_insert _ _) same
  exact ⟨h.stored, h.active, same ▸ issued⟩

end World

namespace Store

variable {s : Store} {x : User}

/-- The owner of the digest of a token is the user whose token it is. -/
lemma Bears.ownerOf_eq (bears : s.Bears text x) (enrolled : s.Enrolled) (entrusted : s.Entrusted) :
    s.ownerOf (Digest.ofText (Text.trim text)) = .ok (some x) := by
  obtain ⟨k, stored, digest, owned⟩ := bears.credential
  have credential : s.credentials.find? (·.digest = Digest.ofText (Text.trim text)) = some k := by
    rw [← digest]
    exact find?_eq_of_nodup_map enrolled.digests stored
  have owner : (s.users.find? fun y => y.id = k.owner ∧ y.isActive) = some x := by
    obtain ⟨y, found⟩ : ∃ y, (s.users.find? fun y => y.id = k.owner ∧ y.isActive) = some y := by
      rw [← Option.isSome_iff_exists, List.find?_isSome]
      exact ⟨x, bears.stored, by simp [owned, bears.active]⟩
    have chosen : y.id = k.owner ∧ y.isActive = true := by simpa using List.find?_some found
    rw [found, enrolled.eq_of_id (List.mem_of_find?_eq_some found) bears.stored (chosen.1.trans owned)]
  obtain ⟨y, mem, owns, read⟩ := entrusted k stored
  obtain rfl := enrolled.eq_of_id mem bears.stored (owns.trans owned)
  simp only [ownerOf, credential, Option.bind_eq_bind, Option.bind_some, owner, readOption, Store.read, read]
  rfl

end Store

/-- A token of a user stands for the actor that the user is. -/
lemma Directory.authenticate_of_bears {x : User} (bears : w.store.Bears text x) (enrolled : w.store.Enrolled)
    (entrusted : w.store.Entrusted) : authenticate text c w = actorFor x c w := by
  have found : read (·.ownerOf (Digest.ofText (Text.trim text))) c w = (.ok (some x), w) :=
    read_eq_ok_iff.mpr ⟨bears.ownerOf_eq enrolled entrusted, rfl⟩
  unfold authenticate
  rw [if_neg (by simp [bears.nonempty])]
  exact bind_of_ok found

/-! ### More tokens -/

/-- The acts issue tokens, or are refused them. -/
def World.Issuing (acts : List Act) : Prop :=
  ∀ a ∈ acts, ∃ username label, a.call = .issueToken username label

/-- Issuing tokens adds credentials and changes nothing else. -/
lemma World.Issuing.after_eq (h : Issuing acts) (w : World) :
    ∃ added, w.after acts =
      { w with store := { w.store with credentials := w.store.credentials ++ added } } := by
  induction acts generalizing w with
  | nil => exact ⟨[], by simp [after]⟩
  | cons a acts ih =>
    obtain ⟨now, later⟩ := List.forall_mem_cons.mp h
    obtain ⟨username, label, asks⟩ := now
    have first : ∃ added, a.run w =
        { w with store := { w.store with credentials := w.store.credentials ++ added } } := by
      rw [Act.run, asks, ServiceCall.run]
      rcases run : Directory.issueToken username label a.context w with ⟨e | token, w'⟩
      · rw [(Directory.issueToken_writes username label).atomic _ _ _ _ run]
        exact ⟨[], by simp⟩
      · obtain ⟨x, -, -, -, rfl⟩ := Directory.issueToken_eq_ok run
        exact ⟨_, rfl⟩
    obtain ⟨added, changed⟩ := first
    obtain ⟨others, rest⟩ := ih later (a.run w)
    refine ⟨added ++ others, ?_⟩
    change (a.run w).after acts = _
    rw [rest, changed]
    simp [List.append_assoc]

/-! ### Presenting a token -/

/-- What comes of a text that is presented as a token after acts. -/
structure World.Authenticates (acts : List Act) (c : Context) (text : String) : Prop where
  /-- Where all roles read back, the text stands for somebody exactly if it is a token of an active user. -/
  succeeds_iff : (∀ role ∈ (World.after {} acts).store.roles, role.readBack?.isSome = true) →
    ((∃ a w', Directory.authenticate text c (World.after {} acts) = (.ok a, w')) ↔ ∃ x, TokenOf acts text x)
  /-- It then stands for the user with what they hold now. Nothing changes, whatever the answer. -/
  owner : ∀ x, TokenOf acts text x → Directory.authenticate text c (World.after {} acts) =
    (if ∀ role ∈ (World.after {} acts).store.roles, role.readBack?.isSome = true then
      .ok ((World.after {} acts).store.actorOf c.settings.access.adminRole x)
    else .error (.ofStore Store.unreadable), World.after {} acts)
  /-- Every other text is refused as that of a stranger. -/
  stranger : (∀ x, ¬TokenOf acts text x) → ∃ cause,
    Directory.authenticate text c (World.after {} acts) = (.error (.stranger cause), World.after {} acts)
  /-- Tokens that are issued later change nothing for those that are there. -/
  kept : ∀ more, Issuing more → (∃ u, Issued acts (Text.trim text) u) →
    (Directory.authenticate text c (World.after {} (acts ++ more))).1 =
      (Directory.authenticate text c (World.after {} acts)).1
  /-- All roles read back while the clock shows years of four digits. -/
  reads : (∀ a ∈ acts, a.context.now.hasPlainYear = true) →
    ∀ role ∈ (World.after {} acts).store.roles, role.readBack?.isSome = true

namespace World

/-- Tokens that are issued later change nothing for one that was issued before. -/
lemma authenticate_append {more : List Act} (issuing : Issuing more) (issued : Issued acts (Text.trim text) u) :
    (Directory.authenticate text c (World.after {} (acts ++ more))).1 =
      (Directory.authenticate text c (World.after {} acts)).1 := by
  have enrolled := enrolled_after (acts ++ more)
  have entrusted := entrusted_after (acts ++ more)
  obtain ⟨added, changed⟩ := issuing.after_eq (World.after {} acts)
  rw [← after_append] at changed
  generalize World.after {} (acts ++ more) = v at enrolled entrusted changed ⊢
  have users : v.store.users = (World.after {} acts).store.users := by rw [changed]
  have roles : v.store.roles = (World.after {} acts).store.roles := by rw [changed]
  have credentials : v.store.credentials = (World.after {} acts).store.credentials ++ added := by rw [changed]
  have bears_iff (x : User) : v.store.Bears text x ↔ (World.after {} acts).store.Bears text x := by
    constructor
    · -- A new credential has another digest than the one that is there, and so gives the text no owner.
      intro bears
      obtain ⟨k, stored, digest, -⟩ := assigns_iff_issued.mpr ⟨_, issued, rfl⟩
      obtain ⟨other, mem, same, owns⟩ := bears.credential
      have there : k ∈ v.store.credentials := by
        rw [credentials]
        exact List.mem_append_left _ stored
      obtain rfl : k = other := List.inj_on_of_nodup_map enrolled.digests there mem (digest.trans same.symm)
      exact ⟨users ▸ bears.stored, bears.active, bears.nonempty, k, stored, digest, owns⟩
    · intro bears
      obtain ⟨k, stored, owns⟩ := bears.credential
      refine ⟨users ▸ bears.stored, bears.active, bears.nonempty, k, ?_, owns⟩
      rw [credentials]
      exact List.mem_append_left _ stored
  by_cases owned : ∃ x, (World.after {} acts).store.Bears text x
  · obtain ⟨x, bears⟩ := owned
    rw [Directory.authenticate_of_bears bears (enrolled_after acts) (entrusted_after acts),
      Directory.authenticate_of_bears ((bears_iff x).mpr bears) enrolled entrusted, Directory.actorFor_run,
      Directory.actorFor_run]
    simp only [roles, Store.actorOf, Store.permissionsOf]
  · have nobody : ∀ x, ¬(World.after {} acts).store.Bears text x := fun x bears => owned ⟨x, bears⟩
    rw [Directory.authenticate_of_nobody nobody,
      Directory.authenticate_of_nobody fun x bears => nobody x ((bears_iff x).mp bears)]

/-- After any acts, whatever they drew for tokens, a text stands for the active user to whom it was issued as a
token, and for nobody else. -/
theorem authenticates_after (acts : List Act) (c : Context) (text : String)
    (apart : Set.InjOn Digest.ofText (insert (Text.trim text) (tokens acts))) : Authenticates acts c text := by
  have owner (x : User) (h : TokenOf acts text x) := by
    exact (Directory.authenticate_of_bears h.bears (enrolled_after acts) (entrusted_after acts)
      (c := c)).trans ((Directory.actorFor_run x).trans (by rw [if_pos h.active]))
  have stranger (nobody : ∀ x, ¬TokenOf acts text x) :=
    Directory.authenticate_of_nobody (c := c) fun x bears => nobody x (tokenOf_of_bears apart bears)
  refine ⟨fun reads => ⟨?_, ?_⟩, owner, fun nobody => ⟨_, stranger nobody⟩, ?_,
    (Table.follows_roles.registers acts).reads⟩
  · rintro ⟨a, w', answers⟩
    by_contra none
    rw [stranger fun x h => none ⟨x, h⟩] at answers
    exact absurd (congrArg Prod.fst answers) (by simp [Directory.refusalOf])
  · rintro ⟨x, h⟩
    exact ⟨_, _, by rw [owner x h, if_pos reads]⟩
  · rintro more issuing ⟨u, issued⟩
    exact authenticate_append issuing issued

end World

end Supplied

/-! ### Runs -/

namespace Leave

/-- So many hours after midnight of the first day, where identifiers with these numbers are drawn. -/
def drawing (hours first second : Nat) : Context := { clock hours with drawn := fun _ => (⟨first⟩, ⟨second⟩) }

/-- Two users get tokens. One of them is given a role afterwards, the other one is deactivated. -/
def badged : List Act :=
  [⟨clock 12, .createRole { name := "lead", description := none, permissionNames := [] }⟩,
   ⟨clock 12, .createUser { username := "ana", fullName := none, roleNames := [] }⟩,
   ⟨clock 12, .createUser { username := "bob", fullName := none, roleNames := [] }⟩,
   ⟨drawing 13 0xc0ffee 0xbeef, .issueToken "ana" "leave"⟩,
   ⟨drawing 13 0xdecaf 0xf00d, .issueToken "bob" "leave"⟩,
   ⟨clock 14, .assign "ana" "lead"⟩,
   ⟨clock 14, .deactivate "bob"⟩]

/-- The token of the first user. -/
def anasToken : String := Directory.tokenText (⟨0xc0ffee⟩, ⟨0xbeef⟩)

/-- The token of the second user. -/
def bobsToken : String := Directory.tokenText (⟨0xdecaf⟩, ⟨0xf00d⟩)

/-- The first token, with blanks around it. -/
def badge : String := " " ++ anasToken ++ "\n"

lemma apart_of_badged :
    Set.InjOn Digest.ofText (insert (Text.trim badge) (World.tokens badged)) := by
  have trimmed : Text.trim badge = anasToken := by decide +kernel
  have differ : Digest.ofText anasToken ≠ Digest.ofText bobsToken := by decide +kernel
  have among (t : String) (mem : t ∈ insert (Text.trim badge) (World.tokens badged)) :
      t = anasToken ∨ t = bobsToken := by
    rcases mem with rfl | ⟨u, issued⟩
    · exact .inl trimmed
    · obtain ⟨a, mem, ⟨username, label, asks⟩, n, rfl⟩ := World.exists_drawn issued
      simp only [badged, List.mem_cons, List.not_mem_nil, or_false] at mem
      rcases mem with rfl | rfl | rfl | rfl | rfl | rfl | rfl <;> cases asks
      · exact .inl rfl
      · exact .inr rfl
  intro s hs t ht same
  rcases among s hs with rfl | rfl <;> rcases among t ht with rfl | rfl
  · rfl
  · exact absurd same differ
  · exact absurd same.symm differ
  · rfl

/-- The first user is known by the token, and acts with the role that they got after it. -/
theorem authenticates_of_badged :
    Set.InjOn Digest.ofText (insert (Text.trim badge) (World.tokens badged)) ∧
      ∃ x a, World.TokenOf badged badge x ∧ x.roleIds.length = 1 ∧ a.roleIds = x.roleIds ∧
        Directory.authenticate badge (clock 15) (World.after {} badged) = (.ok a, World.after {} badged) := by
  have after := World.authenticates_after badged (clock 15) badge apart_of_badged
  have ran : (∃ x ∈ (World.after {} badged).store.users, x.roleIds.length = 1 ∧
        (World.after {} badged).store.Bears badge x) ∧
      (∀ a ∈ badged, a.context.now.hasPlainYear = true) := by decide +kernel
  obtain ⟨⟨x, -, holds, bears⟩, plain⟩ := ran
  have token : World.TokenOf badged badge x := World.tokenOf_of_bears apart_of_badged bears
  have answers := after.owner x token
  rw [if_pos (after.reads plain)] at answers
  exact ⟨apart_of_badged, x, _, token, holds, rfl, answers⟩

/-- A user gets a token, and in the year 10000 a role is created. -/
def staffedMuchLater : List Act :=
  [⟨clock 12, .createUser { username := "ana", fullName := none, roleNames := [] }⟩,
   ⟨drawing 12 0 1, .issueToken "ana" "leave"⟩,
   ⟨clock 70389528, .createRole { name := "lead", description := none, permissionNames := [] }⟩]

/-- The token that the user gets. -/
def firstToken : String := Directory.tokenText (⟨0⟩, ⟨1⟩)

/-- The token of an active user is not accepted while the row of a role does not read back. -/
theorem unaccepted_of_staffedMuchLater :
    Set.InjOn Digest.ofText (insert (Text.trim firstToken) (World.tokens staffedMuchLater)) ∧
      (∃ x, World.TokenOf staffedMuchLater firstToken x) ∧
        ¬∃ a w', Directory.authenticate firstToken (clock 13) (World.after {} staffedMuchLater) = (.ok a, w') := by
  have trimmed : Text.trim firstToken = firstToken := by decide +kernel
  have ran : (∃ x ∈ (World.after {} staffedMuchLater).store.users,
        (World.after {} staffedMuchLater).store.Bears firstToken x) ∧
      (Directory.authenticate firstToken (clock 13) (World.after {} staffedMuchLater)).1.isOk = false := by
    decide +kernel
  obtain ⟨⟨x, -, bears⟩, refused⟩ := ran
  have one (t : String) (mem : t ∈ insert (Text.trim firstToken) (World.tokens staffedMuchLater)) :
      t = firstToken := by
    rcases mem with rfl | ⟨u, issued⟩
    · exact trimmed
    · obtain ⟨a, mem, ⟨username, label, asks⟩, n, rfl⟩ := World.exists_drawn issued
      simp only [staffedMuchLater, List.mem_cons, List.not_mem_nil, or_false] at mem
      rcases mem with rfl | rfl | rfl <;> cases asks
      rfl
  have apart : Set.InjOn Digest.ofText (insert (Text.trim firstToken) (World.tokens staffedMuchLater)) :=
    fun s hs t ht _ => (one s hs).trans (one t ht).symm
  refine ⟨apart, ⟨x, World.tokenOf_of_bears apart bears⟩, ?_⟩
  rintro ⟨a, w', answers⟩
  rw [answers] at refused
  exact Bool.noConfusion refused

end Leave

end Approval
