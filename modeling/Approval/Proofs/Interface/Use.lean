import Approval.CommandLine.Run
import Approval.Http.Interface
import Approval.Proofs.Run.Basic
import Approval.Proofs.Service.Directory
import Approval.Proofs.Service.Requests

/-!
# Uses of the interfaces

The service is used by HTTP calls and by commands. A use reads what it needs and makes at most one call of
the service that writes, with values that it has brought along.
-/

namespace Approval

open Work

/-! ### Work that makes one call -/

section Work

variable [Supply] {ε δ α β κ : Type} {x : Work ε α} {f : α → Work ε β} {P : ServiceCall → Prop}

/-- The work leaves the world as it is, or as a call of some kind leaves it. -/
def Work.Calls (P : ServiceCall → Prop) (x : Work ε α) : Prop :=
  ∀ c w, (x c w).2 = w ∨ ∃ call, P call ∧ (x c w).2 = call.run c w

/-- The work leaves the world as it is, or finds out who acts and leaves the world as a call of theirs
does. -/
def Work.CallsAs (x : Work ε α) (who : Work ε κ) (P : κ → ServiceCall → Prop) : Prop :=
  ∀ c w, (x c w).2 = w ∨ ∃ k call, who c w = (.ok k, w) ∧ P k call ∧ (x c w).2 = call.run c w

namespace Work

lemma Inert.calls (h : x.Inert) : x.Calls P := fun c w => .inl (h c w)

lemma Calls.of_run {call : ServiceCall} (h : P call) (run : ∀ c w, (x c w).2 = call.run c w) : x.Calls P :=
  fun c w => .inr ⟨call, h, run c w⟩

lemma Calls.mapError (h : x.Calls P) (g : ε → δ) : (mapError g x).Calls P := by
  intro c w
  have same := h c w
  rcases run : x c w with ⟨e | a, v⟩ <;> simpa only [Work.mapError, run] using same

/-- Reading first adds nothing. -/
lemma Calls.of_inert_bind (hx : x.Inert) (hf : ∀ a, (f a).Calls P) : (x >>= f).Calls P := by
  intro c w
  have first := hx c w
  rcases run : x c w with ⟨e | a, v⟩ <;> rw [run] at first <;> subst first
  · exact .inl (by rw [bind_of_error run])
  · rw [bind_of_ok run]
    exact hf a c v

/-- Reading a result first adds that it was read. -/
lemma Calls.ofResult_bind {r : Except ε α} (h : ∀ a, r = .ok a → (f a).Calls P) :
    (ofResult r >>= f).Calls P := by
  cases r with
  | error e => exact fun c w => .inl rfl
  | ok a => exact h a rfl

lemma Calls.mapError_ofResult_bind {r : Except δ α} {g : δ → ε} (h : ∀ a, r = .ok a → (f a).Calls P) :
    (Work.mapError g (ofResult r) >>= f).Calls P := by
  cases r with
  | error e => exact fun c w => .inl rfl
  | ok a => exact h a rfl

/-- Reading afterwards adds nothing. -/
lemma Calls.bind_inert (hx : x.Calls P) (hf : ∀ a, (f a).Inert) : (x >>= f).Calls P := by
  intro c w
  have first := hx c w
  rcases run : x c w with ⟨e | a, v⟩ <;> rw [run] at first
  · rwa [bind_of_error run]
  · rwa [bind_of_ok run, hf a c v]

section Acting

variable {who : Work ε κ} {P : κ → ServiceCall → Prop}

lemma Inert.callsAs (h : x.Inert) : x.CallsAs who P := fun c w => .inl (h c w)

/-- Who acts is found first. -/
lemma CallsAs.of_bind {f : κ → Work ε α} (hw : who.Inert) (hf : ∀ k, (f k).Calls (P k)) :
    (who >>= f).CallsAs who P := by
  intro c w
  have same := hw c w
  rcases found : who c w with ⟨e | k, v⟩
  all_goals
    rw [found] at same
    obtain rfl : v = w := same
  · exact .inl (by rw [bind_of_error found])
  · rw [bind_of_ok found]
    rcases hf k c v with quiet | ⟨call, made, run⟩
    · exact .inl quiet
    · exact .inr ⟨k, call, rfl, made, run⟩

/-- Reading a result first adds that it was read. -/
lemma CallsAs.ofResult_bind {r : Except ε α} (h : ∀ a, r = .ok a → (f a).CallsAs who P) :
    (ofResult r >>= f).CallsAs who P := by
  cases r with
  | error e => exact fun c w => .inl rfl
  | ok a => exact h a rfl

/-- What those do who act is a call all the same. -/
lemma CallsAs.calls {Q : ServiceCall → Prop} (h : x.CallsAs who P) (made : ∀ k call, P k call → Q call) :
    x.Calls Q := by
  intro c w
  rcases h c w with quiet | ⟨k, call, -, theirs, run⟩
  · exact .inl quiet
  · exact .inr ⟨call, made k call theirs, run⟩

end Acting

end Work

end Work

/-- The call starts and decides requests in the name of actors of a kind only. -/
structure ServiceCall.SignedBy (acts : Actor → Prop) (call : ServiceCall) : Prop where
  start : ∀ id requester payload, call = .start id requester payload → ∃ a, acts a ∧ requester = a.userId
  process : ∀ id a d, call = .process id a d → acts a

namespace ServiceCall.SignedBy

variable {acts : Actor → Prop} {a : Actor}

lemma mono {others : Actor → Prop} {call : ServiceCall} (h : call.SignedBy acts) (le : ∀ a, acts a → others a) :
    call.SignedBy others where
  start id requester payload starts := by
    obtain ⟨a, ha, same⟩ := h.start id requester payload starts
    exact ⟨a, le a ha, same⟩
  process id a d decides := le a (h.process id a d decides)

lemma of_start (h : acts a) {id : WorkflowId} {payload : Json} :
    (ServiceCall.start id a.userId payload).SignedBy acts where
  start := by
    rintro _ _ _ ⟨⟩
    exact ⟨a, h, rfl⟩
  process := by
    rintro _ _ _ ⟨⟩

lemma of_process (h : acts a) {id : RequestId} {d : Decision} :
    (ServiceCall.process id a d).SignedBy acts where
  start := by
    rintro _ _ _ ⟨⟩
  process := by
    rintro _ _ _ ⟨⟩
    exact h

end ServiceCall.SignedBy

/-! ### Reading -/

namespace Directory

lemma actorFor_inert (u : User) : (actorFor u).Inert := by
  unfold actorFor
  split
  · exact .fail _
  · refine .bind (fun _ _ => rfl) fun c => ?_
    refine (Operation.ask_inert _).bind fun permissions => ?_
    exact (Operation.read_inert _).bind fun roles => .pure _

lemma actorNamed_inert (username : String) : (actorNamed username).Inert :=
  (Operation.readOr_inert _ _).bind actorFor_inert

lemma authenticate_inert (token : String) : (authenticate token).Inert := by
  unfold authenticate
  dsimp only
  split
  · exact .fail _
  · refine (Operation.read_inert _).bind fun owner => ?_
    cases owner with
    | none => exact .fail _
    | some u => exact actorFor_inert u

end Directory

lemma Workflows.get_inert (id : WorkflowId) : (get id).Inert := Operation.readOr_inert _ _

lemma Workflows.count_inert : count.Inert := Operation.ask_inert _

lemma Directory.countUsers_inert : countUsers.Inert := Operation.ask_inert _

lemma Requests.breachCount_inert : breachCount.Inert := Operation.ask_inert _

lemma Requests.list_inert (f : RequestFilter) : (list f).Inert := Operation.read_inert _

lemma Audit.ofRequest_inert (id : RequestId) : (ofRequest id).Inert := Operation.read_inert _

lemma Audit.latest_inert (limit : Int) : (latest limit).Inert := Operation.read_inert _

namespace Tasks

lemma of_inert (actor : Actor) : (of actor).Inert :=
  Inert.now.bind fun _ => (Operation.read_inert _).bind fun _ => .pure _

lemma dashboard_inert : dashboard.Inert :=
  Inert.now.bind fun _ => (Operation.ask_inert _).bind fun _ => (Operation.read_inert _).bind fun _ => .pure _

end Tasks

/-! ### HTTP calls -/

namespace Http

/-- The calls of the service that an HTTP call may make: their values are those of its body. -/
inductive Call.Makes (c : Call) : ServiceCall → Prop
  | created {d : Draft} (read : c.read Draft.decode = .ok d) (actor : Option UserId) :
      Makes c (.createWorkflow d actor)
  | switched (id : WorkflowId) (isActive : Bool) (actor : Option UserId) :
      Makes c (.switchWorkflow id isActive actor)
  | removed (id : WorkflowId) (actor : Option UserId) : Makes c (.removeWorkflow id actor)
  | started {form : StartForm} (read : c.read StartForm.decode = .ok form) (requester : UserId) :
      Makes c (.start form.workflowId requester (form.payload.getD (.object [])))
  | decided {d : Decision} (read : c.read decodeDecision = .ok d ∨ c.read decodeAction = .ok d)
      (id : RequestId) (actor : Actor) : Makes c (.process id actor d)

/-- The calls of the service that an HTTP call may make in the name of an actor. Only administrators change
workflows. -/
inductive Call.MakesAs (c : Call) (a : Actor) : ServiceCall → Prop
  | created {d : Draft} (read : c.read Draft.decode = .ok d) (admin : a.isAdmin = true) :
      MakesAs c a (.createWorkflow d (some a.userId))
  | switched (id : WorkflowId) (isActive : Bool) (admin : a.isAdmin = true) :
      MakesAs c a (.switchWorkflow id isActive (some a.userId))
  | removed (id : WorkflowId) (admin : a.isAdmin = true) : MakesAs c a (.removeWorkflow id (some a.userId))
  | started {form : StartForm} (read : c.read StartForm.decode = .ok form) :
      MakesAs c a (.start form.workflowId a.userId (form.payload.getD (.object [])))
  | decided {d : Decision} (read : c.read decodeDecision = .ok d ∨ c.read decodeAction = .ok d)
      (id : RequestId) : MakesAs c a (.process id a d)

lemma Call.MakesAs.makes {c : Call} {a : Actor} {call : ServiceCall} (h : c.MakesAs a call) : c.Makes call := by
  cases h with
  | created read => exact .created read _
  | switched id isActive => exact .switched id isActive _
  | removed id => exact .removed id _
  | started read => exact .started read _
  | decided read id => exact .decided read id _

/-- What is read off a call is decoded from its body. -/
lemma Call.decodeText_of_read {α : Type} {c : Call} {decode : Decoder α} {a : α}
    (h : c.read decode = .ok a) : decode.decodeText c.body = .ok a := by
  unfold read at h
  split_ifs at h
  split at h
  · rename_i same
    rw [same, Except.ok.inj h]
  · cases h
  · cases h

lemma Call.actor_inert (c : Call) : c.actor.Inert :=
  ((Inert.ofResult _).mapError _).bind fun token => (Directory.authenticate_inert token).mapError _

lemma requireAdmin_inert (actor : Actor) : (requireAdmin actor).Inert := by
  unfold requireAdmin
  split
  · exact .pure _
  · exact .fail _

variable [Supply] in
/-- What administrators go on with. -/
lemma requireAdmin_calls {α : Type} {actor : Actor} {f : Unit → Handling α} {P : ServiceCall → Prop}
    (h : actor.isAdmin = true → (f ()).Calls P) : (requireAdmin actor >>= f).Calls P := by
  unfold requireAdmin
  split_ifs with admin
  · exact h admin
  · exact fun c w => .inl rfl

lemma viewNow_inert (r : Request) : (viewNow r).Inert := Inert.now.bind fun _ => .pure _

section Handlers

variable {c : Call}

lemma listWorkflows_inert : (listWorkflows c).Inert :=
  c.actor_inert.bind fun _ => ((Operation.read_inert _).mapError _).bind fun _ => .pure _

variable [Supply] in
lemma createWorkflow_calls : (createWorkflow c).CallsAs c.actor c.MakesAs := by
  refine .of_bind c.actor_inert fun actor => .ofResult_bind fun d read => ?_
  refine requireAdmin_calls fun admin => .bind_inert (.mapError ?_ _) fun w => .pure _
  exact .of_run (.created read admin) fun _ _ => rfl

lemma showWorkflow_inert (part : String) : (showWorkflow part c).Inert :=
  c.actor_inert.bind fun _ => (Inert.ofResult _).bind fun _ => (Inert.ofResult _).bind fun id =>
    ((Workflows.get_inert id).mapError _).bind fun _ => .pure _

variable [Supply] in
lemma removeWorkflow_calls (part : String) : (removeWorkflow part c).CallsAs c.actor c.MakesAs := by
  refine .of_bind c.actor_inert fun actor => .of_inert_bind (.ofResult _) fun text => ?_
  refine requireAdmin_calls fun admin => .of_inert_bind (.ofResult _) fun id => ?_
  refine .bind_inert (.mapError ?_ _) fun w => .pure _
  exact .of_run (.removed id admin) fun _ _ => rfl

variable [Supply] in
lemma setWorkflowActive_calls (part : String) (isActive : Bool) :
    (setWorkflowActive part isActive c).CallsAs c.actor c.MakesAs := by
  refine .of_bind c.actor_inert fun actor => .of_inert_bind (.ofResult _) fun text => ?_
  refine requireAdmin_calls fun admin => .of_inert_bind (.ofResult _) fun id => ?_
  refine .bind_inert (.mapError ?_ _) fun w => .pure _
  exact .of_run (.switched id isActive admin) fun _ _ => rfl

lemma listRequests_inert : (listRequests c).Inert :=
  c.actor_inert.bind fun _ => (Inert.ofResult _).bind fun _ => (Inert.ofResult _).bind fun f =>
    ((Requests.list_inert f).mapError _).bind fun _ => (Inert.mapM viewNow_inert _).bind fun _ => .pure _

variable [Supply] in
lemma startRequest_calls : (startRequest c).CallsAs c.actor c.MakesAs := by
  refine .of_bind c.actor_inert fun actor => .ofResult_bind fun form read => ?_
  refine .bind_inert (.mapError ?_ _) fun r => (viewNow_inert r).bind fun _ => .pure _
  exact .of_run (.started read) fun _ _ => rfl

lemma showRequest_inert (part : String) : (showRequest part c).Inert :=
  c.actor_inert.bind fun _ => (Inert.ofResult _).bind fun _ => (Inert.ofResult _).bind fun _ =>
    ((Requests.get_inert _).mapError _).bind fun r => (viewNow_inert r).bind fun _ => .pure _

variable [Supply] in
lemma decideRequest_calls (part : String) {decode : Decoder Decision}
    (known : decode = decodeDecision ∨ decode = decodeAction) :
    (decideRequest part decode c).CallsAs c.actor c.MakesAs := by
  refine .of_bind c.actor_inert fun actor => .of_inert_bind (.ofResult _) fun text => ?_
  refine .ofResult_bind fun d read => .of_inert_bind (.ofResult _) fun id => ?_
  refine .bind_inert (.mapError ?_ _) fun r => (viewNow_inert r).bind fun _ => .pure _
  refine .of_run (.decided ?_ id) fun _ _ => rfl
  rcases known with rfl | rfl
  · exact .inl read
  · exact .inr read

lemma listTasks_inert : (listTasks c).Inert :=
  c.actor_inert.bind fun actor => ((Tasks.of_inert actor).mapError _).bind fun _ => .pure _

lemma showDashboard_inert : (showDashboard c).Inert :=
  c.actor_inert.bind fun _ => (Tasks.dashboard_inert.mapError _).bind fun _ => .pure _

lemma listRoles_inert : (listRoles c).Inert :=
  c.actor_inert.bind fun _ => ((Operation.read_inert _).mapError _).bind fun _ => .pure _

lemma listPermissions_inert : (listPermissions c).Inert :=
  c.actor_inert.bind fun _ => ((Operation.read_inert _).mapError _).bind fun _ => .pure _

lemma showSelf_inert : (showSelf c).Inert :=
  c.actor_inert.bind fun actor => ((Directory.userNamed_inert actor.username).mapError _).bind fun _ =>
    ((Operation.read_inert _).mapError _).bind fun _ => .pure _

lemma showAudit_inert : (showAudit c).Inert := by
  refine c.actor_inert.bind fun _ => (Inert.ofResult _).bind fun request => ?_
  refine (Inert.ofResult _).bind fun limit => ?_
  cases request with
  | some text =>
    exact (Inert.ofResult _).bind fun id => ((Audit.ofRequest_inert id).mapError _).bind fun _ => .pure _
  | none => exact ((Audit.latest_inert _).mapError _).bind fun _ => .pure _

lemma showTotals_inert : (showTotals c).Inert :=
  c.actor_inert.bind fun actor => (requireAdmin_inert actor).bind fun _ =>
    (Tasks.dashboard_inert.mapError _).bind fun _ => (Directory.countUsers_inert.mapError _).bind fun _ =>
      (Workflows.count_inert.mapError _).bind fun _ => (Requests.breachCount_inert.mapError _).bind fun _ =>
        .pure _

variable [Supply]

lemma handler?_calls {resource : Resource} {method : Method} {handler : Call → Handling Reply}
    (h : handler? resource method = some handler) : (handler c).CallsAs c.actor c.MakesAs := by
  unfold handler? at h
  split at h
  all_goals cases h
  · exact (Inert.pure _).callsAs
  · exact listWorkflows_inert.callsAs
  · exact createWorkflow_calls
  · exact (showWorkflow_inert _).callsAs
  · exact removeWorkflow_calls _
  · exact setWorkflowActive_calls _ _
  · exact setWorkflowActive_calls _ _
  · exact listRequests_inert.callsAs
  · exact startRequest_calls
  · exact listTasks_inert.callsAs
  · exact showDashboard_inert.callsAs
  · exact (showRequest_inert _).callsAs
  · exact decideRequest_calls _ (.inl rfl)
  · exact decideRequest_calls _ (.inr rfl)
  · exact listRoles_inert.callsAs
  · exact listPermissions_inert.callsAs
  · exact showSelf_inert.callsAs
  · exact showAudit_inert.callsAs
  · exact showTotals_inert.callsAs

lemma Call.handle_calls (c : Call) : c.handle.CallsAs c.actor c.MakesAs := by
  unfold handle
  split
  · exact (Inert.fail _).callsAs
  · split
    · exact (Inert.fail _).callsAs
    · rename_i found
      exact handler?_calls found

end Handlers

lemma Call.MakesAs.signedBy {c : Call} {a : Actor} {call : ServiceCall} (h : c.MakesAs a call)
    {acts : Actor → Prop} (ha : acts a) : call.SignedBy acts := by
  cases h with
  | started => exact .of_start ha
  | decided => exact .of_process ha
  | created | switched | removed =>
    refine ⟨?_, ?_⟩
    all_goals rintro _ _ _ ⟨⟩

variable [Supply] in
/-- The world after an HTTP call is the one before, or the one after a call of the service in the name of
the one who calls. -/
lemma Call.answer_calls (c : Call) (context : Context) (w : World) :
    (c.answer context w).2 = w ∨ ∃ a call, c.actor context w = (.ok a, w) ∧ c.MakesAs a call ∧
      (c.answer context w).2 = call.run context w := by
  unfold answer
  split
  · exact .inl rfl
  · exact c.handle_calls context w

end Http

/-! ### Commands -/

namespace CommandLine

/-- The calls of the service that a command may make: their values are those of its arguments and of the
file that it reads. -/
inductive Command.Makes (around : Surroundings) : Command → ServiceCall → Prop
  | createdUser (d : UserDraft) : Makes around (.directory (.createUser d)) (.createUser d)
  | issued (username label : String) :
      Makes around (.directory (.issueToken username label)) (.issueToken username label)
  | assigned (username role : String) :
      Makes around (.directory (.assign username role)) (.assign username role)
  | createdRole (d : RoleDraft) : Makes around (.directory (.createRole d)) (.createRole d)
  | granted (role permission : String) :
      Makes around (.directory (.grant role permission)) (.grant role permission)
  | createdPermission (d : PermissionDraft) :
      Makes around (.directory (.createPermission d)) (.createPermission d)
  | createdWorkflow {path document : String} {d : Draft} (found : around.file? path = some document)
      (read : Draft.ofDocument document = .ok d) (actor : Option UserId) :
      Makes around (.workflow (.create path)) (.createWorkflow d actor)
  | removed (text : String) (id : WorkflowId) (actor : Option UserId) :
      Makes around (.workflow (.remove text)) (.removeWorkflow id actor)
  | switched (text : String) (id : WorkflowId) (isActive : Bool) (actor : Option UserId) :
      Makes around (.workflow (.setActive text isActive)) (.switchWorkflow id isActive actor)
  | started {workflow : String} {data : Option String} {payload : Json}
      (read : (data.map (objectOf "data")).getD (.ok (.object [])) = .ok payload) (id : WorkflowId)
      (requester : UserId) : Makes around (.request (.start workflow data)) (.start id requester payload)
  | decided {text outcome : String} {comment context : Option String} {version : Option Int} {d : Decision}
      (read : decisionOf outcome comment context version = .ok d) (id : RequestId) (actor : Actor) :
      Makes around (.request (.process text outcome comment context version)) (.process id actor d)
  | swept : Makes around .sweep .sweep

/-- The calls of the service that a command on requests may make in the name of an actor. -/
inductive RequestCommand.MakesAs (a : Actor) : RequestCommand → ServiceCall → Prop
  | started {workflow : String} {data : Option String} {payload : Json}
      (read : (data.map (objectOf "data")).getD (.ok (.object [])) = .ok payload) (id : WorkflowId) :
      MakesAs a (.start workflow data) (.start id a.userId payload)
  | decided {text outcome : String} {comment context : Option String} {version : Option Int} {d : Decision}
      (read : decisionOf outcome comment context version = .ok d) (id : RequestId) :
      MakesAs a (.process text outcome comment context version) (.process id a d)

/-- The calls of the service that a command on workflows may make in the name of a user or of nobody. -/
inductive WorkflowCommand.MakesAs (around : Surroundings) (actor : Option UserId) :
    WorkflowCommand → ServiceCall → Prop
  | created {path document : String} {d : Draft} (found : around.file? path = some document)
      (read : Draft.ofDocument document = .ok d) : MakesAs around actor (.create path) (.createWorkflow d actor)
  | removed (text : String) (id : WorkflowId) : MakesAs around actor (.remove text) (.removeWorkflow id actor)
  | switched (text : String) (id : WorkflowId) (isActive : Bool) :
      MakesAs around actor (.setActive text isActive) (.switchWorkflow id isActive actor)

lemma WorkflowCommand.MakesAs.makes {around : Surroundings} {actor : Option UserId} {command : WorkflowCommand}
    {call : ServiceCall} (h : command.MakesAs around actor call) :
    Command.Makes around (.workflow command) call := by
  cases h with
  | created found read => exact .createdWorkflow found read _
  | removed text id => exact .removed text id _
  | switched text id isActive => exact .switched text id isActive _

lemma RequestCommand.MakesAs.makes {around : Surroundings} {a : Actor} {command : RequestCommand}
    {call : ServiceCall} (h : command.MakesAs a call) : Command.Makes around (.request command) call := by
  cases h with
  | started read id => exact .started read id _
  | decided read id => exact .decided read id _

lemma actorOf_inert (name : Option String) : (actorOf name).Inert := by
  cases name with
  | none => exact .fail _
  | some name => exact (Directory.actorNamed_inert name).mapError _

lemma userIdOf_inert (name : Option String) : (userIdOf name).Inert := by
  cases name with
  | none => exact .pure _
  | some name => exact ((Directory.userNamed_inert name).mapError _).bind fun _ => .pure _

lemma showNow_inert (inJson : Bool) (r : Request) : (showNow inJson r).Inert :=
  Inert.now.bind fun _ => .pure _

section Commands

variable [Supply] {around : Surroundings} {inJson : Bool}

lemma DirectoryCommand.run_calls (command : DirectoryCommand) :
    (command.run inJson).Calls (Command.Makes around (.directory command)) := by
  cases command with
  | createUser d =>
    exact .bind_inert (.mapError (.of_run (.createdUser d) fun _ _ => rfl) _) fun _ => .pure _
  | listUsers =>
    exact (((Operation.read_inert _).mapError _).bind fun _ =>
      ((Operation.read_inert _).mapError _).bind fun _ => .pure _).calls
  | issueToken username label =>
    exact .bind_inert (.mapError (.of_run (.issued username label) fun _ _ => rfl) _) fun _ => .pure _
  | assign username role =>
    exact .bind_inert (.mapError (.of_run (.assigned username role) fun _ _ => rfl) _) fun _ => .pure _
  | createRole d =>
    exact .bind_inert (.mapError (.of_run (.createdRole d) fun _ _ => rfl) _) fun _ => .pure _
  | listRoles =>
    exact (((Operation.read_inert _).mapError _).bind fun _ =>
      ((Operation.read_inert _).mapError _).bind fun _ => .pure _).calls
  | grant role permission =>
    exact .bind_inert (.mapError (.of_run (.granted role permission) fun _ _ => rfl) _) fun _ => .pure _
  | createPermission d =>
    exact .bind_inert (.mapError (.of_run (.createdPermission d) fun _ _ => rfl) _) fun _ => .pure _
  | listPermissions => exact (((Operation.read_inert _).mapError _).bind fun _ => .pure _).calls

lemma WorkflowCommand.run_calls (command : WorkflowCommand) (actor : Option UserId) :
    (command.run around inJson actor).Calls (command.MakesAs around actor) := by
  cases command with
  | create path =>
    simp only [run]
    split
    · exact (Inert.fail _).calls
    · rename_i found
      refine .mapError_ofResult_bind fun d read => .bind_inert (.mapError ?_ _) fun w => .pure _
      exact .of_run (.created found read) fun _ _ => rfl
  | list => exact (((Operation.read_inert _).mapError _).bind fun _ => .pure _).calls
  | view text =>
    exact ((Inert.ofResult _).bind fun id => ((Workflows.get_inert id).mapError _).bind fun _ =>
      .pure _).calls
  | remove text =>
    refine .of_inert_bind (.ofResult _) fun id => .bind_inert (.mapError ?_ _) fun _ => .pure _
    exact .of_run (.removed text id) fun _ _ => rfl
  | setActive text isActive =>
    refine .of_inert_bind (.ofResult _) fun id => .bind_inert (.mapError ?_ _) fun _ => .pure _
    exact .of_run (.switched text id isActive) fun _ _ => rfl

lemma RequestCommand.run_calls (command : RequestCommand) (name : Option String) :
    (command.run name inJson).CallsAs (actorOf name) fun a call => command.MakesAs a call := by
  cases command with
  | start workflow data =>
    refine .of_bind (actorOf_inert name) fun actor => .of_inert_bind (.ofResult _) fun id => ?_
    refine .ofResult_bind fun payload read => .bind_inert (.mapError ?_ _) (showNow_inert inJson)
    exact .of_run (.started read id) fun _ _ => rfl
  | view text =>
    exact ((Inert.ofResult _).bind fun _ => ((Requests.get_inert _).mapError _).bind fun r =>
      showNow_inert inJson r).callsAs
  | list status mine limit =>
    refine ((Inert.ofResult _).bind fun status => ?_).callsAs
    cases mine with
    | true =>
      exact .bind ((actorOf_inert name).bind fun _ => .pure _) fun requester =>
        ((Requests.list_inert _).mapError _).bind fun _ => Inert.now.bind fun _ => .pure _
    | false => exact ((Requests.list_inert _).mapError _).bind fun _ => Inert.now.bind fun _ => .pure _
  | process text outcome comment context version =>
    refine .ofResult_bind fun d read => .of_bind (actorOf_inert name) fun actor => ?_
    refine .of_inert_bind (.ofResult _) fun id => .bind_inert (.mapError ?_ _) (showNow_inert inJson)
    exact .of_run (.decided read id) fun _ _ => rfl
  | tasks =>
    exact ((actorOf_inert name).bind fun actor => ((Tasks.of_inert actor).mapError _).bind fun _ =>
      .pure _).callsAs

omit [Supply] in
lemma totals_inert (directory : String) : (totals directory).Inert :=
  (Tasks.dashboard_inert.mapError _).bind fun _ => (Workflows.count_inert.mapError _).bind fun _ =>
    (Directory.countUsers_inert.mapError _).bind fun _ => (Requests.breachCount_inert.mapError _).bind fun _ =>
      .pure _

lemma Command.run_calls (command : Command) (name : Option String) :
    (command.run around name inJson).Calls (Makes around command) := by
  cases command with
  | serve => exact (Inert.fail _).calls
  | complete => exact (Inert.fail _).calls
  | migrate => exact (Inert.pure _).calls
  | directory command => exact command.run_calls
  | workflow command =>
    have calls : ((Command.workflow command).run around name inJson).CallsAs (userIdOf name)
        fun actor call => command.MakesAs around actor call :=
      .of_bind (userIdOf_inert name) fun actor => command.run_calls actor
    exact calls.calls fun _ _ made => made.makes
  | request command => exact (command.run_calls name).calls fun _ _ made => made.makes
  | audit id limit =>
    refine Inert.calls ?_
    cases id with
    | some text =>
      exact (Inert.ofResult _).bind fun id => ((Audit.ofRequest_inert id).mapError _).bind fun _ => .pure _
    | none => exact ((Audit.latest_inert _).mapError _).bind fun _ => .pure _
  | stats => exact ((totals_inert _).bind fun _ => .pure _).calls
  | sweep => exact .bind_inert (.mapError (.of_run .swept fun _ _ => rfl) _) fun _ => .pure _

/-- The world after a command is the one before, or the one after a call of the service. Requests are
started and decided in the name of the actor in whose name the command is run. -/
lemma Command.run_signed (command : Command) (name : Option String) (c : Context) (w : World) :
    (command.run around name inJson c w).2 = w ∨ ∃ call, Makes around command call ∧
      call.SignedBy (fun a => actorOf name c w = (.ok a, w)) ∧
      (command.run around name inJson c w).2 = call.run c w := by
  cases command with
  | request command =>
    have calls : (command.run name inJson).CallsAs (actorOf name) fun a call => command.MakesAs a call :=
      command.run_calls name
    rcases calls c w with quiet | ⟨a, call, acts, made, run⟩
    · exact .inl quiet
    · refine .inr ⟨call, made.makes, ?_, run⟩
      cases made with
      | started => exact .of_start acts
      | decided => exact .of_process acts
  | _ =>
    -- All other commands start and decide nothing.
    rcases run_calls _ name c w with quiet | ⟨call, makes, run⟩
    · exact .inl quiet
    · refine .inr ⟨call, makes, ⟨?_, ?_⟩, run⟩
      all_goals
        rintro _ _ _ rfl
        cases makes

end Commands

end CommandLine

/-! ### Uses -/

variable [Supply]

/-- Steps that do nothing or what an act does lead where acts lead. -/
lemma World.exists_acts_of_steps {σ : Type} {step : World → σ → World} {P : σ → Act → Prop}
    (acts_or_not : ∀ x w, step w x = w ∨ ∃ a, P x a ∧ step w x = a.run w) (xs : List σ) (w : World) :
    ∃ acts, xs.foldl step w = w.after acts ∧ ∀ a ∈ acts, ∃ x ∈ xs, P x a := by
  induction xs generalizing w with
  | nil => exact ⟨[], rfl, by simp⟩
  | cons x xs ih =>
    obtain ⟨acts, same, theirs⟩ := ih (step w x)
    have later : ∀ a ∈ acts, ∃ y ∈ x :: xs, P y a := by
      intro a ha
      obtain ⟨y, mem, made⟩ := theirs a ha
      exact ⟨y, List.mem_cons_of_mem _ mem, made⟩
    rcases acts_or_not x w with quiet | ⟨a, made, run⟩
    · exact ⟨acts, by rw [List.foldl_cons, same, quiet], later⟩
    · refine ⟨a :: acts, ?_, List.forall_mem_cons.mpr ⟨⟨x, List.mem_cons_self, made⟩, later⟩⟩
      rw [List.foldl_cons, same, run]
      rfl

/-- A use of the service: an HTTP call, or a command with what is around it. -/
inductive Use
  | http (call : Http.Call)
  | command (around : CommandLine.Surroundings) (invocation : CommandLine.Invocation)

/-- What a use is answered with: a reply, or what is printed unless the command is not carried out. -/
inductive Answer
  | reply (reply : Http.Reply)
  | output (result : Except CommandLine.Fault CommandLine.Output)

namespace Use

/-- The answer to a use, and the world after it. -/
def run (c : Context) (w : World) : Use → Answer × World
  | .http call =>
    let (reply, w) := call.answer c w
    (.reply reply, w)
  | .command around invocation =>
    let (result, w) := invocation.run around c w
    (.output result, w)

/-- The calls of the service that a use may make. -/
def Makes : Use → ServiceCall → Prop
  | .http call => call.Makes
  | .command around invocation => invocation.command.Makes around

/-- The actors that a use acts as: the one who calls, or the one in whose name a command is run. -/
def ActsAs (c : Context) (w : World) (a : Actor) : Use → Prop
  | .http call => call.actor c w = (.ok a, w)
  | .command _ invocation => CommandLine.actorOf invocation.actor c w = (.ok a, w)

/-- The world after uses, one after the other. -/
def after (uses : List (Context × Use)) (w : World) : World :=
  uses.foldl (fun w use => (use.2.run use.1 w).2) w

/-- The world after a use is the one before, or the one after a call of the service. Requests are started
and decided in the name of those only whom the use acts as. -/
lemma run_calls (use : Use) (c : Context) (w : World) :
    (use.run c w).2 = w ∨ ∃ call, use.Makes call ∧ call.SignedBy (use.ActsAs c w) ∧
      (use.run c w).2 = call.run c w := by
  cases use with
  | http call =>
    rcases call.answer_calls c w with quiet | ⟨a, made, acts, makes, run⟩
    · exact .inl quiet
    · exact .inr ⟨made, makes.makes, makes.signedBy acts, run⟩
  | command around invocation => exact invocation.command.run_signed invocation.actor c w

/-- The world after uses is the one after acts of theirs. -/
lemma exists_acts (uses : List (Context × Use)) (w : World) :
    ∃ acts, after uses w = w.after acts ∧
      ∀ a ∈ acts, ∃ use ∈ uses, a.context = use.1 ∧ use.2.Makes a.call := by
  refine World.exists_acts_of_steps (fun use w => ?_) uses w
  rcases use.2.run_calls use.1 w with quiet | ⟨call, makes, -, run⟩
  · exact .inl quiet
  · exact .inr ⟨⟨use.1, call⟩, ⟨rfl, makes⟩, run⟩

end Use

end Approval
