import Approval.Proofs.Interface.Use
import Approval.Proofs.Json.Depth
import Approval.Proofs.Request.Turns
import Approval.Proofs.Run.Readable

/-!
# What was accepted can be read back

What starting or deciding a request is answered with is the view of a stored request, and who asks for that
request is told the same, unless a condition or a note of it nests too deep where it stands in its row. A
note stands in two containers more than in the text that it came in, so that a context that was accepted
can be too deep as a note.
-/

namespace Approval

open Work

/-! ### Views -/

@[simp]
lemma ofOption_tidyNote (note : Option Json) : Json.ofOption id (tidyNote note) = Json.ofOption id note := by
  rcases note with _ | _ | _ <;> rfl

namespace Request

variable (now : Instant) (r : Request)

@[simp]
lemma steps_view_tidy : (r.tidy.view now).steps = (r.view now).steps.map fun s => ⟨s.step.tidy, s.isLate⟩ := by
  simp only [view, tidy, List.map_map]
  rfl

/-- A view does not tell a null note from none. -/
@[simp] lemma json_view_tidy : (r.tidy.view now).json = (r.view now).json := by
  have step (s : StepView) : (StepView.mk s.step.tidy s.isLate).json = s.json := by
    simp only [StepView.json, StepRecord.tidy, ofOption_tidyNote]
  have order : (r.tidy.view now).currentOrder = (r.view now).currentOrder := by
    simp only [view, current?_tidy, Option.map_map]
    rfl
  unfold RequestView.json
  rw [steps_view_tidy, order, List.map_map]
  simp only [Function.comp_def, step]
  rfl

@[simp] lemma requestLines_view_tidy :
    CommandLine.requestLines (r.tidy.view now) = CommandLine.requestLines (r.view now) := by
  unfold CommandLine.requestLines
  rw [steps_view_tidy, List.map_map]
  rfl

end Request

/-! ### Payloads -/

/-- The payload of a start form is no deeper than text may nest. -/
lemma StartForm.payload_fits {c : Http.Call} {form : StartForm} (read : c.read StartForm.decode = .ok form)
    {v : Json} (h : form.payload = some v) : v.Fits 0 := by
  obtain ⟨d, decoded, bound⟩ := Decoder.exists_doc_of_decodeText (Http.Call.decodeText_of_read read)
  obtain ⟨get, built, parts⟩ := RecordDecoder.exists_of_decode decoded
  obtain ⟨make, first, rest⟩ := Except.bind_eq_ok_iff.mp built
  obtain ⟨payload, second, same⟩ := Except.bind_eq_ok_iff.mp rest
  obtain ⟨workflowId, -, rfl⟩ := Except.map_eq_ok_iff.mp first
  obtain rfl := Except.ok.inj same
  obtain rfl : payload = some v := h
  obtain ⟨part, found, value⟩ := RecordDecoder.exists_of_orNone second
  have within := Decoder.depth_of_json value
  exact Nat.le_trans within (Nat.le_trans (parts _ part found).le bound)

/-- A payload that is handed in is no deeper than text may nest. -/
lemma Use.payload_fits {use : Use} {id : WorkflowId} {requester : UserId} {payload : Json}
    (h : use.Makes (.start id requester payload)) : payload.Fits 0 := by
  have nothing : (Json.object []).Fits 0 := by
    unfold Json.Fits
    decide
  cases use with
  | http call =>
    cases h with
    | @started form read =>
      cases said : form.payload with
      | none => exact nothing
      | some v => exact StartForm.payload_fits read said
  | command around invocation =>
    obtain ⟨command, actor, inJson⟩ := invocation
    cases h with
    | @started workflow data _ read =>
      cases data with
      | none =>
        obtain rfl := Except.ok.inj read
        exact nothing
      | some text =>
        simp only [Option.map_some, Option.getD_some, CommandLine.objectOf] at read
        split at read
        · cases read
        · rename_i found
          obtain rfl := Except.ok.inj read
          exact Json.depth_of_read? found
        · cases read

/-! ### Runs -/

/-- The values that the use hands in have numbers that are what their texts read as. -/
def Use.Verbatim (use : Use) : Prop := ∀ call, use.Makes call → ∀ v ∈ call.values, v.Verbatim

section Supplied

variable [Supply]

/-- After uses in years of four digits requests can be read but for what nests too deep. -/
theorem Use.legible_after (uses : List (Context × Use)) (clock : ∀ use ∈ uses, use.1.now.hasPlainYear = true)
    (numbers : ∀ use ∈ uses, use.2.Verbatim) : (Use.after uses {}).store.Legible := by
  obtain ⟨acts, same, theirs⟩ := Use.exists_acts uses {}
  rw [same]
  refine World.legible_after acts (fun a ha => ?_) fun a ha => ?_
  all_goals obtain ⟨use, mem, context, makes⟩ := theirs a ha
  · refine ⟨context ▸ clock use mem, fun id requester payload starts => ?_⟩
    rw [starts] at makes
    exact Use.payload_fits makes
  · exact numbers use mem a.call makes

/-- No context that the use hands in is too deep for a note, and no condition for a plan. -/
def Use.Modest (use : Use) : Prop := ∀ call, use.Makes call → call.Modest

/-- After modest uses nothing of a request is too deep. -/
theorem Use.shallow_after (uses : List (Context × Use)) (modest : ∀ use ∈ uses, use.2.Modest)
    (numbers : ∀ use ∈ uses, use.2.Verbatim) : ∀ r ∈ (Use.after uses {}).store.requests, r.Shallow := by
  obtain ⟨acts, same, theirs⟩ := Use.exists_acts uses {}
  rw [same]
  refine World.shallow_after acts (fun a ha => ?_) fun a ha => ?_
  all_goals obtain ⟨use, mem, -, makes⟩ := theirs a ha
  · exact modest use mem a.call makes
  · exact numbers use mem a.call makes

/-! ### Answers -/

/-- The answer is the view of a request at a point of time. -/
inductive Answer.Shows (r : Request) (now : Instant) : Answer → Prop
  | reply {status : Nat} (success : status = 200 ∨ status = 201) :
      Shows r now (.reply ⟨status, some (Http.Reply.envelope (r.view now).json (Http.requestLinks r.id))⟩)
  | output (inJson : Bool) : Shows r now
      (.output (.ok (CommandLine.printed inJson (r.view now).json (CommandLine.requestLines (r.view now)))))

omit [Supply] in
/-- A null note is shown as none is. -/
lemma Answer.Shows.of_tidy {r : Request} {now : Instant} {a : Answer} (h : a.Shows r.tidy now) :
    a.Shows r now := by
  cases h with
  | reply success =>
    rw [Request.json_view_tidy]
    exact .reply success
  | output inJson =>
    rw [Request.json_view_tidy, Request.requestLines_view_tidy]
    exact .output inJson

/-- The answer says that the store cannot be read. -/
inductive Answer.Fails : Answer → Prop
  | reply : Fails (.reply (Http.Reply.refused (.failure (.ofStore Store.unreadable))))
  | output : Fails (.output (.error (.failure (.ofStore Store.unreadable))))

/-- The answer is no refusal. -/
def Answer.isSuccess : Answer → Bool
  | .reply answer => answer.status < 300
  | .output result => result.toOption.isSome

namespace Use

/-- The use is to start a request or to decide one. -/
inductive Submits : Use → Prop
  | start {call : Http.Call} (path : Http.Resource.ofPath? call.target.path = some .requests)
      (method : call.method = .post) : Submits (.http call)
  | process {call : Http.Call} {part : String}
      (path : Http.Resource.ofPath? call.target.path = some (.processing part))
      (method : call.method = .post) : Submits (.http call)
  | decide {call : Http.Call} {part : String}
      (path : Http.Resource.ofPath? call.target.path = some (.decision part))
      (method : call.method = .post) : Submits (.http call)
  | startCommand (around : CommandLine.Surroundings) (workflow : String) (data actor : Option String)
      (inJson : Bool) : Submits (.command around ⟨.request (.start workflow data), actor, inJson⟩)
  | processCommand (around : CommandLine.Surroundings) (text outcome : String)
      (comment context : Option String) (version : Option Int) (actor : Option String) (inJson : Bool) :
      Submits (.command around ⟨.request (.process text outcome comment context version), actor, inJson⟩)

/-- The use asks for a request, by an actor who is known if it is an HTTP call. -/
inductive Asks (c : Context) (w : World) (id : RequestId) : Use → Prop
  | http {call : Http.Call} {part text : String} {actor : Actor}
      (path : Http.Resource.ofPath? call.target.path = some (.request part)) (method : call.method = .get)
      (known : call.actor c w = (.ok actor, w)) (said : Http.pathText part = .ok text)
      (names : Id.parse? text = some id) : Asks c w id (.http call)
  | command (around : CommandLine.Surroundings) {text : String} (actor : Option String) (inJson : Bool)
      (names : Id.parse? text = some id) : Asks c w id (.command around ⟨.request (.view text), actor, inJson⟩)

end Use

section Runs

variable {c : Context} {w w' : World} {id : RequestId}

/-! ### Asking -/

namespace Use

/-- An HTTP call that asks for a request is handled by reading that. -/
lemma handle_of_asks {call : Http.Call} (asks : (Use.http call).Asks c w id) :
    call.handle c w = (mapError .failure (Requests.get id) >>= fun q => do
      return .found (← Http.viewNow q) (Http.requestLinks id)) c w := by
  obtain ⟨path, method, known, said, names⟩ := asks
  rename_i part text actor
  have handler : call.handle = Http.showRequest part call := by
    simp only [Http.Call.handle, path, method, Http.handler?]
    rfl
  have named : Http.idOf "request id" text = .ok id := by simp only [Http.idOf, names]
  rw [handler, Http.showRequest, bind_of_ok known, said, bind_of_ok (ofResult_run _), named,
    bind_of_ok (ofResult_run _)]
  rfl

/-- A command that asks for a request is run by reading that. -/
lemma run_view {text : String} (names : Id.parse? text = some id) (inJson : Bool) (name : Option String) :
    (CommandLine.RequestCommand.view text).run name inJson c w =
      (mapError .failure (Requests.get id) >>= CommandLine.showNow inJson) c w := by
  have named : CommandLine.idOf "request" text = .ok id := by simp only [CommandLine.idOf, names]
  rw [CommandLine.RequestCommand.run, named, bind_of_ok (ofResult_run _)]
  rfl

variable {use : Use}

/-- Who asks for a request that can be read is shown it. -/
lemma shows_of_asks (asks : use.Asks c w id) {q : Request} (found : Requests.get id c w = (.ok q, w))
    (same : q.id = id) : (use.run c w).1.Shows q c.now := by
  subst same
  cases use with
  | http call =>
    have handled := (handle_of_asks asks).trans (bind_of_ok (mapError_of_ok found))
    obtain ⟨-, method, -, -, -⟩ := asks
    simp only [run, Http.Call.answer, method, handled]
    exact .reply (.inl rfl)
  | command around invocation =>
    cases asks with
    | command _ actor inJson names =>
      have shown := (run_view names inJson actor).trans (bind_of_ok (mapError_of_ok found))
      simp only [run, CommandLine.Invocation.run, CommandLine.Command.run, shown]
      exact .output inJson

/-- Who asks for a request that cannot be read is told so. -/
lemma fails_of_asks (asks : use.Asks c w id)
    (failed : Requests.get id c w = (.error (.ofStore Store.unreadable), w)) : (use.run c w).1.Fails := by
  cases use with
  | http call =>
    have handled := (handle_of_asks asks).trans (bind_of_error (mapError_of_error failed))
    obtain ⟨-, method, -, -, -⟩ := asks
    simp only [run, Http.Call.answer, method, handled]
    exact .reply
  | command around invocation =>
    cases asks with
    | command _ actor inJson names =>
      have shown := (run_view names inJson actor).trans (bind_of_error (mapError_of_error failed))
      simp only [run, CommandLine.Invocation.run, CommandLine.Command.run, shown]
      exact .output

end Use

/-! ### Submitting -/

/-- A request that was started is stored. -/
lemma Requests.stored_of_start {workflowId : WorkflowId} {requester : UserId} {payload : Json} {r : Request}
    (h : start workflowId requester payload c w = (.ok r, w')) : r ∈ w'.store.requests := by
  obtain ⟨wf, -, -, entered⟩ := start_eq_ok_iff.mp h
  obtain ⟨-, -, -, -, first, -, rfl⟩ := enter_eq_ok_iff.mp entered
  exact List.mem_append_right _ (List.mem_singleton_self _)

/-- A request that was decided is stored as it is answered. -/
lemma Store.Legible.stored_of_process (legible : w.store.Legible) {actor : Actor} {d : Decision} {r : Request}
    (h : Requests.process id actor d c w = (.ok r, w')) : r ∈ w'.store.requests ∧ r.id = id := by
  obtain ⟨row, stored, current, x, rfl, reads, decides, -, rfl, rfl⟩ :=
    (Requests.process_eq_ok_iff legible.keyed).mp h
  have same := (legible.verbatim row stored).updateRow_decide (legible.alive row stored) reads decides
  refine ⟨(Requests.mem_requests_decided legible.keyed stored reads decides).mpr (.inr same.symm), ?_⟩
  rw [Request.id_of_decide decides, Request.id_of_readBack? reads]

namespace Http

variable {call : Call} {reply : Reply}

/-- What a call that starts a request is answered with if it succeeds. -/
lemma startRequest_eq_ok (h : startRequest call c w = (.ok reply, w')) :
    ∃ workflowId requester payload r, Requests.start workflowId requester payload c w = (.ok r, w') ∧
      reply = .created (r.view c.now).json (requestLinks r.id) := by
  obtain ⟨actor, -, h⟩ := call.actor_inert.bind_eq_ok h
  obtain ⟨form, -, h⟩ := (Inert.ofResult _).bind_eq_ok h
  obtain ⟨r, v, started, h⟩ := bind_eq_ok_iff.mp h
  obtain ⟨same, rfl⟩ := Prod.mk.inj h
  obtain rfl := Except.ok.inj same
  exact ⟨_, _, _, r, mapError_eq_ok_iff.mp started, rfl⟩

/-- What a call that decides a request is answered with if it succeeds. -/
lemma decideRequest_eq_ok {part : String} {decode : Decoder Decision}
    (h : decideRequest part decode call c w = (.ok reply, w')) :
    ∃ id actor d r, Requests.process id actor d c w = (.ok r, w') ∧
      reply = .found (r.view c.now).json (requestLinks id) := by
  obtain ⟨actor, -, h⟩ := call.actor_inert.bind_eq_ok h
  obtain ⟨text, -, h⟩ := (Inert.ofResult _).bind_eq_ok h
  obtain ⟨d, -, h⟩ := (Inert.ofResult _).bind_eq_ok h
  obtain ⟨id, -, h⟩ := (Inert.ofResult _).bind_eq_ok h
  obtain ⟨r, v, decided, h⟩ := bind_eq_ok_iff.mp h
  obtain ⟨same, rfl⟩ := Prod.mk.inj h
  obtain rfl := Except.ok.inj same
  exact ⟨id, actor, d, r, mapError_eq_ok_iff.mp decided, rfl⟩

omit [Supply] in
/-- A refusal has the status of an error. -/
lemma status_refused (refusal : Refusal) : 300 ≤ (Reply.refused refusal).status := by
  cases refusal with
  | failure cause => cases cause <;> simp [Reply.refused, Refusal.statusAndCode]
  | argument cause => simp [Reply.refused, Refusal.statusAndCode]
  | broken text => simp [Reply.refused, Refusal.statusAndCode]
  | rejection cause => cases cause <;> decide

/-- A call that is answered with success was handled with it. -/
lemma Call.handle_of_success (method : call.method = .post)
    (success : (Use.run c w (.http call)).1.isSuccess = true) :
    ∃ reply w', call.handle c w = (.ok reply, w') ∧ Use.run c w (.http call) = (.reply reply, w') := by
  rcases handled : call.handle c w with ⟨refusal | reply, w'⟩
  · simp only [Use.run, answer, method, handled, Answer.isSuccess] at success
    have := status_refused refusal
    simp at success
    omega
  · exact ⟨reply, w', rfl, by simp [Use.run, answer, method, handled]⟩

end Http

namespace Use

/-- An HTTP call that submits and succeeds is answered with the view of a request that is stored. -/
lemma exists_of_http {call : Http.Call} (legible : w.store.Legible) (submits : (Use.http call).Submits)
    {reply : Http.Reply} (handled : call.handle c w = (.ok reply, w')) :
    ∃ r ∈ w'.store.requests, Answer.Shows r c.now (.reply reply) := by
  have decided {part : String} {decode : Decoder Decision}
      (h : Http.decideRequest part decode call c w = (.ok reply, w')) :
      ∃ r ∈ w'.store.requests, Answer.Shows r c.now (.reply reply) := by
    obtain ⟨id, actor, d, r, processed, rfl⟩ := Http.decideRequest_eq_ok h
    obtain ⟨stored, rfl⟩ := legible.stored_of_process processed
    exact ⟨r, stored, .reply (.inl rfl)⟩
  cases submits with
  | start path method =>
    simp only [Http.Call.handle, path, method, Http.handler?] at handled
    obtain ⟨workflowId, requester, payload, r, started, rfl⟩ := Http.startRequest_eq_ok handled
    exact ⟨r, Requests.stored_of_start started, .reply (.inr rfl)⟩
  | process path method =>
    simp only [Http.Call.handle, path, method, Http.handler?] at handled
    exact decided handled
  | decide path method =>
    simp only [Http.Call.handle, path, method, Http.handler?] at handled
    exact decided handled

/-- A command that submits and succeeds prints the view of a request that is stored. -/
lemma exists_of_command {around : CommandLine.Surroundings} {i : CommandLine.Invocation}
    (legible : w.store.Legible) (submits : (Use.command around i).Submits) {output : CommandLine.Output}
    (ran : i.run around c w = (.ok output, w')) :
    ∃ r ∈ w'.store.requests, Answer.Shows r c.now (.output (.ok output)) := by
  cases submits with
  | startCommand _ workflow data actor inJson =>
    obtain ⟨acting, -, h⟩ := (CommandLine.actorOf_inert actor).bind_eq_ok ran
    obtain ⟨id, -, h⟩ := (Inert.ofResult _).bind_eq_ok h
    obtain ⟨payload, -, h⟩ := (Inert.ofResult _).bind_eq_ok h
    obtain ⟨r, v, started, h⟩ := bind_eq_ok_iff.mp h
    obtain ⟨same, rfl⟩ := Prod.mk.inj h
    obtain rfl := Except.ok.inj same
    exact ⟨r, Requests.stored_of_start (mapError_eq_ok_iff.mp started), .output inJson⟩
  | processCommand _ text outcome comment context version actor inJson =>
    obtain ⟨d, -, h⟩ := (Inert.ofResult _).bind_eq_ok ran
    obtain ⟨acting, -, h⟩ := (CommandLine.actorOf_inert actor).bind_eq_ok h
    obtain ⟨id, -, h⟩ := (Inert.ofResult _).bind_eq_ok h
    obtain ⟨r, v, decided, h⟩ := bind_eq_ok_iff.mp h
    obtain ⟨same, rfl⟩ := Prod.mk.inj h
    obtain rfl := Except.ok.inj same
    obtain ⟨stored, -⟩ := legible.stored_of_process (mapError_eq_ok_iff.mp decided)
    exact ⟨r, stored, .output inJson⟩

/-- What submits and succeeds is answered with the view of a request that is stored. -/
lemma exists_of_submits {use : Use} (legible : w.store.Legible) (submits : use.Submits)
    (success : (use.run c w).1.isSuccess = true) :
    ∃ r ∈ (use.run c w).2.store.requests, (use.run c w).1.Shows r c.now := by
  cases use with
  | http call =>
    have method : call.method = .post := by cases submits <;> assumption
    obtain ⟨reply, w', handled, ran⟩ := Http.Call.handle_of_success method success
    rw [ran]
    exact exists_of_http legible submits handled
  | command around i =>
    rcases ran : i.run around c w with ⟨fault | output, w'⟩
    · simp [run, ran, Answer.isSuccess, Except.toOption] at success
    · simp only [run, ran]
      exact exists_of_command legible submits ran

end Use

end Runs

/-! ### Reading back -/

/-- What is told of the requests of a world. -/
structure World.Tells (w : World) : Prop where
  /-- Who asks for a request that is not too deep is shown it. -/
  shows : ∀ r ∈ w.store.requests, r.Shallow → ∀ (c : Context) (use : Use), use.Asks c w r.id →
    (use.run c w).1.Shows r c.now
  /-- Who asks for one that is too deep is told that it cannot be read. -/
  fails : ∀ r ∈ w.store.requests, ¬r.Shallow → ∀ (c : Context) (use : Use), use.Asks c w r.id →
    (use.run c w).1.Fails
  /-- Requests are listed if none is too deep. -/
  list : (∀ r ∈ w.store.requests, r.Shallow) → ∀ c f, ∃ rs, Requests.list f c w = (.ok rs, w)
  /-- Tasks are listed, requests are counted and late steps are looked for exactly if no open request is
  too deep. -/
  tasks : ∀ c actor, (Tasks.of actor).ReadsIf w.store.OpenShallow c w
  dashboard : ∀ c, Tasks.dashboard.ReadsIf w.store.OpenShallow c w
  sweep : ∀ c, Sweep.once.ReadsIf w.store.OpenShallow c w

/-- After any uses in years of four digits, whose values have numbers that are what their texts read as,
requests are told of unless they are too deep, whatever their payloads are. None is if no context and no
condition was too deep where it is stored. What the last use was answered with, if it has started or
decided a request, is the view of a stored one. -/
theorem Use.tells_after (uses : List (Context × Use)) (clock : ∀ use ∈ uses, use.1.now.hasPlainYear = true)
    (numbers : ∀ use ∈ uses, use.2.Verbatim) :
    (after uses {}).Tells ∧
      ((∀ use ∈ uses, use.2.Modest) → ∀ r ∈ (after uses {}).store.requests, r.Shallow) ∧
      ∀ (before : List (Context × Use)) (c : Context) (use : Use), uses = before ++ [(c, use)] → use.Submits →
        (use.run c (after before {})).1.isSuccess = true →
        ∃ r ∈ (after uses {}).store.requests, (use.run c (after before {})).1.Shows r c.now := by
  have legible := legible_after uses clock numbers
  refine ⟨?_, fun modest => shallow_after uses modest numbers, ?_⟩
  · exact
      { shows := fun r stored shallow c use asks =>
          (shows_of_asks asks (legible.get_eq stored shallow) rfl).of_tidy
        fails := fun r stored deep c use asks => fails_of_asks asks (legible.get_fails stored deep)
        list := fun shallow c f => legible.list_eq shallow f
        tasks := fun c actor => legible.readsIf_tasks actor
        dashboard := fun c => legible.readsIf_dashboard
        sweep := fun c => legible.readsIf_sweep }
  · rintro before c use rfl submits success
    have legible := legible_after before (fun u hu => clock u (List.mem_append_left _ hu))
      fun u hu => numbers u (List.mem_append_left _ hu)
    have last : after (before ++ [(c, use)]) {} = (use.run c (after before {})).2 := by
      rw [after, List.foldl_append]
      rfl
    rw [last]
    exact exists_of_submits legible submits success

end Supplied

/-! ### A run of commands -/

namespace Leave

/-- A file with the workflow whose only step may be taken again. -/
def file : String :=
  "\x7b\"name\":\"leave\",\"steps\":[\x7b\"step_order\":1,\"name\":\"lead\"\x7d],\"transitions\":[" ++
    "\x7b\"from_step_order\":1,\"outcome\":\"MORE\",\"to_step_order\":1\x7d," ++
    "\x7b\"from_step_order\":1,\"outcome\":\"APPROVED\",\"to_step_order\":null\x7d]\x7d"

/-- A command that is run in the name of the user who creates the workflow. -/
def use (command : CommandLine.Command) : Context × Use :=
  (clock 12, .command ⟨"data", fun _ => some file⟩ ⟨command, some "root", false⟩)

/-- The request is started and taken again with a context or a comment. -/
def commands (comment context : Option String) : List (Context × Use) :=
  [use (.directory (.createUser ⟨"root", none, []⟩)),
   use (.workflow (.create "leave.yaml")),
   use (.request (.start (Id.serial .workflow 1).text none)),
   use (.request (.process request.text "MORE" comment context none))]

/-- The workflow of the file has no conditions. -/
lemma values_of_file {d : Draft} (read : Draft.ofDocument file = .ok d) :
    d.rules.filterMap Rule.value? = [] := by
  have none_named : ((Draft.ofDocument file).toOption.all fun d =>
      (d.rules.filterMap Rule.value?).isEmpty) = true := by decide +kernel
  rw [read] at none_named
  exact List.isEmpty_iff.mp none_named

/-- What is handed in with a comment is not too deep, and has no numbers. -/
lemma modest_of_comment {use : Context × Use} (mem : use ∈ commands (some "one more round") none)
    {call : ServiceCall} (makes : use.2.Makes call) : call.Modest ∧ ∀ v ∈ call.values, v.Verbatim := by
  simp only [commands, List.mem_cons, List.not_mem_nil, or_false] at mem
  rcases mem with rfl | rfl | rfl | rfl
  · cases makes with
    | createdUser => exact ⟨⟨by simp [ServiceCall.context?], by simp⟩, by simp [ServiceCall.values]⟩
  · cases makes with
    | createdWorkflow found read actor =>
      obtain rfl := Option.some.inj found
      have none_named := values_of_file read
      refine ⟨⟨by simp [ServiceCall.context?], ?_⟩, by simp [ServiceCall.values, none_named]⟩
      rintro _ _ ⟨⟩
      simp [none_named]
  · cases makes with
    | started read id requester =>
      obtain rfl := Except.ok.inj read
      refine ⟨⟨by simp [ServiceCall.context?], by simp⟩, fun v hv => ?_⟩
      obtain rfl : v = .object [] := by simpa [ServiceCall.values] using hv
      rfl
  · cases makes with
    | decided read id actor =>
      obtain rfl := Except.ok.inj read
      refine ⟨⟨?_, by simp⟩, fun v hv => ?_⟩
      · rintro _ ⟨⟩
        unfold Json.Fits
        decide
      · obtain rfl : v = .object [("comment", .text "one more round")] := by
          simpa [ServiceCall.values] using hv
        rfl

/-- The request is taken again with a comment, and who asks for it is shown what that was answered with. -/
theorem tells_after_comment :
    (∀ use ∈ commands (some "one more round") none, use.1.now.hasPlainYear = true) ∧
      (∀ use ∈ commands (some "one more round") none, use.2.Verbatim) ∧
      ∃ r ∈ (Use.after (commands (some "one more round") none) {}).store.requests,
        ((use (.request (.process request.text "MORE" (some "one more round") none none))).2.run (clock 12)
          (Use.after ((commands (some "one more round") none).take 3) {})).1.Shows r (clock 12).now ∧
        ((use (.request (.view request.text))).2.run (clock 12)
          (Use.after (commands (some "one more round") none) {})).1.Shows r (clock 12).now := by
  have clock_plain : ∀ use ∈ commands (some "one more round") none, use.1.now.hasPlainYear = true := by
    simp only [commands, use, List.forall_mem_cons, List.not_mem_nil, false_implies, implies_true, and_true,
      and_self]
    decide +kernel
  have numbers : ∀ use ∈ commands (some "one more round") none, use.2.Verbatim :=
    fun use mem call makes => (modest_of_comment mem makes).2
  have modest : ∀ use ∈ commands (some "one more round") none, use.2.Modest :=
    fun use mem call makes => (modest_of_comment mem makes).1
  obtain ⟨tells, shallow, last⟩ := Use.tells_after _ clock_plain numbers
  have ran : ((use (.request (.process request.text "MORE" (some "one more round") none none))).2.run (clock 12)
        (Use.after ((commands (some "one more round") none).take 3) {})).1.isSuccess = true ∧
      ∀ r ∈ (Use.after (commands (some "one more round") none) {}).store.requests, r.id = request := by
    decide +kernel
  obtain ⟨r, stored, shown⟩ := last _ _ _ rfl (.processCommand ..) ran.1
  refine ⟨clock_plain, numbers, r, stored, shown, ?_⟩
  refine tells.shows r stored (shallow modest r stored) _ _ ?_
  rw [ran.2 r stored]
  exact .command _ _ _ (by decide +kernel)

/-- An object with a member of so many arrays. -/
def nested (n : Nat) : String :=
  String.ofList ("\x7b\"a\":".toList ++ List.replicate n '[' ++ List.replicate n ']' ++ ['\x7d'])

/-- The deepest context that can be handed in with a call is accepted, and afterwards the request, the
list, the tasks, the counts and the sweep all fail. -/
theorem fails_of_nested :
    ((use (.request (.process request.text "MORE" none (some (nested 125)) none))).2.run (clock 12)
        (Use.after ((commands none (some (nested 125))).take 3) {})).1.isSuccess = true ∧
      ∀ command ∈ [CommandLine.Command.request (.view request.text), .request (.list none false 50),
        .request .tasks, .stats, .sweep],
        ((use command).2.run (clock 12) (Use.after (commands none (some (nested 125))) {})).1 matches
          .output (.error (.failure (.storage _))) := by
  decide +kernel

end Leave

end Approval
