import Agentops.Agent.Callers
import Agentops.Foundations.Refinement
import Agentops.Workflow.ApprovalGate

/-!
# Who may bring about a refund

The API takes chat requests, whose turns start the workflows, and calls of the approval route, which send them a
message. The route asks for the token of an employee, also where tokens are not required. So every refund was asked for
by a customer's own turn, and one above the threshold was approved by an employee, whatever models and callers do.
-/

namespace Agentops

open DurableExecution LabelledRun

/-- `require_staff`. -/
def requireStaff (user : CurrentUser) : Except HttpException CurrentUser :=
  if user.isStaff then .ok user else .error ⟨403, "Staff role required"⟩

/-- `workflow_approval`, up to the signal: the message that it sends. -/
def workflowApproval (required : Bool) (authorization : Option String) (verified : Except HttpException Claims)
    (approved : Bool) : Except HttpException ApprovalInput := do
  let caller ← getCurrentUser (fun _ => verified) authorization
  let user ← requireUser required caller
  let staff ← requireStaff user
  return ⟨approved, staff.userId⟩

/-- What can happen to the API: a call of the approval route, with what the check of its token comes to, and everything
else. Only the route sends messages to workflows. -/
inductive ApiEvent
  | approval (authorization : Option String) (verified : Except HttpException Claims) (workflowId : String)
      (approved : Bool)
  | chat (e : ChatEvent)

/-- One event of the API. -/
def apiStep (required : Bool) (collation : Collation) (upper lower : String → String) (s : ChatSystem) :
    ApiEvent → Option ChatSystem
  | .approval authorization verified workflowId approved =>
    match workflowApproval required authorization verified approved with
    | .error _ => some s
    | .ok message => chatStep required collation upper lower s (.system (.send workflowId message))
  | .chat (.system (.send _ _)) => none
  | .chat e => chatStep required collation upper lower s e

/-- What an event of the API does to the chats: itself, or the message of a call of the approval route. -/
inductive ApiEvent.Does (required : Bool) : ApiEvent → ChatEvent → Prop
  | chat (e : ChatEvent) (he : ∀ id message, e ≠ .system (.send id message)) : Does required (.chat e) e
  | approval (authorization : Option String) (verified : Except HttpException Claims) (id : String) (approved : Bool)
      (message : ApprovalInput) (h : workflowApproval required authorization verified approved = .ok message) :
      Does required (.approval authorization verified id approved) (.system (.send id message))

/-- Every event of the API does something to the chats, or nothing. -/
theorem apiStep_does {required : Bool} {collation : Collation} {upper lower : String → String} {s s' : ChatSystem}
    {e : ApiEvent} (hstep : apiStep required collation upper lower s e = some s') :
    s' = s ∨ ∃ c, e.Does required c ∧ chatStep required collation upper lower s c = some s' := by
  cases e with
  | approval authorization verified workflowId approved =>
    simp only [apiStep] at hstep
    cases hroute : workflowApproval required authorization verified approved with
    | error refusal =>
      rw [hroute] at hstep
      exact .inl (Option.some.inj hstep).symm
    | ok message =>
      rw [hroute] at hstep
      exact .inr ⟨_, .approval authorization verified workflowId approved message hroute, hstep⟩
  | chat e =>
    have hchat : chatStep required collation upper lower s e = some s' ∧
        ∀ id message, e ≠ .system (.send id message) := by
      unfold apiStep at hstep
      split at hstep <;> simp_all
    exact .inr ⟨e, .chat e hchat.2, hchat.1⟩

/-- The caller has a token, and the token is this employee's. -/
def ByStaff (authorization : Option String) (verified : Except HttpException Claims) (employee : String) : Prop :=
  nonEmpty authorization ≠ none ∧
    ∃ claims, verified = .ok claims ∧ claims.sub = employee ∧ ∃ role ∈ claims.roles.getD [], role ∈ staffRoles

section Route

variable {required : Bool} {authorization : Option String} {verified : Except HttpException Claims}

/-- A caller that is known has a token that was found valid. -/
theorem getCurrentUser_eq_some {user : CurrentUser}
    (h : getCurrentUser (fun _ => verified) authorization = .ok (some user)) :
    nonEmpty authorization ≠ none ∧ ∃ claims, verified = .ok claims ∧ user = userFromClaims claims := by
  unfold getCurrentUser at h
  cases hheader : nonEmpty authorization with
  | none => simp [hheader] at h
  | some header =>
    refine ⟨by simp, ?_⟩
    simp only [hheader] at h
    split at h
    · cases h
    · cases hverified : verified with
      | error e => simp [hverified, Except.map] at h
      | ok claims =>
        simp only [hverified, Except.map, Except.ok.injEq, Option.some.injEq] at h
        exact ⟨claims, rfl, h.symm⟩

/-- What comes after a step is done with its result. -/
theorem exists_of_bind_eq_ok {E A B : Type} {x : Except E A} {f : A → Except E B} {b : B} (h : (x >>= f) = .ok b) :
    ∃ a, x = .ok a ∧ f a = .ok b := by
  cases x with
  | error e => cases h
  | ok a => exact ⟨a, rfl, h⟩

/-- Only an employee's call sends a message, also where no token is required, and in the employee's name. -/
theorem workflowApproval_eq_ok {approved : Bool} {message : ApprovalInput}
    (h : workflowApproval required authorization verified approved = .ok message) :
    message.approved = approved ∧ ByStaff authorization verified message.approvedBy := by
  obtain ⟨caller, hcaller, h⟩ := exists_of_bind_eq_ok h
  obtain ⟨user, huser, h⟩ := exists_of_bind_eq_ok h
  obtain ⟨staff, hstaff, h⟩ := exists_of_bind_eq_ok h
  obtain rfl := Except.ok.inj h
  have hstaffUser : user.isStaff = true ∧ staff = user := by
    cases hrole : user.isStaff with
    | true =>
      rw [requireStaff, if_pos hrole] at hstaff
      exact ⟨rfl, (Except.ok.inj hstaff).symm⟩
    | false => simp [requireStaff, hrole] at hstaff
  obtain ⟨hrole, rfl⟩ := hstaffUser
  cases caller with
  | none =>
    -- the user of local work is a customer
    cases required with
    | true => cases huser
    | false =>
      obtain rfl := Except.ok.inj huser
      exact absurd hrole (by decide)
  | some owner =>
    obtain rfl := Except.ok.inj huser
    obtain ⟨htoken, claims, hverified, rfl⟩ := getCurrentUser_eq_some hcaller
    obtain ⟨role, hmem, hstaffRole⟩ := List.any_eq_true.mp hrole
    exact ⟨rfl, htoken, claims, hverified, rfl, role, hmem, by simpa using hstaffRole⟩

end Route

/-- The message was sent by a call of an employee. -/
def Approves (past : List ApiEvent) (id : String) (message : ApprovalInput) : Prop :=
  ∃ authorization verified, .approval authorization verified id message.approved ∈ past ∧
    ByStaff authorization verified message.approvedBy

/-- The event leaves prices alone. -/
def ApiEvent.KeepsPrices : ApiEvent → Prop
  | .chat (.system e) => e.Admissible Outside.KeepsPrices
  | _ => True

namespace ChatSystem

/-- The workflow system of the API is that of a run of its own, in which runs are started under the ids of their orders
and messages are sent by the approval route only. -/
def Accounted (db : Database) (past : List ApiEvent) (s : ChatSystem) : Prop :=
  ∃ events : List OrderEvent, runFrom orderService.step (System.initial db) events = some s.system ∧
    ((∀ e ∈ past, e.KeepsPrices) → ∀ x ∈ events, x.Admissible Outside.KeepsPrices) ∧
    (∀ id input, .start id input ∈ events → id = input.tool.workflowId input.request.orderNumber) ∧
    ∀ id message, .send id message ∈ events → Approves past id message

section Steps

variable {required : Bool} {collation : Collation} {upper lower : String → String} {s s' : ChatSystem}

/-- A call of `request_refund` that the tool node of the turn has to execute names the order. -/
def CallsRefund (s : ChatSystem) (i k : ℕ) (n : ℤ) : Prop :=
  ∃ turn agent call orderId, s.turns[i]? = some turn ∧ turn.position.place = .node (.tools agent) ∧
    (executedCalls agent turn.position.state)[k]? = some call ∧ call.name = "request_refund" ∧
    textArg "order_id" call.args = some orderId ∧ (parseOrderId orderId).number? = some n

/-- A turn starts a workflow: for a refund that a call of it names, or for a cancellation. -/
inductive Starts (s : ChatSystem) (i : ℕ) : ChatEvent → WorkflowInput → Prop
  | refund (k : ℕ) (now : String) (input : OrderActionInput) (hcall : s.CallsRefund i k input.orderNumber) :
      Starts s i (.toolCall i k now) (.refund input)
  | cancelOrder (e : ChatEvent) (input : OrderActionInput) : Starts s i e (.cancelOrder input)

/-- The workflows stay as they are, or a turn starts one, or something else happens to them. -/
inductive ChangesRuns (s : ChatSystem) (e : ChatEvent) (s' : ChatSystem) : Prop
  | quiet (hsystem : s'.system = s.system) (hstarters : s'.starters = s.starters)
  | started (i : ℕ) (input : WorkflowInput) (hstarts : s.Starts i e input)
      (hsystem : s'.system = (s.start i input).system) (hstarters : s'.starters = (s.start i input).starters)
  | moved (x : OrderEvent) (he : e = .system x) (hx : ∀ id input, x ≠ .start id input)
      (hsystem : orderService.step s.system x = some s'.system) (hstarters : s'.starters = s.starters)

/-- What a tool reads or notes down leaves the workflows alone. -/
theorem ChangesRuns.access (collation : Collation) (upper : String → String) (i : ℕ) (u : String) {op : CustomerOp}
    {s : ChatSystem} {e : ChatEvent} (hsame : (op.perform collation upper u s.tables).2.db = s.system.db) :
    s.ChangesRuns e (s.access collation upper i u op) :=
  .quiet (by simp only [ChatSystem.access, hsame]) rfl

/-- A tool call starts a refund that it names, or leaves the workflows alone. -/
theorem changesRuns_act {i k : ℕ} {now : String} {action : ToolAction}
    (hcall : ∀ input, action = .startRefund input → s.CallsRefund i k input.orderNumber) :
    s.ChangesRuns (.toolCall i k now) (s.act collation upper i now action) := by
  have hread : ∀ n u, ((CustomerOp.getOrderStatus n).perform collation upper u s.tables).2.db = s.system.db := by
    intro n u
    simp only [CustomerOp.perform, StoreTables.transact, getOrderStatusRow_run]
    rfl
  cases action with
  | nothing => exact .quiet rfl rfl
  | readCounts => exact .quiet rfl rfl
  | readOrder n customerId => exact .access collation upper i customerId (hread n customerId)
  | checkCancellation n customerId =>
    have hlooked : (s.access collation upper i customerId (.getOrderStatus n)).system = s.system := by
      simp only [ChatSystem.access, hread]
    rw [ChatSystem.act, getOrderStatusRow_run]
    cases s.system.db.findOrder n customerId with
    | none => exact .quiet hlooked rfl
    | some o =>
      by_cases hstatus : o.status ∈ cancellableOrderStatuses
      · simp only [Option.map_some, hstatus, if_true]
        exact .quiet hlooked rfl
      · simp only [Option.map_some, hstatus, if_false]
        exact .quiet hlooked rfl
  | startRefund input => exact .started i _ (.refund k now input (hcall input rfl)) rfl rfl
  | saveMemory userId key value =>
    exact .access collation upper i userId (CustomerOp.db_saveMemory collation upper key value now)
  | readMemories userId => exact .access collation upper i userId (CustomerOp.db_getMemories collation upper)

/-- What an event of the chats does to the workflows. -/
theorem changesRuns_of_chatStep {e : ChatEvent} (hstep : chatStep required collation upper lower s e = some s') :
    s.ChangesRuns e s' := by
  cases e with
  | request authorization verified request admitted =>
    obtain rfl := Option.some.inj hstep
    unfold ChatSystem.receive
    cases effectiveUserId (fun _ => verified) required authorization request with
    | error refusal => exact .quiet rfl rfl
    | ok userId => cases admitted <;> exact .quiet rfl rfl
  | superstep i o =>
    simp only [chatStep, ChatSystem.superstep, Option.bind_eq_bind, Option.bind_eq_some_iff] at hstep
    obtain ⟨turn, -, position, -, hstep⟩ := hstep
    cases hplace : position.place <;>
    · rw [hplace] at hstep
      obtain rfl := Option.some.inj hstep
      exact .quiet rfl rfl
  | toolCall i k now =>
    simp only [chatStep, ChatSystem.callTool, Option.bind_eq_bind, Option.bind_eq_some_iff] at hstep
    obtain ⟨turn, hturn, hstep⟩ := hstep
    split at hstep
    case h_1 agent hplace =>
      simp only [Option.bind_eq_some_iff] at hstep
      obtain ⟨call, hexecuted, userId, -, hstep⟩ := hstep
      obtain rfl := Option.some.inj hstep
      refine changesRuns_act fun input hinput => ?_
      obtain ⟨hname, orderId, horderId, hn⟩ := exists_of_toolAction_eq_startRefund hinput
      exact ⟨turn, agent, call, orderId, hturn, hplace, hexecuted, hname, horderId, hn⟩
    case h_2 => cases hstep
  | startChecked k =>
    simp only [chatStep, ChatSystem.startChecked] at hstep
    cases hk : s.checked[k]? with
    | none => simp [hk] at hstep
    | some checked =>
      rw [hk] at hstep
      obtain rfl := Option.some.inj hstep
      exact .started checked.1 (.cancelOrder checked.2) (.cancelOrder _ _) rfl rfl
  | expire key =>
    obtain rfl := Option.some.inj hstep
    exact .quiet rfl rfl
  | system x =>
    cases x with
    | start workflowId input => cases hstep
    | _ =>
      simp only [chatStep] at hstep
      obtain ⟨system, hsystem, rfl⟩ := Option.map_eq_some_iff.mp hstep
      exact .moved _ rfl (by simp) hsystem rfl

/-- A start is an event of the workflow system. -/
theorem step_start (i : ℕ) (input : WorkflowInput) (s : ChatSystem) :
    orderService.step s.system (.start (input.tool.workflowId input.request.orderNumber) input) =
      some (s.start i input).system := by
  cases hopen : s.system.openRun (input.tool.workflowId input.request.orderNumber) with
  | some j => simp [Service.step, ChatSystem.start, startWorkflow_joined hopen, hopen]
  | none => simp [Service.step, ChatSystem.start, startWorkflow_new hopen, hopen]

/-- A step of the workflow system that can be accounted for. -/
theorem Accounted.moved {db : Database} {past : List ApiEvent} (h : s.Accounted db past) {e : ApiEvent} {x : OrderEvent}
    (hx : orderService.step s.system x = some s'.system)
    (hprices : e.KeepsPrices → x.Admissible Outside.KeepsPrices)
    (hstart : ∀ id input, x = .start id input → id = input.tool.workflowId input.request.orderNumber)
    (hsend : ∀ id message, x = .send id message → Approves [e] id message) : s'.Accounted db (past ++ [e]) := by
  obtain ⟨events, hrun, hadmissible, hstarts, hsends⟩ := h
  refine ⟨events ++ [x], (runFrom_append_eq_some _).mpr ⟨_, hrun, (runFrom_singleton _ _ _).trans hx⟩, ?_, ?_, ?_⟩
  · intro hkept y hy
    rcases List.mem_append.mp hy with hold | hnew
    · exact hadmissible (fun e he => hkept e (List.mem_append_left _ he)) y hold
    · obtain rfl := List.mem_singleton.mp hnew
      exact hprices (hkept e (by simp))
  · intro id input hmem
    rcases List.mem_append.mp hmem with hold | hnew
    · exact hstarts id input hold
    · exact hstart id input (List.mem_singleton.mp hnew).symm
  · intro id message hmem
    rcases List.mem_append.mp hmem with hold | hnew
    · obtain ⟨authorization, verified, hcall, hstaff⟩ := hsends id message hold
      exact ⟨authorization, verified, List.mem_append_left _ hcall, hstaff⟩
    · obtain ⟨authorization, verified, hcall, hstaff⟩ := hsend id message (List.mem_singleton.mp hnew).symm
      exact ⟨authorization, verified, List.mem_append_right _ hcall, hstaff⟩

/-- What leaves the workflow system alone needs no account. -/
theorem Accounted.quiet {db : Database} {past : List ApiEvent} (h : s.Accounted db past) (e : ApiEvent)
    (hsame : s'.system = s.system) : s'.Accounted db (past ++ [e]) := by
  obtain ⟨events, hrun, hadmissible, hstarts, hsends⟩ := h
  refine ⟨events, hsame ▸ hrun, fun hkept => hadmissible fun e he => hkept e (List.mem_append_left _ he), hstarts, ?_⟩
  intro id message hmem
  obtain ⟨authorization, verified, hcall, hstaff⟩ := hsends id message hmem
  exact ⟨authorization, verified, List.mem_append_left _ hcall, hstaff⟩

/-- Every event of the API is accounted for. -/
theorem Accounted.step {db : Database} {past : List ApiEvent} (h : s.Accounted db past) {e : ApiEvent}
    (hstep : apiStep required collation upper lower s e = some s') : s'.Accounted db (past ++ [e]) := by
  rcases apiStep_does hstep with rfl | ⟨c, hdoes, hchat⟩
  · exact h.quiet _ rfl
  · cases changesRuns_of_chatStep hchat with
    | quiet hsystem => exact h.quiet _ hsystem
    | started i input _ hsystem =>
      refine h.moved ((step_start i input s).trans (congrArg some hsystem.symm)) (fun _ => trivial) ?_ (by simp)
      intro id input' hinput
      obtain ⟨rfl, rfl⟩ := Event.start.inj hinput
      rfl
    | moved x hx hnostart hsystem =>
      subst hx
      cases hdoes with
      | chat _ hnosend =>
        refine h.moved hsystem id (fun id input hinput => absurd hinput (hnostart id input)) ?_
        intro id message hmessage
        exact absurd (congrArg ChatEvent.system hmessage) (hnosend id message)
      | approval authorization verified id approved message hroute =>
        obtain ⟨hsame, hstaff⟩ := workflowApproval_eq_ok hroute
        refine h.moved hsystem (fun _ => trivial) (fun id input hinput => absurd hinput (hnostart id input)) ?_
        intro id' sent hsent
        obtain ⟨rfl, rfl⟩ := Event.send.inj hsent
        exact ⟨authorization, verified, by rw [hsame]; exact List.mem_singleton.mpr rfl, hstaff⟩

/-- The workflow system of the API stays or does a step. -/
theorem steps_of_apiStep {e : ApiEvent} (hstep : apiStep required collation upper lower s e = some s') :
    s'.system = s.system ∨ ∃ x, orderService.step s.system x = some s'.system := by
  rcases apiStep_does hstep with rfl | ⟨c, -, hchat⟩
  · exact .inl rfl
  · cases changesRuns_of_chatStep hchat with
    | quiet hsystem => exact .inl hsystem
    | started i input _ hsystem => exact .inr ⟨_, (step_start i input s).trans (congrArg some hsystem.symm)⟩
    | moved x _ _ hsystem => exact .inr ⟨x, hsystem⟩

end Steps

section Runs

variable {required : Bool} {collation : Collation} {upper lower : String → String} {db : Database}
  {memories : List UserMemory} {events : List ApiEvent} {s : ChatSystem}

/-- A run of the workflow system was started by a turn of its requester. -/
theorem ForCallers.exists_turn (h : s.ForCallers required collation upper db) {j : ℕ} {r : OrderRun}
    (hr : s.system.runs[j]? = some r) : ∃ i turn, s.starters[j]? = some i ∧ s.turns[i]? = some turn ∧
      turn.Identified required ∧ turn.userId = r.input.request.requestedBy := by
  have hbound : j < s.starters.length := h.starters ▸ (List.getElem?_eq_some_iff.mp hr).1
  have hstarter := List.getElem?_eq_getElem hbound
  obtain ⟨turn, hturn, huser⟩ := Option.map_eq_some_iff.mp (h.runs j r _ hr hstarter)
  exact ⟨_, turn, hstarter, hturn, (h.turns turn (List.mem_of_getElem? hturn)).1, huser⟩

/-- Every reachable state has its account. -/
theorem accounted_run
    (hrun : runFrom (apiStep required collation upper lower) (ChatSystem.initial db memories) events = some s) :
    s.Accounted db events :=
  runFrom_history _ (fun past s => s.Accounted db past) (fun _ _ _ _ h hstep => h.step hstep) [] hrun
    ⟨[], rfl, nofun, nofun, nofun⟩

/-- The API does what its chats do, for their own customers. -/
theorem forCallers_of_run (hdb : StoreSound db)
    (hrun : runFrom (apiStep required collation upper lower) (ChatSystem.initial db memories) events = some s) :
    s.ForCallers required collation upper db := by
  refine runFrom_invariant _ (fun s => s.ForCallers required collation upper db) ?_ hrun
    (forCallers_initial db memories)
  intro s e s' h hstep
  rcases apiStep_does hstep with rfl | ⟨c, -, hchat⟩
  · exact h
  · exact h.step hdb hchat

end Runs

section Asked

variable (required : Bool) (collation : Collation) (upper lower : String → String) (db : Database)
  (memories : List UserMemory)

/-- A turn has asked for the refund of the order: in the run so far, a call of `request_refund` that names the order
was executed for it. -/
def AskedBy (past : List ApiEvent) (i : ℕ) (n : ℤ) : Prop :=
  ∃ before k now after s, past = before ++ .chat (.toolCall i k now) :: after ∧
    runFrom (apiStep required collation upper lower) (ChatSystem.initial db memories) before = some s ∧
    s.CallsRefund i k n

/-- After these events of the API every run of a refund was started by a turn that had asked for it. -/
structure Asked (past : List ApiEvent) (s : ChatSystem) : Prop where
  run : runFrom (apiStep required collation upper lower) (ChatSystem.initial db memories) past = some s
  starters : s.starters.length = s.system.runs.length
  runs : ∀ (j : ℕ) (r : OrderRun) (i : ℕ) (input : OrderActionInput), s.system.runs[j]? = some r →
    s.starters[j]? = some i → r.input = .refund input →
      AskedBy required collation upper lower db memories past i input.orderNumber

variable {required collation upper lower db memories} {past : List ApiEvent} {s s' : ChatSystem} {e : ApiEvent}

/-- What was asked for before stays asked for. -/
theorem AskedBy.append {i : ℕ} {n : ℤ} (h : AskedBy required collation upper lower db memories past i n)
    (e : ApiEvent) : AskedBy required collation upper lower db memories (past ++ [e]) i n := by
  obtain ⟨before, k, now, after, s, rfl, hrun, hcall⟩ := h
  exact ⟨before, k, now, after ++ [e], s, by simp, hrun, hcall⟩

/-- What starts no run leaves it asked for who has started which. -/
theorem Asked.keep (h : Asked required collation upper lower db memories past s)
    (hstep : apiStep required collation upper lower s e = some s') (hstarters : s'.starters = s.starters)
    (hlength : s'.system.runs.length = s.system.runs.length)
    (hruns : ∀ (j : ℕ) (r' : OrderRun), s'.system.runs[j]? = some r' →
      ∃ r, s.system.runs[j]? = some r ∧ r'.input = r.input) :
    Asked required collation upper lower db memories (past ++ [e]) s' := by
  refine ⟨(runFrom_append_eq_some _).mpr ⟨s, h.run, (runFrom_singleton _ _ _).trans hstep⟩, ?_, ?_⟩
  · rw [hstarters, hlength, h.starters]
  · intro j r' i input hr' hi hinput
    obtain ⟨r, hr, hsame⟩ := hruns j r' hr'
    exact (h.runs j r i input hr (hstarters ▸ hi) (hsame ▸ hinput)).append e

/-- A run that is started for a refund is asked for. -/
theorem Asked.start (h : Asked required collation upper lower db memories past s) {i : ℕ} {input : WorkflowInput}
    (hstep : apiStep required collation upper lower s e = some s') (hsystem : s'.system = (s.start i input).system)
    (hstarters : s'.starters = (s.start i input).starters)
    (hasked : ∀ refund, input = .refund refund →
      AskedBy required collation upper lower db memories (past ++ [e]) i refund.orderNumber) :
    Asked required collation upper lower db memories (past ++ [e]) s' := by
  cases hopen : s.system.openRun (input.tool.workflowId input.request.orderNumber) with
  | some j =>
    simp only [ChatSystem.start, startWorkflow_joined hopen, hopen, Option.isSome_some, if_true] at hsystem hstarters
    exact h.keep hstep hstarters (by rw [hsystem]) fun j r hr => ⟨r, hsystem ▸ hr, rfl⟩
  | none =>
    simp only [ChatSystem.start, startWorkflow_new hopen, hopen, Option.isSome_none, Bool.false_eq_true, if_false]
      at hsystem hstarters
    refine ⟨(runFrom_append_eq_some _).mpr ⟨s, h.run, (runFrom_singleton _ _ _).trans hstep⟩, ?_, ?_⟩
    · simp [hsystem, hstarters, h.starters]
    · intro j r i' refund hr hi hinput
      rw [hsystem] at hr
      rw [hstarters] at hi
      by_cases hj : j < s.system.runs.length
      · rw [List.getElem?_append_left hj] at hr
        rw [List.getElem?_append_left (h.starters ▸ hj)] at hi
        exact (h.runs j r i' refund hr hi hinput).append e
      · have hbound := (List.getElem?_eq_some_iff.mp hr).1
        simp only [List.length_append, List.length_singleton] at hbound
        obtain rfl : j = s.system.runs.length := by omega
        obtain rfl := Option.some.inj (List.getElem?_concat_length.symm.trans hr)
        rw [← h.starters] at hi
        obtain rfl := Option.some.inj (List.getElem?_concat_length.symm.trans hi)
        exact hasked refund hinput

/-- Every event of the API leaves it asked for which refunds are under way. -/
theorem Asked.step (h : Asked required collation upper lower db memories past s)
    (hstep : apiStep required collation upper lower s e = some s') :
    Asked required collation upper lower db memories (past ++ [e]) s' := by
  rcases apiStep_does hstep with rfl | ⟨c, hdoes, hchat⟩
  · exact h.keep hstep rfl rfl fun j r hr => ⟨r, hr, rfl⟩
  · cases changesRuns_of_chatStep hchat with
    | quiet hsystem hstarters =>
      exact h.keep hstep hstarters (by rw [hsystem]) fun j r hr => ⟨r, hsystem ▸ hr, rfl⟩
    | started i input hstarts hsystem hstarters =>
      refine h.start hstep hsystem hstarters fun refund hrefund => ?_
      subst hrefund
      cases hstarts with
      | refund k now _ hcall =>
        cases hdoes with
        | chat => exact ⟨past, k, now, [], s, rfl, h.run, hcall⟩
    | moved x _ hnostart hsystem hstarters =>
      refine h.keep hstep hstarters (length_runs_of_step hsystem hnostart) fun j r hr => ?_
      obtain ⟨r₀, hr₀, hlater⟩ := earlier_of_step hsystem hnostart hr
      exact ⟨r₀, hr₀, hlater.input⟩

/-- In every reachable state what was started had been asked for. -/
theorem asked_of_run {events : List ApiEvent}
    (hrun : runFrom (apiStep required collation upper lower) (ChatSystem.initial db memories) events = some s) :
    Asked required collation upper lower db memories events s :=
  runFrom_history _ (Asked required collation upper lower db memories) (fun _ _ _ _ h hstep => h.step hstep) [] hrun
    ⟨rfl, rfl, by simp [ChatSystem.initial, System.initial]⟩

end Asked

end ChatSystem

section Authority

open RefundWorkflow

variable {required : Bool} {collation : Collation} {upper lower : String → String} {db : Database}
  {memories : List UserMemory} {events : List ApiEvent} {s : ChatSystem}

/-- The row is not there yet, and pays the total of an order of the turn's customer. -/
structure RefundsFor (before : ChatSystem) (turn : ChatTurn) (row : Refund) : Prop where
  new : row ∉ before.system.db.refunds
  order : ∃ o, before.system.db.findOrder row.orderId turn.userId = some o ∧
    row.amount.cents = before.system.db.total o

/-- With prices left alone, in every run of the API and whatever callers and models do: every new refunds row is of an
order that a call of `request_refund` in an identified turn of its customer named before, and pays the order's total.
And if it is of more than 200, an employee has before called the approval route for the refund of this order and
approved, with an own token, also where tokens are not required. -/
theorem refunds_authorised (hdb : StoreSound db) (hkept : ∀ e ∈ events, e.KeepsPrices)
    (hrun : runFrom (apiStep required collation upper lower) (ChatSystem.initial db memories) events = some s) :
    ∀ row ∈ s.system.db.refunds, row ∉ db.refunds →
      ∃ before e after mid i turn, events = before ++ e :: after ∧
        runFrom (apiStep required collation upper lower) (ChatSystem.initial db memories) before = some mid ∧
        mid.turns[i]? = some turn ∧ turn.Identified required ∧
        ChatSystem.AskedBy required collation upper lower db memories before i row.orderId ∧
        RefundsFor mid turn row ∧
        (20000 < row.amount.cents → ∃ employee,
          Approves before (OrderTool.requestRefund.workflowId row.orderId) ⟨true, employee⟩) := by
  intro row hrow hnew
  obtain ⟨before, e, after, mid, next, rfl, hbefore, hstep, -, hnot, hyes⟩ :=
    exists_step_of_change _ (fun s => row ∈ s.system.db.refunds) hrun hnew hrow
  have hcallers := ChatSystem.forCallers_of_run hdb hbefore
  have hkept' : ∀ e ∈ before, e.KeepsPrices := fun e he => hkept e (List.mem_append_left _ he)
  obtain ⟨past, hpast, hadmissible, hstarts, hsends⟩ := ChatSystem.accounted_run hbefore
  have hmid := (sound_of_run hdb hpast).db
  rcases ChatSystem.steps_of_apiStep hstep with hsame | ⟨x, hx⟩
  · exact absurd (hsame ▸ hyes) hnot
  · obtain ⟨j, r, inp, order, o, hinserts, hcleared, hfind, hamount⟩ := exists_inserts hpast hmid hx hyes hnot
    have hr := List.mem_of_getElem? hinserts.run
    obtain ⟨i, turn, hstarter, hturn, hidentified, huser⟩ := hcallers.exists_turn hinserts.run
    have hasked := (ChatSystem.asked_of_run hbefore).runs j r i inp hinserts.run hstarter hinserts.input
    rw [hinserts.input] at huser
    refine ⟨before, e, after, mid, i, turn, rfl, hbefore, hturn, hidentified, ?_, ⟨hnot, o, ?_, hamount⟩, ?_⟩
    · rw [hinserts.orderId]
      exact hasked
    · rw [hinserts.orderId, huser]
      exact hfind
    · intro habove
      have htext := hcleared.loaded.amount_eq hdb (hadmissible hkept') hpast hr hfind
      obtain ⟨message, hreceived, happroved⟩ :=
        hcleared.approved ((needsApproval_iff htext).mpr (hamount ▸ habove))
      obtain ⟨hid, hsent⟩ := (Posted.run hpast).messages r hr message (List.mem_append_left _ hreceived)
      have hstarted := hstarts _ _ (started_run hpast r hr)
      obtain ⟨authorization, verified, hcall, hstaff⟩ := hsends _ _ hsent
      rw [hid, hstarted, hinserts.input] at hcall
      refine ⟨message.message.approvedBy, authorization, verified, ?_, hstaff⟩
      rw [hinserts.orderId]
      exact happroved ▸ hcall

/-- The customer of order 5 asks for its refund of 300.00, a customer tries to approve it and a manager does. -/
def approvedByManager : List ApiEvent :=
  [.chat (.request (some "Bearer customer") (.ok ⟨"kc-1", none, some "CUS-005", none⟩)
      { AgentStreamRequest.aboutOrder with message := "Please refund ORD-005", messageLength := by decide } true),
    .chat (.superstep 0 (.supervisor { content := "", toolCalls := [⟨"delegate_to_order_actions", [], none⟩] })),
    .chat (.superstep 0 (.specialist (some 7) { content := "", toolCalls := [⟨"request_refund",
      [("order_id", .string "ORD-005"), ("reason", .string "damaged")], some "call-1"⟩] })),
    .chat (.toolCall 0 0 "10:00"), .chat (.system (.run 0 .begin)), .chat (.system (.run 0 .execute)),
    .chat (.system (.run 0 .report)),
    .approval (some "Bearer customer") (.ok ⟨"kc-1", none, some "CUS-005", some [roleCustomer]⟩) "refund-order-5" true,
    .approval (some "Bearer manager") (.ok ⟨"kc-7", none, none, some [roleManager]⟩) "refund-order-5" true,
    .chat (.system (.deliver 0)), .chat (.system (.run 0 (.activate 1))), .chat (.system (.run 0 .execute))]

theorem refunds_authorised_approvedByManager :
    ∃ s, runFrom (apiStep false codePointCollation String.toUpper String.toLower)
        (ChatSystem.initial orderOf300 []) approvedByManager = some s ∧
      ∃ row ∈ s.system.db.refunds, row.amount.cents = 30000 ∧ ∃ before after employee,
        approvedByManager = before ++ after ∧
        Approves before (OrderTool.requestRefund.workflowId row.orderId) ⟨true, employee⟩ := by
  have hcomputed : (runFrom (apiStep false codePointCollation String.toUpper String.toLower)
      (ChatSystem.initial orderOf300 []) approvedByManager).map
        (fun s => s.system.db.refunds.map fun row => row.amount.cents) = some [30000] := by decide +kernel
  obtain ⟨s, hrun, hrefunds⟩ := Option.map_eq_some_iff.mp hcomputed
  have hamount : 30000 ∈ s.system.db.refunds.map fun row => row.amount.cents := by simp [hrefunds]
  obtain ⟨row, hrow, hcents⟩ := List.mem_map.mp hamount
  have hkept : ∀ e ∈ approvedByManager, e.KeepsPrices := by
    simp [approvedByManager, ApiEvent.KeepsPrices, Event.Admissible]
  obtain ⟨before, e, after, mid, i, turn, hsplit, -, -, -, -, -, happroved⟩ :=
    refunds_authorised storeSound_orderOf300 hkept hrun row hrow (by simp [orderOf300, oneOrder])
  obtain ⟨employee, hemployee⟩ := happroved (by omega)
  exact ⟨s, hrun, row, hrow, hcents, before, e :: after, employee, hsplit, hemployee⟩

end Authority

end Agentops
