import Agentops.Agent.Chat
import Agentops.Workflow.Amounts

/-!
# The identity of the caller

The customer of a turn is fixed when its request is let through, and it is written into the state of the
graph, from where it is injected into every tool call, and with the call into the input of a workflow.
No answer of a model takes part in this, so that whatever a turn brings about is for its own customer,
and the checkpoint of a conversation holds the customer that its key begins with.
-/

namespace Agentops

open DurableExecution LabelledRun

/-- The customer of the turn is the claim of a verified token, or, when there is no token and none is
required, the user of the request. -/
def ChatTurn.Identified (required : Bool) (turn : ChatTurn) : Prop :=
  (nonEmpty turn.authorization ≠ none ∧ turn.userId ≠ "" ∧
    ∃ claims, turn.verified = .ok claims ∧ claims.customerId = some turn.userId) ∨
  (nonEmpty turn.authorization = none ∧ required = false ∧ turn.request.userId = turn.userId)

/-- What `effectiveUserId` lets through is identified. -/
theorem ChatTurn.identified {required : Bool} {turn : ChatTurn}
    (h : effectiveUserId (fun _ => turn.verified) required turn.authorization turn.request =
      .ok turn.userId) : turn.Identified required := by
  rcases effectiveUserId_eq_ok.mp h with ⟨user, huser, hclaim⟩ | ⟨hnone, hrequired, hbody⟩
  · unfold getCurrentUser at huser
    cases hheader : nonEmpty turn.authorization with
    | none => simp [hheader] at huser
    | some header =>
      simp only [hheader] at huser
      split at huser
      · exact absurd huser (by simp)
      · cases hverified : turn.verified with
        | error e => simp [hverified, Except.map] at huser
        | ok claims =>
          simp only [hverified, Except.map, Except.ok.injEq, Option.some.injEq] at huser
          subst huser
          obtain ⟨hcustomer, hne⟩ := Option.filter_eq_some_iff.mp hclaim
          exact .inl ⟨by simp [hheader], of_decide_eq_true hne, claims, hverified, hcustomer⟩
  · unfold getCurrentUser at hnone
    cases hheader : nonEmpty turn.authorization with
    | none => exact .inr ⟨hheader, hrequired, hbody⟩
    | some header =>
      simp only [hheader] at hnone
      split at hnone
      · exact absurd hnone (by simp)
      · cases hverified : turn.verified <;> simp [hverified, Except.map] at hnone

section Supersteps

variable {Args : Type} {maxIterations : ℕ} {p p' : TurnPosition Args} {o : NodeOutcome Args}

/-- A tool node leaves the customer as it is. -/
theorem userId_toolNode {agent : AgentName} {results : List (String × Bool)} {state s : AgentState Args}
    (h : toolNode agent results state = some (some s)) : s.userId = state.userId := by
  unfold toolNode at h
  split at h
  · exact absurd h (by simp)
  · split at h
    · exact Option.some.inj (Option.some.inj h) ▸ rfl
    · exact absurd h (by simp)

/-- So does every superstep of a turn, whatever the models answer. -/
theorem userId_turnStep (h : turnStep maxIterations p o = some p') : p'.state.userId = p.state.userId := by
  cases turnStep_takes h with
  | executed name results s hplace hrun => exact userId_toolNode hrun
  | _ => rfl

end Supersteps

namespace ChatSystem

/-- Everything is for the customer of the turn that brought it about. -/
structure ForCallers (required : Bool) (collation : Collation) (upper : String → String) (db : Database)
    (s : ChatSystem) : Prop where
  system : ∃ events, runFrom orderService.step (System.initial db) events = some s.system
  turns : ∀ turn ∈ s.turns, turn.Identified required ∧ turn.position.state.userId = some turn.userId
  accesses : ∀ a ∈ s.accesses, s.userOf a.turn = some a.customerId ∧ StoreSound a.before.db ∧
    a.after = (a.op.perform collation upper a.customerId a.before).2
  checked : ∀ c ∈ s.checked, s.userOf c.1 = some c.2.requestedBy
  starters : s.starters.length = s.system.runs.length
  runs : ∀ (i : ℕ) (r : OrderRun) (k : ℕ), s.system.runs[i]? = some r → s.starters[i]? = some k →
    s.userOf k = some r.input.request.requestedBy
  checkpoints : ∀ key state, s.checkpoints key = some state →
    ∃ u t, isRequestId t = true ∧ key = conversationKey u t ∧ state.userId = some u

variable {required : Bool} {collation : Collation} {upper lower : String → String} {db : Database}
  {s s' : ChatSystem}

theorem forCallers_initial (db : Database) (memories : List UserMemory) :
    (ChatSystem.initial db memories).ForCallers required collation upper db where
  system := ⟨[], rfl⟩
  turns := by simp [initial]
  accesses := by simp [initial]
  checked := by simp [initial]
  starters := rfl
  runs := by simp [initial, System.initial]
  checkpoints := by simp [initial]

/-- A turn keeps its customer when another turn begins. -/
theorem userOf_append {turns : List ChatTurn} {i : ℕ} {u : String} (h : s.userOf i = some u) :
    ({ s with turns := s.turns ++ turns } : ChatSystem).userOf i = some u := by
  obtain ⟨turn, hturn, rfl⟩ := Option.map_eq_some_iff.mp h
  simp [userOf, List.getElem?_append_left (List.getElem?_eq_some_iff.mp hturn).1, hturn]

/-- And when a turn moves on. -/
theorem userOf_set {turn : ChatTurn} (turn' : ChatTurn) {i : ℕ} (hturn : s.turns[i]? = some turn)
    (huser : turn'.userId = turn.userId) (j : ℕ) :
    ({ s with turns := s.turns.set i turn' } : ChatSystem).userOf j = s.userOf j := by
  by_cases hij : i = j
  · subst hij
    simp [userOf, List.getElem?_set_self (List.getElem?_eq_some_iff.mp hturn).1, hturn, huser]
  · simp [userOf, List.getElem?_set_ne hij]

/-- The state of a conversation's customer may be saved under the conversation's key. -/
theorem ForCallers.save (h : s.ForCallers required collation upper db) {u t : String}
    {state : AgentState ToolArgs} (ht : isRequestId t = true) (huser : state.userId = some u) :
    ForCallers required collation upper db
      { s with checkpoints := Function.update s.checkpoints (conversationKey u t) (some state) } := by
  refine { h with checkpoints := fun key state' hstate => ?_ }
  by_cases hkey : key = conversationKey u t
  · subst hkey
    simp only [Function.update_self, Option.some.injEq] at hstate
    exact ⟨u, t, ht, rfl, hstate ▸ huser⟩
  · exact h.checkpoints key state' (by simpa [hkey] using hstate)

/-- A request starts a turn for an identified customer, or none. -/
theorem ForCallers.receive (h : s.ForCallers required collation upper db) (authorization : Option String)
    (verified : Except HttpException Claims) (request : AgentStreamRequest) (admitted : Bool) :
    (s.receive required authorization verified request admitted).ForCallers required collation upper db := by
  unfold ChatSystem.receive
  cases hidentified : effectiveUserId (fun _ => verified) required authorization request with
  | error e => exact h
  | ok userId =>
    cases admitted with
    | false => exact h
    | true =>
      let position := turnStart
        ((s.checkpoints (conversationKey userId request.threadId)).getD ⟨[], none, none, none⟩)
        request.message userId
      have hbegun : ForCallers required collation upper db
          { s with turns := s.turns ++ [⟨authorization, verified, request, userId, position⟩] } := by
        refine { h with turns := ?_, accesses := ?_, checked := ?_, runs := ?_ }
        · intro turn hturn
          rcases List.mem_append.mp hturn with hold | hnew
          · exact h.turns turn hold
          · obtain rfl := List.mem_singleton.mp hnew
            exact ⟨ChatTurn.identified hidentified, rfl⟩
        · exact fun a ha => ⟨userOf_append (h.accesses a ha).1, (h.accesses a ha).2⟩
        · exact fun c hc => userOf_append (h.checked c hc)
        · exact fun i r k hr hk => userOf_append (h.runs i r k hr hk)
      exact hbegun.save request.threadIdValid rfl

/-- A superstep leaves the customer where it is. -/
theorem ForCallers.superstep (h : s.ForCallers required collation upper db) {i : ℕ}
    {o : NodeOutcome ToolArgs} (hstep : s.superstep i o = some s') :
    s'.ForCallers required collation upper db := by
  simp only [ChatSystem.superstep, Option.bind_eq_bind, Option.bind_eq_some_iff] at hstep
  obtain ⟨turn, hturn, position, hposition, hstep⟩ := hstep
  obtain ⟨hidentified, huser⟩ := h.turns turn (List.mem_of_getElem? hturn)
  have huser' : position.state.userId = some turn.userId := (userId_turnStep hposition).trans huser
  have hsame := userOf_set { turn with position := position } hturn rfl
  have hmoved : ForCallers required collation upper db
      { s with turns := s.turns.set i { turn with position := position } } := by
    refine { h with turns := ?_, accesses := ?_, checked := ?_, runs := ?_ }
    · intro q hq
      rcases List.mem_or_eq_of_mem_set hq with hold | rfl
      · exact h.turns q hold
      · exact ⟨hidentified, huser'⟩
    · exact fun a ha => ⟨(hsame _).trans (h.accesses a ha).1, (h.accesses a ha).2⟩
    · exact fun c hc => (hsame _).trans (h.checked c hc)
    · exact fun j r k hr hk => (hsame _).trans (h.runs j r k hr hk)
  split at hstep
  · exact Option.some.inj hstep ▸ hmoved
  · exact Option.some.inj hstep ▸ hmoved
  · exact Option.some.inj hstep ▸ hmoved.save turn.request.threadIdValid huser'

/-- An access in the name of the turn's customer that leaves orders and refunds alone. -/
theorem ForCallers.access (h : s.ForCallers required collation upper db) (hdb : StoreSound s.system.db)
    {i : ℕ} {u : String} {op : CustomerOp} (huser : s.userOf i = some u)
    (hsame : (op.perform collation upper u s.tables).2.db = s.system.db) :
    (s.access collation upper i u op).ForCallers required collation upper db := by
  obtain ⟨events, hsystem⟩ := h.system
  have hkept : { s.system with db := (op.perform collation upper u s.tables).2.db } = s.system := by
    rw [hsame]
  refine ⟨⟨events, hsystem.trans (congrArg some hkept.symm)⟩, h.turns, fun a ha => ?_, h.checked,
    h.starters, h.runs, h.checkpoints⟩
  rcases List.mem_append.mp ha with hold | hnew
  · exact h.accesses a hold
  · obtain rfl := List.mem_singleton.mp hnew
    exact ⟨huser, hdb, rfl⟩

/-- A turn starts workflows for its own customer. -/
theorem ForCallers.start (h : s.ForCallers required collation upper db) {i : ℕ} {input : WorkflowInput}
    (huser : s.userOf i = some input.request.requestedBy) :
    (s.start i input).ForCallers required collation upper db := by
  obtain ⟨events, hsystem⟩ := h.system
  unfold ChatSystem.start
  cases hopen : s.system.openRun (input.tool.workflowId input.request.orderNumber) with
  | some j =>
    rw [startWorkflow_joined hopen]
    exact h
  | none =>
    rw [startWorkflow_new hopen]
    refine { h with system := ?_, starters := ?_, runs := ?_ }
    · refine ⟨events ++ [.start (input.tool.workflowId input.request.orderNumber) input], ?_⟩
      rw [runFrom_append_eq_some]
      exact ⟨s.system, hsystem, by simp [runFrom, Service.step, hopen]⟩
    · simp [h.starters]
    · intro j r k hr hk
      simp only [Option.isSome_none, Bool.false_eq_true, if_false] at hk
      by_cases hj : j < s.system.runs.length
      · rw [List.getElem?_append_left hj] at hr
        rw [List.getElem?_append_left (h.starters ▸ hj)] at hk
        exact h.runs j r k hr hk
      · have hbound := (List.getElem?_eq_some_iff.mp hr).1
        simp only [List.length_append, List.length_singleton] at hbound
        obtain rfl : j = s.system.runs.length := by omega
        obtain rfl := Option.some.inj (List.getElem?_concat_length.symm.trans hr)
        rw [← h.starters] at hk
        obtain rfl := Option.some.inj (List.getElem?_concat_length.symm.trans hk)
        exact huser

/-- The tables stay sound. -/
theorem ForCallers.storeSound (h : s.ForCallers required collation upper db) (hdb : StoreSound db) :
    StoreSound s.system.db :=
  have ⟨_, hsystem⟩ := h.system
  (sound_of_run hdb hsystem).db

/-- A tool that acts for the turn's customer only. -/
theorem ForCallers.act (h : s.ForCallers required collation upper db) (hdb : StoreSound db) {i : ℕ}
    {u now : String} {action : ToolAction} (huser : s.userOf i = some u) (honly : action.OnlyFor u) :
    (s.act collation upper i now action).ForCallers required collation upper db := by
  have hsound := h.storeSound hdb
  have hread : ∀ n, ((CustomerOp.getOrderStatus n).perform collation upper u s.tables).2.db =
      s.system.db := by
    intro n
    simp only [CustomerOp.perform, StoreTables.transact, getOrderStatusRow_run]
    rfl
  cases action with
  | nothing => exact h
  | readCounts => exact h
  | readOrder n customerId =>
    obtain rfl := honly customerId rfl
    exact h.access hsound huser (hread n)
  | checkCancellation n customerId =>
    obtain rfl := honly customerId rfl
    have hlooked := h.access hsound huser (hread n)
    simp only [ChatSystem.act]
    split
    · split
      · refine { hlooked with checked := fun c hc => ?_ }
        rcases List.mem_append.mp hc with hold | hnew
        · exact hlooked.checked c hold
        · obtain rfl := List.mem_singleton.mp hnew
          exact huser
      · exact hlooked
    · exact hlooked
  | startRefund input =>
    obtain rfl := honly input.requestedBy rfl
    exact h.start huser
  | saveMemory userId key value =>
    obtain rfl := honly userId rfl
    exact h.access hsound huser (CustomerOp.db_saveMemory collation upper key value now)
  | readMemories userId =>
    obtain rfl := honly userId rfl
    exact h.access hsound huser (CustomerOp.db_getMemories collation upper)

/-- A tool call acts for the customer in the state of its turn. -/
theorem ForCallers.callTool (h : s.ForCallers required collation upper db) (hdb : StoreSound db) {i k : ℕ}
    {now : String} (hstep : s.callTool collation upper lower i k now = some s') :
    s'.ForCallers required collation upper db := by
  simp only [ChatSystem.callTool, Option.bind_eq_bind, Option.bind_eq_some_iff] at hstep
  obtain ⟨turn, hturn, hstep⟩ := hstep
  split at hstep
  · simp only [Option.bind_eq_some_iff] at hstep
    obtain ⟨call, -, userId, huser, hstep⟩ := hstep
    obtain rfl := Option.some.inj hstep
    obtain rfl : turn.userId = userId :=
      Option.some.inj ((h.turns turn (List.mem_of_getElem? hturn)).2.symm.trans huser)
    refine h.act hdb (u := turn.userId) ?_ (onlyFor_toolAction lower call.name turn.userId call.args)
    simp [userOf, hturn]
  · exact absurd hstep (by simp)

/-- The second half of a cancellation is for the customer of the first. -/
theorem ForCallers.startChecked (h : s.ForCallers required collation upper db) {k : ℕ}
    (hstep : s.startChecked k = some s') : s'.ForCallers required collation upper db := by
  cases hk : s.checked[k]? with
  | none => simp [ChatSystem.startChecked, hk] at hstep
  | some c =>
    simp only [ChatSystem.startChecked, hk, Option.some.injEq] at hstep
    obtain rfl := hstep
    have hremoved : ForCallers required collation upper db { s with checked := s.checked.eraseIdx k } :=
      { h with checked := fun c hc => h.checked c (List.mem_of_mem_eraseIdx hc) }
    exact hremoved.start (h.checked _ (List.mem_of_getElem? hk))

/-- Other events of the workflow system start no run and leave every run its input. -/
theorem ForCallers.moved (h : s.ForCallers required collation upper db) {e : OrderEvent}
    {system : OrderSystem} (he : ∀ workflowId input, e ≠ .start workflowId input)
    (hstep : orderService.step s.system e = some system) :
    ForCallers required collation upper db { s with system := system } := by
  obtain ⟨events, hsystem⟩ := h.system
  refine { h with system := ⟨events ++ [e], ?_⟩, starters := ?_, runs := fun j r k hr hk => ?_ }
  · rw [runFrom_append_eq_some]
    exact ⟨s.system, hsystem, by simp [runFrom, hstep]⟩
  · exact h.starters.trans (length_runs_of_step hstep he).symm
  · obtain ⟨r₀, hr₀, hlater⟩ := earlier_of_step hstep he hr
    exact hlater.input ▸ h.runs j r₀ k hr₀ hk

/-- Every event keeps everything for the customer of the turn that brought it about. -/
theorem ForCallers.step (h : s.ForCallers required collation upper db) (hdb : StoreSound db) {e : ChatEvent}
    (hstep : chatStep required collation upper lower s e = some s') :
    s'.ForCallers required collation upper db := by
  cases e with
  | request authorization verified request admitted =>
    exact Option.some.inj hstep ▸ h.receive authorization verified request admitted
  | superstep i o => exact h.superstep hstep
  | toolCall i k now => exact h.callTool hdb hstep
  | startChecked k => exact h.startChecked hstep
  | expire key =>
    obtain rfl := Option.some.inj hstep
    refine { h with checkpoints := fun key' state hstate => h.checkpoints key' state ?_ }
    by_cases hkey : key' = key
    · simp [hkey] at hstate
    · simpa [hkey] using hstate
  | system e =>
    cases e with
    | start workflowId input => exact absurd hstep (by simp [chatStep])
    | _ =>
      simp only [chatStep] at hstep
      obtain ⟨system, hsystem, rfl⟩ := Option.map_eq_some_iff.mp hstep
      exact h.moved (by simp) hsystem

end ChatSystem

section Callers

open ChatSystem

variable {required : Bool} {collation : Collation} {upper lower : String → String} {db : Database}
  {memories : List UserMemory} {events : List ChatEvent} {s : ChatSystem}

/-- In every run of chat turns, whatever the models answer, the customer of a turn is the claim of its
verified token, or the user of its request when there is no token and none is required. Every access of
a tool of the turn to orders and preferences is for this customer and keeps the rows of everyone else.
Every run that the turn has started has this customer as its requester, and so has every activity that
the run attempts, which keeps the rows of everyone else too. And every checkpoint is under the key of a
conversation, with the customer of the key in its state. -/
theorem acts_for_caller (hdb : StoreSound db)
    (hrun : runFrom (chatStep required collation upper lower) (ChatSystem.initial db memories) events =
      some s) :
    (∀ turn ∈ s.turns, turn.Identified required) ∧
    (∀ a ∈ s.accesses, ∃ turn, s.turns[a.turn]? = some turn ∧ a.customerId = turn.userId ∧
      a.after = (a.op.perform collation upper turn.userId a.before).2 ∧
      a.before.OthersKept turn.userId a.after) ∧
    (∀ (i : ℕ) (r : OrderRun), s.system.runs[i]? = some r → ∃ k turn, s.starters[i]? = some k ∧
      s.turns[k]? = some turn ∧ r.input.request.requestedBy = turn.userId ∧
      (∀ t ∈ r.attempts, t.activity.request.requestedBy = turn.userId) ∧
      ∀ a record, r.Did a record → ∀ rows,
        (StoreTables.mk record.before rows).OthersKept turn.userId ⟨record.after, rows⟩) ∧
    (∀ key state, s.checkpoints key = some state →
      (∃ u t, isRequestId t = true ∧ key = conversationKey u t) ∧
      ∀ u t, isRequestId t = true → key = conversationKey u t → state.userId = some u) := by
  have h : s.ForCallers required collation upper db :=
    runFrom_invariant _ (fun s => s.ForCallers required collation upper db)
      (fun _ _ _ hs hstep => hs.step hdb hstep) hrun (forCallers_initial db memories)
  obtain ⟨systemEvents, hsystem⟩ := h.system
  have hsound := sound_of_run hdb hsystem
  refine ⟨fun turn hturn => (h.turns turn hturn).1, fun a ha => ?_, fun i r hr => ?_,
    fun key state hstate => ?_⟩
  · obtain ⟨huser, hbefore, hafter⟩ := h.accesses a ha
    obtain ⟨turn, hturn, hcustomer⟩ := Option.map_eq_some_iff.mp huser
    refine ⟨turn, hturn, hcustomer.symm, hcustomer ▸ hafter, ?_⟩
    rw [hafter, hcustomer]
    exact StoreTables.othersKept_perform collation upper a.op hbefore.schema
  · have hmem := List.mem_of_getElem? hr
    have hbound : i < s.starters.length := h.starters ▸ (List.getElem?_eq_some_iff.mp hr).1
    obtain ⟨k, hk⟩ : ∃ k, s.starters[i]? = some k := ⟨_, List.getElem?_eq_getElem hbound⟩
    obtain ⟨turn, hturn, huser⟩ := Option.map_eq_some_iff.mp (h.runs i r k hr hk)
    have hattempts : ∀ t ∈ r.attempts, t.activity.request.requestedBy = turn.userId := fun t ht => by
      rw [request_of_attempted hsystem hmem ht, huser]
    refine ⟨k, turn, hk, hturn, huser.symm, hattempts, fun a record hdid rows => ?_⟩
    have hrecorded := hsound.did r hmem a record hdid
    obtain ⟨t, ht, hactivity⟩ := activity_of_did hdid
    have hafter : record.after = (a.perform record.before).2 := congrArg Record.after hrecorded.performed
    rw [hafter, ← hattempts t ht, hactivity]
    exact a.othersKept hrecorded.inv rows
  · obtain ⟨u, t, ht, hkey, huser⟩ := h.checkpoints key state hstate
    refine ⟨⟨u, t, ht, hkey⟩, fun u' t' ht' hkey' => ?_⟩
    obtain ⟨rfl, -⟩ := conversationKey_injective ht ht' (hkey.symm.trans hkey')
    exact huser

/-- A caller with the token of CUS-999 names CUS-005 in its request, and so does the model in its call. -/
def borrowedName : List ChatEvent :=
  [.request (some "Bearer token") (.ok ⟨"sub", none, some "CUS-999", none⟩)
      { AgentStreamRequest.aboutOrder with
        message := "Refund ORD-005", userId := "CUS-005", messageLength := by decide
        userIdValid := by decide } true,
    .superstep 0 (.supervisor { content := "", toolCalls := [⟨"delegate_to_order_actions", [], none⟩] }),
    .superstep 0 (.specialist (some 7) { content := "", toolCalls := [⟨"request_refund",
      [("order_id", .string "ORD-005"), ("reason", .string "mine"), ("user_id", .string "CUS-005")],
      some "call-1"⟩] }),
    .toolCall 0 0 "10:00", .system (.run 0 .begin), .system (.run 0 .execute)]

/-- The run that is started, and the load that it attempts, are for CUS-999. -/
theorem acts_for_caller_borrowedName :
    ∃ s r, runFrom (chatStep true codePointCollation String.toUpper String.toLower)
        (ChatSystem.initial RefundWorkflow.orderOf98 []) borrowedName = some s ∧ s.system.runs[0]? = some r ∧
      r.input.request.requestedBy = "CUS-999" ∧ r.attempts.length = 1 ∧
      (∀ t ∈ r.attempts, t.activity.request.requestedBy = "CUS-999") ∧
      (∃ state, s.checkpoints "CUS-999:t1" = some state ∧ state.userId = some "CUS-999") := by
  have hcomputed : (runFrom (chatStep true codePointCollation String.toUpper String.toLower)
      (ChatSystem.initial RefundWorkflow.orderOf98 []) borrowedName).map (fun s =>
        ((s.system.runs[0]?).map fun r => r.attempts.length, s.starters, s.turns.map ChatTurn.userId,
          (s.checkpoints "CUS-999:t1").isSome)) =
      some (some 1, [0], ["CUS-999"], true) := by decide +kernel
  obtain ⟨s, hrun, hfacts⟩ := Option.map_eq_some_iff.mp hcomputed
  simp only [Prod.mk.injEq] at hfacts
  obtain ⟨hrunOne, hstarters, husers, hcheckpoint⟩ := hfacts
  obtain ⟨r, hr, hlength⟩ := Option.map_eq_some_iff.mp hrunOne
  obtain ⟨-, -, hruns, hcheckpoints⟩ := acts_for_caller RefundWorkflow.storeSound_orderOf98 hrun
  obtain ⟨k, turn, hk, hturn, hrequested, hattempts, -⟩ := hruns 0 r hr
  obtain rfl : 0 = k := by simpa [hstarters] using hk
  obtain ⟨state, hstate⟩ := Option.isSome_iff_exists.mp hcheckpoint
  have huser : turn.userId = "CUS-999" := by
    have hget : (s.turns.map ChatTurn.userId)[0]? = some turn.userId := by simp [hturn]
    simpa [husers, eq_comm] using hget
  exact ⟨s, r, hrun, hr, huser ▸ hrequested, hlength, huser ▸ hattempts, state, hstate,
    (hcheckpoints _ state hstate).2 "CUS-999" "t1" (by decide) (by decide)⟩

end Callers

end Agentops
