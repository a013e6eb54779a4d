import Agentops.Agent.OrderTools
import Agentops.Agent.Tools
import Agentops.Api.Conversations
import Agentops.Store.Noninterference

/-!
# Chat turns over the tables and the workflows

Any callers send chat requests in any order. A request that is let through starts a turn on the
checkpoint of its conversation, and the turns then take their supersteps side by side. While a turn is
in its tool node the calls of the model's answer are executed, on the tables at once or through a
workflow. Every access of a tool to the tables is written down with the customer it was made for, and
every run with the turn that started it.
-/

namespace Agentops

open DurableExecution LabelledRun

/-- A turn that `stream_agent_chat` has let through: its request, what the check of its token has come
to, the customer it is run for and how far its graph has come. -/
structure ChatTurn where
  authorization : Option String
  verified : Except HttpException Claims
  request : AgentStreamRequest
  userId : String
  position : TurnPosition ToolArgs

/-- The key of the turn's checkpoint. -/
def ChatTurn.key (turn : ChatTurn) : String := conversationKey turn.userId turn.request.threadId

/-- What a tool of a turn did to the tables, and for which customer. -/
structure ToolAccess where
  turn : ℕ
  customerId : String
  op : CustomerOp
  before : StoreTables
  after : StoreTables

/-- The database with its workflows, the memories, the checkpoints and the turns. -/
structure ChatSystem where
  system : OrderSystem
  memories : List UserMemory
  checkpoints : String → Option (AgentState ToolArgs)
  turns : List ChatTurn
  accesses : List ToolAccess
  checked : List (ℕ × OrderActionInput)
  starters : List ℕ

/-- What can happen: a request with the outcome of the token's check and of the guardrails, a superstep
of a turn, one of its tool calls, the second half of a cancellation, the end of a checkpoint's time to
live, and everything else in the workflow system. -/
inductive ChatEvent
  | request (authorization : Option String) (verified : Except HttpException Claims)
      (request : AgentStreamRequest) (admitted : Bool)
  | superstep (i : ℕ) (o : NodeOutcome ToolArgs)
  | toolCall (i k : ℕ) (now : String)
  | startChecked (k : ℕ)
  | expire (key : String)
  | system (e : OrderEvent)

namespace ChatSystem

/-- Nobody has called yet. -/
def initial (db : Database) (memories : List UserMemory) : ChatSystem :=
  ⟨.initial db, memories, fun _ => none, [], [], [], []⟩

/-- The customer that a turn is run for. -/
def userOf (s : ChatSystem) (i : ℕ) : Option String := (s.turns[i]?).map ChatTurn.userId

/-- The tables that the tools read and write. -/
def tables (s : ChatSystem) : StoreTables := ⟨s.system.db, s.memories⟩

/-- `stream_agent_chat`: nothing, or a new turn on the state of its checkpoint. -/
def receive (required : Bool) (authorization : Option String) (verified : Except HttpException Claims)
    (request : AgentStreamRequest) (admitted : Bool) (s : ChatSystem) : ChatSystem :=
  match effectiveUserId (fun _ => verified) required authorization request with
  | .error _ => s
  | .ok userId =>
    if admitted then
      let key := conversationKey userId request.threadId
      let position := turnStart ((s.checkpoints key).getD ⟨[], none, none, none⟩) request.message userId
      { s with
        checkpoints := Function.update s.checkpoints key (some position.state)
        turns := s.turns ++ [⟨authorization, verified, request, userId, position⟩] }
    else s

/-- A superstep of a turn. Its new state is saved unless the graph has raised. -/
def superstep (i : ℕ) (o : NodeOutcome ToolArgs) (s : ChatSystem) : Option ChatSystem := do
  let turn ← s.turns[i]?
  let position ← turnStep maxAgentIterations turn.position o
  let moved := { s with turns := s.turns.set i { turn with position := position } }
  match position.place with
  | .raised | .outOfSteps => some moved
  | _ => some { moved with checkpoints := Function.update s.checkpoints turn.key (some position.state) }

variable (collation : Collation) (upper lower : String → String)

/-- A tool of a turn does something to the tables in the name of a customer. -/
def access (i : ℕ) (customerId : String) (op : CustomerOp) (s : ChatSystem) : ChatSystem :=
  let after := (op.perform collation upper customerId s.tables).2
  { s with
    system := { s.system with db := after.db }
    memories := after.memories
    accesses := s.accesses ++ [⟨i, customerId, op, s.tables, after⟩] }

/-- A tool of a turn starts a workflow, or finds the open run of its id. -/
def start (i : ℕ) (input : WorkflowInput) (s : ChatSystem) : ChatSystem :=
  { s with
    system := (startWorkflow input s.system).1
    starters :=
      if (s.system.openRun (input.tool.workflowId input.request.orderNumber)).isSome then s.starters
      else s.starters ++ [i] }

/-- A cancellation that has passed its check is about to start its workflow. -/
def check (i : ℕ) (input : OrderActionInput) (s : ChatSystem) : ChatSystem :=
  { s with checked := s.checked ++ [(i, input)] }

/-- What a tool of a turn does first. -/
def act (i : ℕ) (now : String) (s : ChatSystem) : ToolAction → ChatSystem
  | .nothing => s
  | .readCounts => s
  | .readOrder n customerId => s.access collation upper i customerId (.getOrderStatus n)
  | .checkCancellation n customerId =>
    let looked := s.access collation upper i customerId (.getOrderStatus n)
    match (getOrderStatusRow n customerId).run s.system.db with
    | .ok (some existing, _) =>
      if existing.status ∈ cancellableOrderStatuses then looked.check i ⟨n, customerId, ""⟩ else looked
    | _ => looked
  | .startRefund input => s.start i (.refund input)
  | .saveMemory userId key value => s.access collation upper i userId (.saveMemory key value now)
  | .readMemories userId => s.access collation upper i userId .getMemories

/-- A call of a turn that is in its tool node, with the user id of its state injected. -/
def callTool (i k : ℕ) (now : String) (s : ChatSystem) : Option ChatSystem := do
  let turn ← s.turns[i]?
  match turn.position.place with
  | .node (.tools name) =>
    let call ← (executedCalls name turn.position.state)[k]?
    let userId ← turn.position.state.userId
    some (s.act collation upper i now (toolAction lower call.name (injectUserId userId call.args)))
  | _ => none

/-- The second half of `cancel_order`. -/
def startChecked (k : ℕ) (s : ChatSystem) : Option ChatSystem :=
  match s.checked[k]? with
  | none => none
  | some (i, input) => some ({ s with checked := s.checked.eraseIdx k }.start i (.cancelOrder input))

end ChatSystem

/-- One event of the system. Workflows are started by the tools only. -/
def chatStep (required : Bool) (collation : Collation) (upper lower : String → String) (s : ChatSystem) :
    ChatEvent → Option ChatSystem
  | .request authorization verified request admitted =>
    some (s.receive required authorization verified request admitted)
  | .superstep i o => s.superstep i o
  | .toolCall i k now => s.callTool collation upper lower i k now
  | .startChecked k => s.startChecked k
  | .expire key => some { s with checkpoints := Function.update s.checkpoints key none }
  | .system (.start _ _) => none
  | .system e => (orderService.step s.system e).map fun system => { s with system := system }

section Activities

/-- What an activity is asked to do. -/
def OrderActivity.request : OrderActivity → OrderActionInput
  | .cancelOrder input => input
  | .loadRefundOrder input => input
  | .executeRefund input => input

/-- An activity keeps the rows of everyone but its requester. -/
theorem OrderActivity.othersKept (a : OrderActivity) {db : Database} (h : StoreSound db)
    (memories : List UserMemory) :
    (StoreTables.mk db memories).OthersKept a.request.requestedBy ⟨(a.perform db).2, memories⟩ := by
  have hschema : (StoreTables.mk db memories).db.Schema := h.schema
  cases a with
  | cancelOrder input =>
    obtain ⟨result, db', hrun, hout⟩ := cancelOrderActivity_outcome db input
    simp only [OrderActivity.perform, hrun, OrderActivity.request]
    cases hout with
    | missing _ => exact .refl _ _
    | refused o _ _ => exact .refl _ _
    | done o ho _ => exact StoreTables.othersKept_setOrderStatus hschema ho .cancelled
  | loadRefundOrder input =>
    simp only [OrderActivity.perform, loadRefundOrderActivity_unchanged]
    exact .refl _ _
  | executeRefund input =>
    have hout := executeRefundActivity_outcome h input
    simp only [OrderActivity.perform, OrderActivity.request]
    generalize executeRefundActivity input db = out at hout ⊢
    cases hout with
    | settled o amount ho _ _ _ _ =>
      exact StoreTables.othersKept_settle hschema ho amount input.reason _
    | _ => exact .refl _ _

variable {r : OrderRun} {t : OrderAttempt}

/-- The activities of a run are asked for what the run was started with. -/
theorem request_of_attempted {db : Database} {events : List OrderEvent} {s : OrderSystem}
    (hrun : runFrom orderService.step (System.initial db) events = some s) (hr : r ∈ s.runs)
    (ht : t ∈ r.attempts) : t.activity.request = r.input.request := by
  cases hinput : r.input with
  | cancelOrder inp =>
    rw [(CancelOrderWorkflow.kept.holds hrun r hr inp hinput).attempted ht]
    rfl
  | refund inp =>
    rcases (RefundWorkflow.kept.holds hrun r hr inp hinput).attempted ht with hload | ⟨hexecute, -⟩
    · rw [hload]
      rfl
    · rw [hexecute]
      rfl

end Activities

end Agentops
