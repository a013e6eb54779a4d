import Agentops.Agent.OrderIds
import Agentops.Workflow.Executions

/-!
# The tools that start workflows

`cancel_order` and `request_refund` over the system of workflow runs. A workflow id is made of
the order number alone, and a start request for an id with an open run is answered with that run.
`cancel_order` looks the customer's order up before it starts anything, with an `await` in
between; `request_refund` starts at once.
-/

namespace Agentops

open DurableExecution LabelledRun

/-- The tools that start workflows. -/
inductive OrderTool
  | cancelOrder
  | requestRefund
  deriving DecidableEq, Repr

/-- `f"cancel-order-{order_number}"` and `f"refund-order-{order_number}"`. -/
def OrderTool.workflowId : OrderTool → ℤ → String
  | .cancelOrder, n => "cancel-order-" ++ toString n
  | .requestRefund, n => "refund-order-" ++ toString n

/-- Different orders and different tools have different workflow ids. -/
theorem OrderTool.workflowId_inj {tool tool' : OrderTool} {n n' : ℤ}
    (h : tool.workflowId n = tool'.workflowId n') : tool = tool' ∧ n = n' := by
  have hfirst := congrArg (fun s : String => s.toList.head?) h
  have hsame : tool = tool' := by
    cases tool <;> cases tool' <;> simp [workflowId] at hfirst ⊢
  subst hsame
  refine ⟨rfl, Decimal.toString_int_injective ?_⟩
  cases tool <;> exact (String.append_right_inj _).mp h

/-- The tool behind a run, and the request it was started with. -/
def WorkflowInput.tool : WorkflowInput → OrderTool
  | .cancelOrder _ => .cancelOrder
  | .refund _ => .requestRefund

/-- The input of either workflow. -/
def WorkflowInput.request : WorkflowInput → OrderActionInput
  | .cancelOrder input => input
  | .refund input => input

/-- The results of the two tools. The order id that each of them echoes is left out. -/
inductive ToolResult
  | invalidOrderId
  | valueError
  | databaseError (e : SqlError)
  | notFound
  | notCancellable (status : OrderStatus) (reason : String)
  | accepted (workflowId : String) (runId : ℕ)
  deriving DecidableEq, Repr

/-- A tool call that has been answered. -/
structure Answer where
  tool : OrderTool
  userId : String
  orderId : OrderId
  result : ToolResult
  deriving DecidableEq, Repr

/-- The workflow system with its tools: cancellations that have passed their check and are about
to start, and every answer given so far. -/
structure World where
  system : OrderSystem
  checked : List OrderActionInput
  answers : List Answer

/-- The world before any tool is called. -/
def World.initial (db : Database) : World := ⟨.initial db, [], []⟩

/-- `start_workflow` with `USE_EXISTING` and `ALLOW_DUPLICATE`: the open run, or a new one. -/
def startWorkflow (input : WorkflowInput) (s : OrderSystem) : OrderSystem × ToolResult :=
  let id := input.tool.workflowId input.request.orderNumber
  match s.openRun id with
  | some i => (s, .accepted id i)
  | none =>
    ({ s with runs := s.runs ++ [Run.start orderService id input] }, .accepted id s.runs.length)

/-- A request for an id with an open run is answered with that run. -/
theorem startWorkflow_joined {input : WorkflowInput} {s : OrderSystem} {i : ℕ}
    (h : s.openRun (input.tool.workflowId input.request.orderNumber) = some i) :
    startWorkflow input s =
      (s, .accepted (input.tool.workflowId input.request.orderNumber) i) := by
  simp [startWorkflow, h]

/-- Any other request starts a run. -/
theorem startWorkflow_new {input : WorkflowInput} {s : OrderSystem}
    (h : s.openRun (input.tool.workflowId input.request.orderNumber) = none) :
    startWorkflow input s =
      ({ s with runs := s.runs ++ [Run.start orderService
          (input.tool.workflowId input.request.orderNumber) input] },
        .accepted (input.tool.workflowId input.request.orderNumber) s.runs.length) := by
  simp [startWorkflow, h]

/-- What can happen: the first part of `cancel_order`, its second part, `request_refund`, and
everything else in the system. -/
inductive ToolEvent
  | cancelOrder (userId orderId : String)
  | startChecked (k : ℕ)
  | requestRefund (userId orderId reason : String)
  | system (e : OrderEvent)
  deriving DecidableEq, Repr

namespace World

/-- The tool answers its caller. -/
def answer (tool : OrderTool) (userId : String) (orderId : OrderId) (result : ToolResult) (w : World) :
    World :=
  { w with answers := w.answers ++ [⟨tool, userId, orderId, result⟩] }

/-- The tool starts its workflow and answers with it. -/
def start (input : WorkflowInput) (orderId : OrderId) (w : World) : World :=
  let (s, result) := startWorkflow input w.system
  ({ w with system := s }).answer input.tool input.request.requestedBy orderId result

/-- `cancel_order` up to the start of the workflow. -/
def cancelOrder (userId : String) (orderId : OrderId) (w : World) : World :=
  match orderId with
  | .invalid => w.answer .cancelOrder userId orderId .invalidOrderId
  | .tooLong => w.answer .cancelOrder userId orderId .valueError
  | .number n =>
    match (getOrderStatusRow n userId).run w.system.db with
    | .error e => w.answer .cancelOrder userId orderId (.databaseError e)
    | .ok (none, _) => w.answer .cancelOrder userId orderId .notFound
    | .ok (some existing, _) =>
      if existing.status ∈ cancellableOrderStatuses then
        { w with checked := w.checked ++ [⟨n, userId, ""⟩] }
      else w.answer .cancelOrder userId orderId (.notCancellable existing.status
        ((cancellationRejectionReasons existing.status).getD "status_not_cancellable"))

/-- `request_refund`. -/
def requestRefund (userId : String) (orderId : OrderId) (reason : String) (w : World) : World :=
  match orderId with
  | .invalid => w.answer .requestRefund userId orderId .invalidOrderId
  | .tooLong => w.answer .requestRefund userId orderId .valueError
  | .number n => w.start (.refund ⟨n, userId, String.ofList (strip reason.toList)⟩) orderId

/-- Starting a workflow leaves the database alone. -/
theorem db_start (input : WorkflowInput) (orderId : OrderId) (w : World) :
    (w.start input orderId).system.db = w.system.db := by
  unfold start
  cases hopen : w.system.openRun (input.tool.workflowId input.request.orderNumber) with
  | some i =>
    rw [startWorkflow_joined hopen]
    rfl
  | none =>
    rw [startWorkflow_new hopen]
    rfl

/-- So does asking for a refund. -/
theorem db_requestRefund (userId : String) (orderId : OrderId) (reason : String) (w : World) :
    (w.requestRefund userId orderId reason).system.db = w.system.db := by
  cases orderId with
  | invalid => rfl
  | tooLong => rfl
  | number n => exact db_start _ _ w

end World

/-- One event of the world. Workflows are started by the tools only. -/
def toolStep (w : World) : ToolEvent → Option World
  | .cancelOrder userId orderId => some (w.cancelOrder userId (parseOrderId orderId))
  | .startChecked k =>
    match w.checked[k]? with
    | none => none
    | some input =>
      some (({ w with checked := w.checked.eraseIdx k }).start (.cancelOrder input)
        (.number input.orderNumber.toNat))
  | .requestRefund userId orderId reason => some (w.requestRefund userId (parseOrderId orderId) reason)
  | .system (.start _ _) => none
  | .system e => (orderService.step w.system e).map fun s => { w with system := s }

end Agentops
