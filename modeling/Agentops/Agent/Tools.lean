import Agentops.Agent.Graph
import Agentops.Agent.OrderTools
import Agentops.Foundations.Json
import Agentops.Store.Customers

/-!
# The tools of the specialists

A tool is called with the arguments that a model has made up, in which the user id of the state takes
the place of any argument of that name. What a tool does first is given by its name and these
arguments; arguments that are missing or of the wrong type do nothing.
-/

namespace Agentops

/-- The arguments of a tool call, of any names and shapes. -/
abbrev ToolArgs := List (String × Json)

/-- `InjectedState("user_id")`. -/
def injectUserId (userId : String) (args : ToolArgs) : ToolArgs :=
  ("user_id", .string userId) :: args.filter fun arg => arg.1 ≠ "user_id"

/-- An argument that has to be a text. -/
def textArg (name : String) (args : ToolArgs) : Option String := (args.lookup name).bind Json.text?

/-- The user id that a tool is called with is that of the state. -/
theorem textArg_injectUserId (userId : String) (args : ToolArgs) :
    textArg "user_id" (injectUserId userId args) = some userId := rfl

/-- What a tool does first. -/
inductive ToolAction
  | nothing
  | readOrder (orderNumber : ℤ) (customerId : String)
  | checkCancellation (orderNumber : ℤ) (customerId : String)
  | startRefund (input : OrderActionInput)
  | saveMemory (userId memoryKey memoryValue : String)
  | readMemories (userId : String)
  | readCounts
  deriving DecidableEq, Repr

/-- The number of an order id, if it is one. -/
def OrderId.number? : OrderId → Option ℤ
  | .number n => some n
  | _ => none

/-- `get_order_status`. -/
def getOrderStatusTool (args : ToolArgs) : Option ToolAction := do
  let orderId ← textArg "order_id" args
  let userId ← textArg "user_id" args
  let n ← (parseOrderId orderId).number?
  return .readOrder n userId

/-- `cancel_order`, up to its check. -/
def cancelOrderTool (args : ToolArgs) : Option ToolAction := do
  let orderId ← textArg "order_id" args
  let userId ← textArg "user_id" args
  let n ← (parseOrderId orderId).number?
  return .checkCancellation n userId

/-- `request_refund`. -/
def requestRefundTool (args : ToolArgs) : Option ToolAction := do
  let orderId ← textArg "order_id" args
  let reason ← textArg "reason" args
  let userId ← textArg "user_id" args
  let n ← (parseOrderId orderId).number?
  return .startRefund ⟨n, userId, String.ofList (strip reason.toList)⟩

/-- `save_user_preference`; the small letters of a text are a parameter. -/
def saveUserPreferenceTool (lower : String → String) (args : ToolArgs) : Option ToolAction := do
  let memoryKey ← textArg "memory_key" args
  let memoryValue ← textArg "memory_value" args
  let userId ← textArg "user_id" args
  return .saveMemory userId (lower (String.ofList (strip memoryKey.toList)))
    (String.ofList (strip memoryValue.toList))

/-- `get_user_preferences`. -/
def getUserPreferencesTool (args : ToolArgs) : Option ToolAction := do
  let userId ← textArg "user_id" args
  return .readMemories userId

/-- What the tool of a name does first with its arguments. -/
def toolAction (lower : String → String) (name : String) (args : ToolArgs) : ToolAction :=
  let action : Option ToolAction :=
    match name with
    | "get_order_status" => getOrderStatusTool args
    | "cancel_order" => cancelOrderTool args
    | "request_refund" => requestRefundTool args
    | "save_user_preference" => saveUserPreferenceTool lower args
    | "get_user_preferences" => getUserPreferencesTool args
    | "get_platform_health" => some .readCounts
    | _ => none
  action.getD .nothing

/-- The customer that an action is for. -/
def ToolAction.customer? : ToolAction → Option String
  | .nothing | .readCounts => none
  | .readOrder _ customerId => some customerId
  | .checkCancellation _ customerId => some customerId
  | .startRefund input => some input.requestedBy
  | .saveMemory userId _ _ => some userId
  | .readMemories userId => some userId

/-- The action is for this customer, if it is for anybody. -/
def ToolAction.OnlyFor (userId : String) (action : ToolAction) : Prop :=
  ∀ customerId, action.customer? = some customerId → customerId = userId

/-- Other arguments are those of the model. -/
theorem textArg_injectUserId_of_ne {name : String} (hname : name ≠ "user_id") (userId : String) (args : ToolArgs) :
    textArg name (injectUserId userId args) = textArg name args := by
  have hlookup : (args.filter fun arg => arg.1 ≠ "user_id").lookup name = args.lookup name := by
    induction args with
    | nil => rfl
    | cons arg args ih =>
      obtain ⟨key, value⟩ := arg
      by_cases hkey : key = "user_id"
      · subst hkey
        rw [List.filter_cons_of_neg (by simp), ih, List.lookup_cons, beq_false_of_ne hname]
      · rw [List.filter_cons_of_pos (by simpa using hkey), List.lookup_cons, List.lookup_cons, ih]
  rw [textArg, injectUserId, List.lookup_cons, beq_false_of_ne hname]
  exact congrArg (Option.bind · Json.text?) hlookup

/-- A refund is started by `request_refund` only, for the order that the call names. -/
theorem exists_of_toolAction_eq_startRefund {lower : String → String} {name userId : String} {args : ToolArgs}
    {input : OrderActionInput} (h : toolAction lower name (injectUserId userId args) = .startRefund input) :
    name = "request_refund" ∧
      ∃ orderId, textArg "order_id" args = some orderId ∧ (parseOrderId orderId).number? = some input.orderNumber := by
  have haction : ∀ {action : Option ToolAction}, action.getD .nothing = .startRefund input →
      action = some (.startRefund input) := by
    intro action haction
    cases action with
    | none => cases haction
    | some a => exact congrArg some haction
  unfold toolAction at h
  replace h := haction h
  split at h
  case h_3 =>
    simp only [requestRefundTool, textArg_injectUserId_of_ne (show "order_id" ≠ "user_id" by decide),
      Option.bind_eq_bind, Option.bind_eq_some_iff] at h
    obtain ⟨orderId, horderId, _, -, _, -, n, hn, h⟩ := h
    cases h
    exact ⟨rfl, orderId, horderId, hn⟩
  case h_1 => simp [getOrderStatusTool, Option.bind_eq_some_iff] at h
  case h_2 => simp [cancelOrderTool, Option.bind_eq_some_iff] at h
  case h_4 => simp [saveUserPreferenceTool, Option.bind_eq_some_iff] at h
  case h_5 => simp [getUserPreferencesTool, Option.bind_eq_some_iff] at h
  case h_6 => cases h
  case h_7 => cases h

section Injected

variable {args : ToolArgs} {userId : String} {action : ToolAction}

/-- An action for the customer is for nobody else. -/
theorem onlyFor_of_customer_eq (h : action.customer? = some userId) : action.OnlyFor userId := by
  intro customerId hc
  exact (Option.some.inj (h.symm.trans hc)).symm

/-- An action for no customer is for nobody else. -/
theorem onlyFor_of_customer_eq_none (h : action.customer? = none) : action.OnlyFor userId := by
  intro customerId hc
  exact absurd (h.symm.trans hc) (by simp)

/-- `get_order_status` acts for the user it is given. -/
theorem onlyFor_getOrderStatusTool (huser : textArg "user_id" args = some userId)
    (h : getOrderStatusTool args = some action) : action.OnlyFor userId := by
  simp only [getOrderStatusTool, huser, Option.bind_eq_bind, Option.bind_eq_some_iff,
    Option.some.injEq] at h
  obtain ⟨_, -, _, rfl, _, -, h⟩ := h
  cases h
  exact onlyFor_of_customer_eq rfl

/-- So does `cancel_order`. -/
theorem onlyFor_cancelOrderTool (huser : textArg "user_id" args = some userId)
    (h : cancelOrderTool args = some action) : action.OnlyFor userId := by
  simp only [cancelOrderTool, huser, Option.bind_eq_bind, Option.bind_eq_some_iff,
    Option.some.injEq] at h
  obtain ⟨_, -, _, rfl, _, -, h⟩ := h
  cases h
  exact onlyFor_of_customer_eq rfl

/-- So does `request_refund`. -/
theorem onlyFor_requestRefundTool (huser : textArg "user_id" args = some userId)
    (h : requestRefundTool args = some action) : action.OnlyFor userId := by
  simp only [requestRefundTool, huser, Option.bind_eq_bind, Option.bind_eq_some_iff,
    Option.some.injEq] at h
  obtain ⟨_, -, _, -, _, rfl, _, -, h⟩ := h
  cases h
  exact onlyFor_of_customer_eq rfl

/-- So does `save_user_preference`. -/
theorem onlyFor_saveUserPreferenceTool {lower : String → String}
    (huser : textArg "user_id" args = some userId)
    (h : saveUserPreferenceTool lower args = some action) : action.OnlyFor userId := by
  simp only [saveUserPreferenceTool, huser, Option.bind_eq_bind, Option.bind_eq_some_iff,
    Option.some.injEq] at h
  obtain ⟨_, -, _, -, _, rfl, h⟩ := h
  cases h
  exact onlyFor_of_customer_eq rfl

/-- So does `get_user_preferences`. -/
theorem onlyFor_getUserPreferencesTool (huser : textArg "user_id" args = some userId)
    (h : getUserPreferencesTool args = some action) : action.OnlyFor userId := by
  simp only [getUserPreferencesTool, huser, Option.bind_eq_bind, Option.bind_eq_some_iff,
    Option.some.injEq] at h
  obtain ⟨_, rfl, h⟩ := h
  cases h
  exact onlyFor_of_customer_eq rfl

end Injected

/-- With the user id of the state injected, every tool acts for that user or for nobody, whatever the
model has made up. -/
theorem onlyFor_toolAction (lower : String → String) (name userId : String) (args : ToolArgs) :
    (toolAction lower name (injectUserId userId args)).OnlyFor userId := by
  have huser := textArg_injectUserId userId args
  have hgetD : ∀ action : Option ToolAction, (∀ a, action = some a → a.OnlyFor userId) →
      (action.getD .nothing).OnlyFor userId := by
    intro action h
    cases action with
    | none => exact onlyFor_of_customer_eq_none rfl
    | some a => exact h a rfl
  unfold toolAction
  refine hgetD _ fun action haction => ?_
  split at haction
  · exact onlyFor_getOrderStatusTool huser haction
  · exact onlyFor_cancelOrderTool huser haction
  · exact onlyFor_requestRefundTool huser haction
  · exact onlyFor_saveUserPreferenceTool huser haction
  · exact onlyFor_getUserPreferencesTool huser haction
  · cases haction
    exact onlyFor_of_customer_eq_none rfl
  · exact absurd haction (by simp)

end Agentops
