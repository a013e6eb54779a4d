import Agentops.Foundations.Coroutine
import Agentops.Workflow.Activities

/-!
# The workflows of `app/temporal_workflows/workflows.py`

The `run` methods as coroutines over the workflow object. `self._state` is one of the
dictionaries that the two methods assign; the object also remembers the values the field had
before, so that what it has passed through can be spoken of. `CancelOrderWorkflow` has no
`approve` handler and leaves the approval alone.
-/

namespace Agentops

open DurableExecution

/-- The values of `"result"` in a completed state. -/
inductive WorkflowResult
  | cancellation (result : CancellationResult)
  | alreadyRefunded
  | refund (result : ExecutedRefund)
  deriving DecidableEq, Repr

/-- The dictionaries assigned to `self._state`. -/
inductive WorkflowState
  | started
  | cancelling
  | checkingOrder
  | waitingForApproval (amount : String)
  | refunding (amount : String)
  | completed (result : WorkflowResult)
  | rejected (reason : String)
  | failed
  deriving DecidableEq, Repr

/-- The object `self`: `_state` with its earlier values, and `_approval`. -/
structure WorkflowObject where
  state : WorkflowState
  earlier : List WorkflowState
  approval : Option ApprovalInput
  deriving DecidableEq, Repr

/-- `__init__`. -/
def WorkflowObject.init : WorkflowObject := ⟨.started, [], none⟩

/-- `self._state = …`. -/
def WorkflowObject.assign (self : WorkflowObject) (state : WorkflowState) : WorkflowObject :=
  { self with state := state, earlier := self.earlier ++ [self.state] }

/-- An activity with its input. -/
inductive OrderActivity
  | cancelOrder (input : OrderActionInput)
  | loadRefundOrder (input : OrderActionInput)
  | executeRefund (input : OrderActionInput)
  deriving DecidableEq, Repr

/-- What an activity returns. -/
abbrev OrderActivity.Reply : OrderActivity → Type
  | .cancelOrder _ => CancellationResult
  | .loadRefundOrder _ => LoadedOrder
  | .executeRefund _ => ExecutedRefund

/-- The coroutine of a workflow method. -/
abbrev WorkflowBody (α : Type) := Body WorkflowObject OrderActivity OrderActivity.Reply Failure α

/-- The stage of a workflow. -/
abbrev WorkflowStage :=
  Stage WorkflowObject OrderActivity OrderActivity.Reply Failure Database WorkflowState

/-- `self.state = state`. -/
def setState (state : WorkflowState) : WorkflowBody Unit := .modify fun self => self.assign state

/-- `return self._state`. -/
def returnState : WorkflowBody WorkflowState := .get WorkflowObject.state

/-- `except Exception: self._state = {"status": "FAILED"}; raise`. -/
def onException (e : Failure) : WorkflowBody WorkflowState := do
  setState .failed
  .throw e

/-- `REFUND_APPROVAL_THRESHOLD`. -/
def refundApprovalThreshold : Decimal := ⟨false, 200, 0⟩

/-- An amount of the database exceeds the threshold exactly when it is more than 200. -/
theorem refundApprovalThreshold_lt (cents : ℕ) :
    refundApprovalThreshold < ⟨false, cents, -2⟩ ↔ 20000 < cents := by
  have hthreshold : refundApprovalThreshold.value = 20000 / 100 := by
    norm_num [Decimal.value, refundApprovalThreshold]
  have hamount : (Decimal.mk false cents (-2)).value = cents / 100 := by
    norm_num [Decimal.value]
    ring
  change refundApprovalThreshold.value < (Decimal.mk false cents (-2)).value ↔ _
  rw [hthreshold, hamount, div_lt_div_iff_of_pos_right (by norm_num)]
  exact_mod_cast Iff.rfl

/-- `CancelOrderWorkflow.run`. -/
def CancelOrderWorkflow.run (input : OrderActionInput) : WorkflowBody WorkflowState := do
  setState .cancelling
  Body.tryCatch (do
    let result ← .executeActivity (.cancelOrder input)
    setState (.completed (.cancellation result))
    returnState) onException

namespace RefundWorkflow

/-- `lambda: self._approval is not None`. -/
def approvalGiven (self : WorkflowObject) : Bool := self.approval.isSome

/-- The end of `run`, from `"REFUNDING"` on. -/
def refund (input : OrderActionInput) (order : LoadedOrder) : WorkflowBody WorkflowState := do
  setState (.refunding order.amount)
  let result ← .executeActivity (.executeRefund input)
  setState (.completed (.refund result))
  returnState

/-- `if not self._approval.approved: …`, after the wait. -/
def answered (input : OrderActionInput) (order : LoadedOrder) :
    Option ApprovalInput → WorkflowBody WorkflowState
  | none => .throw (.exception "AttributeError")
  | some approval =>
    if approval.approved = false then do
      setState (.rejected "approval_denied")
      returnState
    else refund input order

/-- The middle of `run`, from the loaded order to the refund. -/
def decide (input : OrderActionInput) (order : LoadedOrder) : WorkflowBody WorkflowState :=
  if order.status = .refunded then do
    setState (.completed .alreadyRefunded)
    returnState
  else if order.status ≠ .delivered then do
    setState (.rejected "order_not_delivered")
    returnState
  else match Decimal.ofString? order.amount with
    | none => .throw (.exception "InvalidOperation")
    | some amount =>
      if refundApprovalThreshold < amount then do
        setState (.waitingForApproval order.amount)
        .waitCondition approvalGiven
        answered input order (← .get WorkflowObject.approval)
      else refund input order

/-- `RefundWorkflow.run`. -/
def run (input : OrderActionInput) : WorkflowBody WorkflowState :=
  Body.tryCatch (do
    setState .checkingOrder
    let order ← .executeActivity (.loadRefundOrder input)
    decide input order) onException

/-- `RefundWorkflow.approve`. -/
def approve (input : ApprovalInput) (self : WorkflowObject) : WorkflowObject :=
  { self with approval := some input }

end RefundWorkflow

section Continuations

/-! Where the coroutines stand while they are blocked. -/

/-- What follows the activity in `CancelOrderWorkflow.run`. -/
def CancelOrderWorkflow.afterCancel (reply : Except Failure CancellationResult) :
    WorkflowBody WorkflowState :=
  match reply with
  | .ok result => Body.tryCatch (do
      setState (.completed (.cancellation result))
      returnState) onException
  | .error e => onException e

namespace RefundWorkflow

/-- What follows the first activity in `RefundWorkflow.run`. -/
def afterLoad (input : OrderActionInput) (reply : Except Failure LoadedOrder) :
    WorkflowBody WorkflowState :=
  match reply with
  | .ok order => Body.tryCatch (decide input order) onException
  | .error e => onException e

/-- What follows the second one. -/
def afterExecute (reply : Except Failure ExecutedRefund) : WorkflowBody WorkflowState :=
  match reply with
  | .ok result => Body.tryCatch (do
      setState (.completed (.refund result))
      returnState) onException
  | .error e => onException e

/-- What follows the wait. -/
def afterWait (input : OrderActionInput) (order : LoadedOrder) : WorkflowBody WorkflowState :=
  Body.tryCatch (do answered input order (← .get WorkflowObject.approval)) onException

end RefundWorkflow

end Continuations

section Driven

/-- A stage is determined by what its continuation does. -/
theorem awaiting_congr {a : OrderActivity} {next next' : Except Failure a.Reply → WorkflowBody WorkflowState}
    (self : WorkflowObject) (h : ∀ reply, next reply = next' reply) :
    ((self, .awaiting a next 1 none) : WorkflowObject × WorkflowStage) = (self, .awaiting a next' 1 none) := by
  rw [funext h]

variable (self : WorkflowObject) (input : OrderActionInput)

namespace CancelOrderWorkflow

/-- A cancellation awaits its one activity. -/
theorem drive_run : ((run input).drive self : WorkflowObject × WorkflowStage) =
    (self.assign .cancelling, .awaiting (.cancelOrder input) afterCancel 1 none) :=
  awaiting_congr _ fun reply => by cases reply <;> rfl

end CancelOrderWorkflow

namespace RefundWorkflow

/-- A refund loads its order first. -/
theorem drive_run : ((run input).drive self : WorkflowObject × WorkflowStage) =
    (self.assign .checkingOrder, .awaiting (.loadRefundOrder input) (afterLoad input) 1 none) :=
  awaiting_congr _ fun reply => by cases reply <;> rfl

/-- From `"REFUNDING"` on the execution is awaited. -/
theorem drive_refund (order : LoadedOrder) :
    ((Body.tryCatch (refund input order) onException).drive self : WorkflowObject × WorkflowStage) =
      (self.assign (.refunding order.amount), .awaiting (.executeRefund input) afterExecute 1 none) :=
  awaiting_congr _ fun reply => by cases reply <;> rfl

/-- What becomes of a workflow at the wait: it goes on waiting, is denied, or refunds. -/
inductive Wakes (order : LoadedOrder) : WorkflowObject × WorkflowStage → Prop
  | waits (h : self.approval = none) :
      Wakes order (self, .waiting approvalGiven (afterWait input order))
  | denied (approval : ApprovalInput) (h : self.approval = some approval)
      (hdenied : approval.approved = false) :
      Wakes order (self.assign (.rejected "approval_denied"), .returned (.rejected "approval_denied"))
  | approved (approval : ApprovalInput) (h : self.approval = some approval)
      (happroved : approval.approved = true) :
      Wakes order (self.assign (.refunding order.amount),
        .awaiting (.executeRefund input) afterExecute 1 none)

/-- A run that waits is woken by the answer. -/
theorem drive_wait (order : LoadedOrder) :
    Wakes self input order ((Body.wait approvalGiven (afterWait input order)).drive self) := by
  cases h : self.approval with
  | none =>
    have hdrive : ((Body.wait approvalGiven (afterWait input order)).drive self :
        WorkflowObject × WorkflowStage) = (self, .waiting approvalGiven (afterWait input order)) := by
      simp [Body.drive, approvalGiven, h]
    exact hdrive ▸ .waits h
  | some approval =>
    have hgiven : approvalGiven self = true := by simp [approvalGiven, h]
    have hwake : ((Body.wait approvalGiven (afterWait input order)).drive self :
        WorkflowObject × WorkflowStage) =
          ((answered input order self.approval).tryCatch onException).drive self := by
      simp only [Body.drive, hgiven, if_true]
      rfl
    rw [hwake, h]
    cases happroved : approval.approved with
    | false =>
      simp only [answered, happroved, if_true]
      exact .denied approval h happroved
    | true =>
      simp only [answered, happroved, Bool.true_eq_false, if_false]
      exact drive_refund self input order ▸ .approved approval h happroved

/-- What becomes of a workflow when its order is loaded. -/
inductive Decides (order : LoadedOrder) : WorkflowObject × WorkflowStage → Prop
  | alreadyRefunded (hst : order.status = .refunded) :
      Decides order (self.assign (.completed .alreadyRefunded), .returned (.completed .alreadyRefunded))
  | notDelivered (hst : order.status ≠ .refunded) (hst' : order.status ≠ .delivered) :
      Decides order (self.assign (.rejected "order_not_delivered"),
        .returned (.rejected "order_not_delivered"))
  | unreadable (hread : Decimal.ofString? order.amount = none) :
      Decides order (self.assign .failed, .raised (.exception "InvalidOperation"))
  | automatic (amount : Decimal) (hst : order.status = .delivered)
      (hread : Decimal.ofString? order.amount = some amount) (hle : ¬ refundApprovalThreshold < amount) :
      Decides order (self.assign (.refunding order.amount),
        .awaiting (.executeRefund input) afterExecute 1 none)
  | gated (amount : Decimal) (hst : order.status = .delivered)
      (hread : Decimal.ofString? order.amount = some amount) (hlt : refundApprovalThreshold < amount)
      (out : WorkflowObject × WorkflowStage)
      (hwakes : Wakes (self.assign (.waitingForApproval order.amount)) input order out) :
      Decides order out

/-- What a run does with the order it has loaded is decided by the order. -/
theorem drive_afterLoad (order : LoadedOrder) :
    Decides self input order ((afterLoad input (.ok order)).drive self) := by
  simp only [afterLoad, decide]
  by_cases hrefunded : order.status = .refunded
  · rw [if_pos hrefunded]
    exact .alreadyRefunded hrefunded
  · rw [if_neg hrefunded]
    by_cases hnot : order.status ≠ .delivered
    · rw [if_pos hnot]
      exact .notDelivered hrefunded hnot
    · rw [if_neg hnot]
      have hst : order.status = .delivered := not_not.mp hnot
      cases hread : Decimal.ofString? order.amount with
      | none => exact .unreadable hread
      | some amount =>
        by_cases hlt : refundApprovalThreshold < amount
        · simp only [hlt, if_true]
          exact .gated amount hst hread hlt _ (drive_wait _ input order)
        · simp only [hlt, if_false]
          exact drive_refund self input order ▸ .automatic amount hst hread hlt

end RefundWorkflow

end Driven

end Agentops
