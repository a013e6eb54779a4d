import Agentops.Foundations.Decimal
import Agentops.Store.Invariant

/-!
# The activities of `app/temporal_workflows/activities.py`

An activity is one transaction of the store followed by what Python makes of its result: a
reply, or an `ApplicationError`. An error is raised after the transaction has ended, so what it
committed stays committed. Amounts travel as text, `str(…)` of a decimal with two places.
-/

namespace Agentops

open Transaction

/-- `OrderActionInput`. -/
structure OrderActionInput where
  orderNumber : ℤ
  requestedBy : String
  reason : String := ""
  deriving DecidableEq, Repr

/-- `ApprovalInput`. -/
structure ApprovalInput where
  approved : Bool
  approvedBy : String
  deriving DecidableEq, Repr

/-- Why an activity or a workflow fails. `attemptLost` is what Temporal reports for an attempt
it has heard nothing of; `exception` is raised by workflow code itself. -/
inductive Failure
  | applicationError (message type : String) (nonRetryable : Bool)
  | databaseError (e : SqlError)
  | attemptLost
  | exception (name : String)
  deriving DecidableEq, Repr

/-- The failure of an activity that does not find the order. -/
def Failure.orderNotFound : Failure := .applicationError "Order not found" "OrderNotFound" true

/-- The failure of an activity that may not refund the order. -/
def Failure.refundNotAllowed : Failure :=
  .applicationError "Only delivered orders can be refunded" "RefundNotAllowed" true

/-- The dictionary that `load_refund_order_activity` returns. -/
structure LoadedOrder where
  id : ℤ
  status : OrderStatus
  amount : String
  deriving DecidableEq, Repr

/-- The dictionary that `execute_refund_activity` returns. -/
structure ExecutedRefund where
  id : ℤ
  status : OrderStatus
  amount : String
  refunded : Bool
  reason : Option String
  deriving DecidableEq, Repr

/-- `str(…)` of an amount of the database. -/
def amountText (cents : ℕ) : String := (Decimal.mk false cents (-2)).str

example : amountText 74900 = "749.00" ∧ amountText 5 = "0.05" := by decide

/-- Reading the text of an amount gives the amount. -/
@[simp] theorem ofString?_amountText (cents : ℕ) :
    Decimal.ofString? (amountText cents) = some ⟨false, cents, -2⟩ := Decimal.ofString?_str _

/-- Different amounts have different texts. -/
theorem amountText_injective : Function.Injective amountText := by
  intro a b h
  have hread := congrArg Decimal.ofString? h
  simpa using hread

/-- Run a transaction and make a reply of its result. -/
def inTransaction {α β : Type} (tx : Tx α) (finish : α → Except Failure β) (db : Database) :
    Except Failure β × Database :=
  match tx.run db with
  | .error e => (.error (.databaseError e), tx.rolledBack db)
  | .ok (result, db') => (finish result, db')

/-- `cancel_order_activity`. -/
def cancelOrderActivity (input : OrderActionInput) :
    Database → Except Failure CancellationResult × Database :=
  inTransaction (cancelOrderRow input.orderNumber input.requestedBy) .ok

/-- `load_refund_order_activity`. -/
def loadRefundOrderActivity (input : OrderActionInput) :
    Database → Except Failure LoadedOrder × Database :=
  inTransaction (getRefundOrderRow input.orderNumber input.requestedBy) fun
    | none => .error .orderNotFound
    | some row => .ok ⟨row.id, row.status, amountText row.total⟩

/-- `execute_refund_activity`. -/
def executeRefundActivity (input : OrderActionInput) :
    Database → Except Failure ExecutedRefund × Database :=
  let key := refundIdempotencyKey input.orderNumber
  inTransaction (refundOrderRow input.orderNumber input.requestedBy input.reason key) fun
    | none => .error .orderNotFound
    | some result =>
      if result.reason = some "order_not_delivered" then .error .refundNotAllowed
      else .ok ⟨result.id, result.status, amountText result.amount, result.refunded, result.reason⟩

section Outcomes

variable {db : Database}

/-- The cases of `load_refund_order_activity`. -/
inductive LoadOutcome (db : Database) (input : OrderActionInput) : Except Failure LoadedOrder → Prop
  | missing (h : db.findOrder input.orderNumber input.requestedBy = none) :
      LoadOutcome db input (.error .orderNotFound)
  | loaded (o : Order) (h : db.findOrder input.orderNumber input.requestedBy = some o) :
      LoadOutcome db input (.ok ⟨o.id, o.status, amountText (db.total o)⟩)

/-- Loading reads the order and changes nothing. -/
theorem loadRefundOrderActivity_outcome (h : StoreSound db) (input : OrderActionInput) :
    ∃ reply, loadRefundOrderActivity input db = (reply, db) ∧ LoadOutcome db input reply := by
  have hrun := getRefundOrderRow_run h.schema.orderProduct input.orderNumber input.requestedBy
  cases hfind : db.findOrder input.orderNumber input.requestedBy with
  | none =>
    refine ⟨_, ?_, .missing hfind⟩
    simp [loadRefundOrderActivity, inTransaction, hrun, hfind]
  | some o =>
    refine ⟨_, ?_, .loaded o hfind⟩
    simp [loadRefundOrderActivity, inTransaction, hrun, hfind]

/-- Loading reads and changes nothing, whatever the tables hold. -/
theorem loadRefundOrderActivity_unchanged (db : Database) (input : OrderActionInput) :
    (loadRefundOrderActivity input db).2 = db := by
  simp [loadRefundOrderActivity, inTransaction, Tx.run, getRefundOrderRow, Tx.execute,
    Program.ofStatement, Engine.run, postgres, Sql.execute, Engine.applyAll]

/-- Executing a refund changes nothing when it fails, whatever the tables hold. -/
theorem executeRefundActivity_unchanged {db : Database} {input : OrderActionInput} {e : Failure}
    (h : (executeRefundActivity input db).1 = .error e) : (executeRefundActivity input db).2 = db := by
  unfold executeRefundActivity inTransaction at h ⊢
  cases hrun : (refundOrderRow input.orderNumber input.requestedBy input.reason
      (refundIdempotencyKey input.orderNumber)).run db with
  | error e => exact refundOrderRow_rolledBack db _ _ _ _
  | ok out =>
    obtain ⟨result, db'⟩ := out
    rw [hrun] at h
    rcases refundOrderRow_changes hrun with rfl | ⟨x, rfl, hreason⟩
    · rfl
    · simp [hreason] at h

/-- The cases of `execute_refund_activity`. -/
inductive ExecuteOutcome (db : Database) (input : OrderActionInput) :
    Except Failure ExecutedRefund × Database → Prop
  | missing (h : db.findOrder input.orderNumber input.requestedBy = none) :
      ExecuteOutcome db input (.error .orderNotFound, db)
  | alreadyRefunded (o : Order) (r : Refund)
      (h : db.findOrder input.orderNumber input.requestedBy = some o) (hr : r ∈ db.refunds)
      (hid : r.orderId = input.orderNumber) :
      ExecuteOutcome db input
        (.ok ⟨input.orderNumber, .refunded, amountText r.amount.cents, false, some "already_refunded"⟩,
          db)
  | notDelivered (o : Order) (h : db.findOrder input.orderNumber input.requestedBy = some o)
      (hst : o.status ≠ .delivered) :
      ExecuteOutcome db input (.error .refundNotAllowed, db)
  | settled (o : Order) (amount : Money)
      (h : db.findOrder input.orderNumber input.requestedBy = some o)
      (hnone : ∀ r ∈ db.refunds, r.orderId ≠ input.orderNumber) (hst : o.status = .delivered)
      (hamount : amount.cents = db.total o)
      (hkey : ∀ r ∈ db.refunds, r.idempotencyKey ≠ refundIdempotencyKey input.orderNumber) :
      ExecuteOutcome db input
        (.ok ⟨input.orderNumber, .refunded, amountText (db.total o), true, none⟩,
          db.settle input.orderNumber amount input.reason (refundIdempotencyKey input.orderNumber))
  | failed (e : SqlError) : ExecuteOutcome db input (.error (.databaseError e), db)

/-- `execute_refund_activity` does one of its five cases. -/
theorem executeRefundActivity_outcome (h : StoreSound db) (input : OrderActionInput) :
    ExecuteOutcome db input (executeRefundActivity input db) := by
  have hout := refundOrderRow_outcome h.schema.orderProduct input.orderNumber input.requestedBy
    input.reason (refundIdempotencyKey input.orderNumber)
  unfold executeRefundActivity inTransaction
  generalize (refundOrderRow input.orderNumber input.requestedBy input.reason
    (refundIdempotencyKey input.orderNumber)).run db = out at hout
  cases hout with
  | missing hfind => exact .missing hfind
  | alreadyRefunded o r hfind hr hid => exact .alreadyRefunded o r hfind hr hid
  | notDelivered o hfind hnone hst => exact .notDelivered o hfind hst
  | settled o amount hfind hnone hst hamount hkey =>
    exact .settled o amount hfind hnone hst hamount hkey
  | failed o e hfind hnone hst he =>
    simp only [refundOrderRow_rolledBack]
    exact .failed e

/-- `cancel_order_activity` does what `cancel_order_row` does. -/
theorem cancelOrderActivity_outcome (db : Database) (input : OrderActionInput) :
    ∃ result db', cancelOrderActivity input db = (.ok result, db') ∧
      CancelOutcome db input.orderNumber input.requestedBy (result, db') := by
  obtain ⟨⟨result, db'⟩, hrun, hout⟩ := cancelOrderRow_outcome db input.orderNumber input.requestedBy
  refine ⟨result, db', ?_, hout⟩
  simp [cancelOrderActivity, inTransaction, hrun]

/-- An execution of a refund is a safe change. -/
theorem ExecuteOutcome.safe {input : OrderActionInput} {out : Except Failure ExecutedRefund × Database}
    (hout : ExecuteOutcome db input out) (h : StoreSound db) : SafeChange db out.2 := by
  cases hout with
  | missing _ => exact .refl h
  | alreadyRefunded o r _ _ _ => exact .refl h
  | notDelivered o _ _ => exact .refl h
  | settled o amount hfind hnone hst hamount hkey =>
    obtain ⟨ho, hid, -⟩ := Database.findOrder_eq_some hfind
    rw [← hid] at hnone hkey ⊢
    exact h.safe_settle ho hst hnone hkey hamount
  | failed e => exact .refl h

end Outcomes

end Agentops
