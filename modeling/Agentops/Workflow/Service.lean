import Agentops.Foundations.DurableSystem
import Agentops.Store.WholeRuns
import Agentops.Workflow.Workflows

/-!
# The order workflows as durable runs over the store

The two workflows with their retry policy, the activities, and what else changes the tables:
orders are created, the process restarts, fulfilment moves orders forward, and another database
client may change a price. Every change keeps orders and refunds coupled and moves statuses
upwards; a price change is the only one after which an order's total may differ.
-/

namespace Agentops

open DurableExecution LabelledRun

/-- `ACTIVITY_RETRY_POLICY.non_retryable_error_types`. -/
def nonRetryableErrorTypes : List String := ["OrderNotFound", "RefundNotAllowed"]

/-- Whether Temporal tries again after a failed attempt. -/
def Failure.retryable : Failure → Bool
  | .applicationError _ type nonRetryable => !nonRetryable && decide (type ∉ nonRetryableErrorTypes)
  | .databaseError _ | .attemptLost | .exception _ => true

/-- The run method with its argument. -/
inductive WorkflowInput
  | cancelOrder (input : OrderActionInput)
  | refund (input : OrderActionInput)
  deriving DecidableEq, Repr

/-- What changes the tables beside the activities. -/
inductive Outside
  | createOrder (customerId productSku : String) (quantity : ℤ) (now : String)
  | rolledBack (drawn : ℕ)
  | restart
  | fulfil (orderNumber : ℤ) (status : OrderStatus)
  | setPrice (sku : String) (price : Money)
  deriving DecidableEq, Repr

/-- `UPDATE products SET price = … WHERE sku = …`, by another client. -/
def Database.setPrice (db : Database) (sku : String) (price : Money) : Database :=
  let change := fun p : Product => { p with price := price }
  { db with products := KeyedTable.update Product.sku sku change db.products }

/-- What happens to the database from outside. -/
def Outside.change : Outside → Database → Option Database
  | .createOrder c sku quantity now, db => storeStep db (.create c sku quantity now)
  | .rolledBack drawn, db => storeStep db (.rolledBack drawn)
  | .restart, db => storeStep db .restart
  | .fulfil n st, db => storeStep db (.fulfil n st)
  | .setPrice sku price, db => some (db.setPrice sku price)

/-- The change leaves prices alone. -/
def Outside.KeepsPrices : Outside → Prop
  | .setPrice _ _ => False
  | _ => True

/-- An activity, performed on the database. -/
def OrderActivity.perform : (a : OrderActivity) → Database → Except Failure a.Reply × Database
  | .cancelOrder input => cancelOrderActivity input
  | .loadRefundOrder input => loadRefundOrderActivity input
  | .executeRefund input => executeRefundActivity input

/-- The workflows and their activities. -/
def orderService : Service WorkflowInput WorkflowObject ApprovalInput OrderActivity
    OrderActivity.Reply Failure Database WorkflowState Outside where
  create _ := .init
  main
    | .cancelOrder input => CancelOrderWorkflow.run input
    | .refund input => RefundWorkflow.run input
  handle
    | .cancelOrder _ => fun _ self => self
    | .refund _ => RefundWorkflow.approve
  perform := OrderActivity.perform
  retryable := Failure.retryable
  maximumAttempts := 3
  attemptLost := .attemptLost
  outside := Outside.change

/-- A run of a workflow. -/
abbrev OrderRun := Run WorkflowInput WorkflowObject ApprovalInput OrderActivity OrderActivity.Reply
  Failure Database WorkflowState

/-- The runs, the messages and the database. -/
abbrev OrderSystem := System WorkflowInput WorkflowObject ApprovalInput OrderActivity
  OrderActivity.Reply Failure Database WorkflowState

/-- What happens to them. -/
abbrev OrderEvent := Event WorkflowInput ApprovalInput Outside

section Guarantees

variable {db : Database}

/-- Changing a price keeps orders and refunds as they are. -/
theorem StoreSound.setPrice (h : StoreSound db) (sku : String) (price : Money) :
    StoreSound (db.setPrice sku price) ∧ db.Evolves (db.setPrice sku price) := by
  refine ⟨⟨⟨h.schema.productsKey.update fun _ => rfl, h.schema.ordersKey, h.schema.refundsOrder,
    h.schema.refundsIdempotency, fun o ho => ?_, h.schema.refundOrder⟩, h.settled⟩,
    Database.evolves_of_grown (List.prefix_refl _) rfl⟩
  obtain ⟨p, hp, hsku⟩ := h.schema.orderProduct o ho
  let change := fun p : Product => { p with price := price }
  refine ⟨if p.sku = sku then change p else p, KeyedTable.mem_update.mpr ⟨p, hp, rfl⟩, ?_⟩
  split <;> exact hsku

/-- Every activity is a safe change. -/
theorem OrderActivity.safe (a : OrderActivity) (h : StoreSound db) : SafeChange db (a.perform db).2 := by
  cases a with
  | cancelOrder input =>
    obtain ⟨result, db', hrun, hout⟩ := cancelOrderActivity_outcome db input
    simpa [OrderActivity.perform, hrun] using hout.safe h
  | loadRefundOrder input =>
    obtain ⟨reply, hrun, -⟩ := loadRefundOrderActivity_outcome h input
    simpa [OrderActivity.perform, hrun] using SafeChange.refl h
  | executeRefund input => exact (executeRefundActivity_outcome h input).safe h

/-- Every outside change but that of a price is an event of the store other than a refund. -/
theorem Outside.exists_storeStep {x : Outside} {db' : Database} (hkeeps : x.KeepsPrices)
    (hx : x.change db = some db') :
    ∃ e, (∀ n c reason key, e ≠ .refund n c reason key) ∧ storeStep db e = some db' := by
  cases x with
  | createOrder c sku quantity now => exact ⟨.create c sku quantity now, by simp, hx⟩
  | rolledBack drawn => exact ⟨.rolledBack drawn, by simp, hx⟩
  | restart => exact ⟨.restart, by simp, hx⟩
  | fulfil n st => exact ⟨.fulfil n st, by simp, hx⟩
  | setPrice sku price => exact absurd hkeeps id

/-- Every outside change but that of a price is a safe change. -/
theorem Outside.safe {x : Outside} {db' : Database} (hkeeps : x.KeepsPrices) (h : StoreSound db)
    (hx : x.change db = some db') : SafeChange db db' := by
  obtain ⟨e, -, he⟩ := exists_storeStep hkeeps hx
  exact storeStep_safe h he

/-- Every outside change keeps orders and refunds coupled and moves statuses upwards. -/
theorem Outside.sound {x : Outside} {db' : Database} (h : StoreSound db)
    (hx : x.change db = some db') : StoreSound db' ∧ db.Evolves db' := by
  by_cases hkeeps : x.KeepsPrices
  · exact ⟨(safe hkeeps h hx).sound, (safe hkeeps h hx).evolves⟩
  · cases x with
    | setPrice sku price => exact Option.some.inj hx ▸ h.setPrice sku price
    | _ => exact absurd trivial hkeeps

/-- Nothing from outside touches the refunds table. -/
theorem Outside.refunds {x : Outside} {db' : Database} (h : db.Schema) (hx : x.change db = some db') :
    db'.refunds = db.refunds := by
  by_cases hkeeps : x.KeepsPrices
  · obtain ⟨e, hother, he⟩ := exists_storeStep hkeeps hx
    cases storeStep_moves h he with
    | refunded n c reason key _ _ _ _ _ _ _ => exact absurd rfl (hother n c reason key)
    | restarted => exact (initializeDatabase_grows h).2.2.2
    | _ => rfl
  · cases x with
    | setPrice sku price =>
      obtain rfl := Option.some.inj hx
      rfl
    | _ => exact absurd trivial hkeeps

/-- Whatever happens, orders and refunds stay coupled and statuses move upwards. -/
theorem orderService_guarantee :
    Guarantee orderService (fun _ => True) StoreSound Database.Evolves where
  refl := .refl
  trans _ _ _ := .trans
  perform a _ h := ⟨(a.safe h).sound, (a.safe h).evolves⟩
  outside _ _ _ _ h hx := Outside.sound h hx

/-- The second database is the first at a later time, with the same prices. -/
structure Database.EvolvesPriced (db db' : Database) : Prop where
  evolves : db.Evolves db'
  prices : db.PricesKept db'

/-- While prices are left alone, totals stay as they are. -/
theorem orderService_guarantee_priced :
    Guarantee orderService Outside.KeepsPrices StoreSound Database.EvolvesPriced where
  refl db := ⟨.refl db, .refl db⟩
  trans _ _ _ h h' := ⟨h.evolves.trans h'.evolves, h.prices.trans h'.prices⟩
  perform a _ h := ⟨(a.safe h).sound, (a.safe h).evolves, (a.safe h).prices⟩
  outside _ _ _ hkeeps h hx :=
    have hsafe := Outside.safe hkeeps h hx
    ⟨hsafe.sound, hsafe.evolves, hsafe.prices⟩

section Runs

variable {events : List OrderEvent} {s : OrderSystem}

/-- Every reachable system is sound, whatever happens outside. -/
theorem sound_of_run (hdb : StoreSound db)
    (hrun : runFrom orderService.step (System.initial db) events = some s) :
    Sound orderService StoreSound Database.Evolves s :=
  .of_run orderService_guarantee hdb (fun e _ => e.admissible_of_all) hrun

/-- And with prices left alone every order keeps its total. -/
theorem soundPriced_of_run (hdb : StoreSound db)
    (hallowed : ∀ e ∈ events, e.Admissible Outside.KeepsPrices)
    (hrun : runFrom orderService.step (System.initial db) events = some s) :
    Sound orderService StoreSound Database.EvolvesPriced s :=
  .of_run orderService_guarantee_priced hdb hallowed hrun

end Runs

end Guarantees

end Agentops
