import Agentops.Store.Statements

/-!
# The order functions of `app/database.py`

Each function is the transaction body that its `with database_connection()` block performs:
leaving the block commits, an exception rolls back. `initialize_database` runs alone at
process start and is given as its effect on the tables.
-/

namespace Agentops

open Transaction

/-- A transaction of the program. -/
abbrev Tx (α : Type) := Program Sql Sql.Answer α

/-- Perform a transaction alone: its result with the committed database, or the error that
rolled it back. -/
abbrev Tx.run {α : Type} (tx : Tx α) (db : Database) : Except SqlError (α × Database) :=
  postgres.run tx db

/-- The values of the sequence that a transaction draws, up to its end or its first error. -/
def Tx.drawn {α : Type} : Tx α → Database → ℕ
  | .done _, _ => 0
  | .perform s next, db =>
    s.drawn + match s.execute db with
      | .error _ => 0
      | .ok (x, writes) => Tx.drawn (next x) (postgres.applyAll writes db)

/-- The database after a transaction that has failed: what it drew from the sequence is not given
back. -/
def Tx.rolledBack {α : Type} (tx : Tx α) (db : Database) : Database :=
  { db with ordersSeq := db.ordersSeq + tx.drawn db }

/-- `connection.execute(…)` with the result it is fetched with. -/
def Tx.execute (s : Sql) : Tx s.Answer := .ofStatement s

/-- `CancellationResult`. -/
structure CancellationResult where
  found : Bool
  orderId : String
  cancelled : Bool
  status : Option OrderStatus
  previousStatus : Option OrderStatus
  reason : String
  deriving DecidableEq, Repr

/-- The dictionary that `refund_order_row` returns, the amount in cents. -/
structure RefundResult where
  id : ℤ
  status : OrderStatus
  amount : ℕ
  refunded : Bool
  reason : Option String
  deriving DecidableEq, Repr

/-- `get_order_status_row`. -/
def getOrderStatusRow (orderNumber : ℤ) (customerId : String) : Tx (Option OrderStatusRow) :=
  Tx.execute (.selectOrder orderNumber customerId)

/-- `cancel_order_row`. -/
def cancelOrderRow (orderNumber : ℤ) (customerId : String) : Tx CancellationResult := do
  let orderId := formatOrderId orderNumber
  match ← Tx.execute (.selectOrderForUpdate orderNumber customerId) with
  | none =>
    return { found := false, orderId := orderId, cancelled := false, status := none,
             previousStatus := none, reason := "order_not_found" }
  | some order =>
    let previousStatus := order.status
    if previousStatus ∉ cancellableOrderStatuses then
      return { found := true, orderId := formatOrderId order.id, cancelled := false,
               status := some previousStatus, previousStatus := some previousStatus,
               reason := (cancellationRejectionReasons previousStatus).getD "status_not_cancellable" }
    else
      let () ← Tx.execute (.updateOrderStatus orderNumber .cancelled)
      return { found := true, orderId := formatOrderId order.id, cancelled := true,
               status := some .cancelled, previousStatus := some previousStatus,
               reason := "cancelled" }

/-- `get_refund_order_row`. -/
def getRefundOrderRow (orderNumber : ℤ) (customerId : String) : Tx (Option RefundOrderRow) :=
  Tx.execute (.selectRefundOrder orderNumber customerId)

/-- `refund_order_row`. -/
def refundOrderRow (orderNumber : ℤ) (customerId reason idempotencyKey : String) :
    Tx (Option RefundResult) := do
  match ← Tx.execute (.selectRefundOrderForUpdate orderNumber customerId) with
  | none => return none
  | some order =>
    match ← Tx.execute (.selectRefundAmount orderNumber) with
    | some existing =>
      return some { id := orderNumber, status := .refunded, amount := existing, refunded := false,
                    reason := some "already_refunded" }
    | none =>
      if order.status ≠ .delivered then
        return some { id := orderNumber, status := order.status, amount := order.total,
                      refunded := false, reason := some "order_not_delivered" }
      else
        let () ← Tx.execute (.insertRefund orderNumber order.total reason idempotencyKey)
        let () ← Tx.execute (.updateOrderStatus orderNumber .refunded)
        return some { id := orderNumber, status := .refunded, amount := order.total,
                      refunded := true, reason := none }

/-- `create_order_row`. -/
def createOrderRow (customerId productSku : String) (quantity : ℤ) (now : String) :
    Tx (Option OrderView) := do
  let product ← Tx.execute (.selectProduct productSku)
  if product = false then
    return none
  else
    let created ← Tx.execute (.insertOrder customerId productSku quantity now)
    Tx.execute (.selectOrderView created)

section InitializeDatabase

/-- The rows of `products`. -/
def seedProducts : List Product :=
  [⟨"LAP-001", "Everyday Laptop 14", .laptop, ⟨74900, by decide, by decide⟩⟩,
   ⟨"LAP-002", "Developer Laptop 16", .laptop, ⟨129900, by decide, by decide⟩⟩,
   ⟨"PRN-001", "Office Laser Printer", .printer, ⟨32900, by decide, by decide⟩⟩,
   ⟨"PRN-002", "Home Inkjet Printer", .printer, ⟨14900, by decide, by decide⟩⟩,
   ⟨"SP-001", "Laptop Charger 65W", .sparePart, ⟨4900, by decide, by decide⟩⟩,
   ⟨"SP-002", "Printer Toner", .sparePart, ⟨7900, by decide, by decide⟩⟩]

/-- The list `statuses`. -/
def seedStatuses : List OrderStatus :=
  [.pending, .paid, .processing, .shipped, .delivered, .cancelled, .refunded]

/-- One tuple of `seed_orders`; `index` is `number - 1`. -/
def seedOrder (index : ℕ) : Order where
  id := (index : ℤ) + 1
  customerId := "CUS-" ++ zeroPadded 3 (((index % 30 : ℕ) : ℤ) + 1)
  productSku := (seedProducts.get ⟨index % 6, Nat.mod_lt _ (by decide)⟩).sku
  quantity := ⟨index % 3 + 1, by omega, by omega⟩
  status := seedStatuses.get ⟨index % 7, Nat.mod_lt _ (by decide)⟩
  createdAt := "2026-01-" ++ zeroPadded 2 (((index % 28 : ℕ) : ℤ) + 1) ++ "T00:00:00+00:00"

/-- The list `seed_orders`. -/
def seedOrders : List Order := (List.range 120).map seedOrder

/-- `setval(…, (SELECT MAX(id) FROM orders))`; a `NULL` maximum leaves the sequence alone. -/
def Database.resetSequence (db : Database) : Database :=
  match (db.orders.map Order.id).max? with
  | none => db
  | some top => { db with ordersSeq := top }

/-- The two `executemany` inserts, which leave rows whose key is taken alone. -/
def Database.seed (db : Database) (products : List Product) (orders : List Order) : Database :=
  { db with
    products := products.foldl (KeyedTable.insertIgnore Product.sku) db.products
    orders := orders.foldl (KeyedTable.insertIgnore Order.id) db.orders }

/-- `initialize_database` on tables that exist: seed what is missing, then reset the sequence. -/
def initializeDatabase (db : Database) : Database :=
  (db.seed seedProducts seedOrders).resetSequence

end InitializeDatabase

end Agentops
