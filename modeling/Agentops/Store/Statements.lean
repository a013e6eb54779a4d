import Agentops.Foundations.Transaction
import Agentops.Store.Tables

/-!
# The SQL statements of the order transactions

Each statement that `app/database.py` sends for an order is one constructor, with its
parameters. A statement is answered on the rows its session sees; a `SELECT` with
`fetchone()` answers the first row of its result. An `INSERT` checks what is checked for it: the
texts by the driver, then the column type, the column check, the unique columns and the foreign key
by PostgreSQL.

The value an `INSERT INTO orders` draws from the sequence is not given back, whether the `INSERT`
fails or a later statement does.
-/

namespace Agentops

open Transaction

/-- The errors an `INSERT` can end in, with the constraint concerned. A `dataError` comes from the
driver, before anything is sent. -/
inductive SqlError
  | uniqueViolation (constraint : String)
  | checkViolation (constraint : String)
  | foreignKeyViolation (constraint : String)
  | numericValueOutOfRange
  | dataError
  deriving DecidableEq, Repr

/-- `SELECT id, status FROM orders …`. -/
structure OrderStatusRow where
  id : ℤ
  status : OrderStatus
  deriving DecidableEq, Repr

/-- `SELECT o.id, o.status, p.price * o.quantity AS total …`, the total in cents. -/
structure RefundOrderRow where
  id : ℤ
  status : OrderStatus
  total : ℕ
  deriving DecidableEq, Repr

/-- The columns of `ORDER_SELECT`, amounts in cents. -/
structure OrderView where
  id : ℤ
  customerId : String
  quantity : ℕ
  status : OrderStatus
  createdAt : String
  sku : String
  name : String
  category : ProductCategory
  price : ℕ
  total : ℕ
  deriving DecidableEq, Repr

inductive Sql
  | selectOrder (orderNumber : ℤ) (customerId : String)
  | selectOrderForUpdate (orderNumber : ℤ) (customerId : String)
  | selectRefundOrder (orderNumber : ℤ) (customerId : String)
  | selectRefundOrderForUpdate (orderNumber : ℤ) (customerId : String)
  | selectRefundAmount (orderNumber : ℤ)
  | insertRefund (orderNumber : ℤ) (amount : ℕ) (reason idempotencyKey : String)
  | updateOrderStatus (orderNumber : ℤ) (status : OrderStatus)
  | selectProduct (sku : String)
  | insertOrder (customerId productSku : String) (quantity : ℤ) (now : String)
  | selectOrderView (id : ℤ)
  deriving DecidableEq, Repr

/-- What a statement answers. -/
abbrev Sql.Answer : Sql → Type
  | .selectOrder _ _ => Option OrderStatusRow
  | .selectOrderForUpdate _ _ => Option OrderStatusRow
  | .selectRefundOrder _ _ => Option RefundOrderRow
  | .selectRefundOrderForUpdate _ _ => Option RefundOrderRow
  | .selectRefundAmount _ => Option ℕ
  | .insertRefund _ _ _ _ => Unit
  | .updateOrderStatus _ _ => Unit
  | .selectProduct _ => Bool
  | .insertOrder _ _ _ _ => ℤ
  | .selectOrderView _ => Option OrderView

/-- A change to one row, as a transaction keeps it until it commits. -/
inductive RowChange
  | insertRefund (row : Refund)
  | setOrderStatus (orderNumber : ℤ) (status : OrderStatus)
  | insertOrder (row : Order)
  deriving DecidableEq, Repr

def RowChange.apply : RowChange → Database → Database
  | .insertRefund row, db => { db with refunds := db.refunds ++ [row] }
  | .setOrderStatus n status, db => db.setOrderStatus n status
  | .insertOrder row, db => { db with orders := db.orders ++ [row], ordersSeq := row.id }

/-- What a lock is held on: a row of `orders`, or an entry of one of the unique indexes of
`refunds` that an uncommitted `INSERT` occupies. -/
inductive LockKey
  | orderRow (id : ℤ)
  | refundOrderId (orderId : ℤ)
  | refundIdempotencyKey (key : String)
  deriving DecidableEq, Repr

/-- PostgreSQL stores no text with a NUL in it. -/
def storable (text : String) : Bool := '\x00' ∉ text.toList

/-- The number fits the type `INTEGER` of a column. -/
def fitsInteger (n : ℤ) : Bool := -2147483648 ≤ n ∧ n ≤ 2147483647

/-- What refuses the parameters of `INSERT INTO orders` before it is executed: the driver sends no NUL, and
PostgreSQL converts the quantity when it plans the statement. -/
def insertOrderRefusal (customerId : String) (quantity : ℤ) : Option SqlError :=
  if storable customerId = false then some .dataError
  else if fitsInteger quantity = false then some .numericValueOutOfRange
  else none

namespace Database

/-- The orders that `WHERE o.id = … AND o.customer_id = …` selects. -/
def matchingOrders (db : Database) (orderNumber : ℤ) (customerId : String) : List Order :=
  db.orders.filter fun o => o.id = orderNumber ∧ o.customerId = customerId

/-- `FROM orders o JOIN products p ON p.sku = o.product_sku`, for one order. -/
def joinProducts (db : Database) (o : Order) : List Product :=
  db.products.filter fun p => p.sku = o.productSku

/-- The joined rows with their total. -/
def refundOrderRows (db : Database) (orderNumber : ℤ) (customerId : String) : List RefundOrderRow :=
  (db.matchingOrders orderNumber customerId).flatMap fun o =>
    (db.joinProducts o).map fun p => ⟨o.id, o.status, p.price.cents * o.quantity.value⟩

/-- `ORDER_SELECT … WHERE o.id = …`. -/
def orderViews (db : Database) (id : ℤ) : List OrderView :=
  (db.orders.filter fun o => o.id = id).flatMap fun o => (db.joinProducts o).map fun p =>
    { id := o.id, customerId := o.customerId, quantity := o.quantity.value, status := o.status,
      createdAt := o.createdAt, sku := p.sku, name := p.name, category := p.category,
      price := p.price.cents, total := p.price.cents * o.quantity.value }

/-- `INSERT INTO refunds …`: the new row, or the constraint it breaks. -/
def checkRefund (db : Database) (orderNumber : ℤ) (amount : ℕ) (reason idempotencyKey : String) :
    Except SqlError Refund :=
  if storable reason = false ∨ storable idempotencyKey = false then .error .dataError
  else if 10000000000 ≤ amount then .error .numericValueOutOfRange
  else match Money.ofCents? amount with
    | none => .error (.checkViolation "refunds_amount_check")
    | some money =>
      if orderNumber ∈ db.refunds.map Refund.orderId then
        .error (.uniqueViolation "refunds_order_id_key")
      else if idempotencyKey ∈ db.refunds.map Refund.idempotencyKey then
        .error (.uniqueViolation "refunds_idempotency_key_key")
      else if orderNumber ∉ db.orders.map Order.id then
        .error (.foreignKeyViolation "refunds_order_id_fkey")
      else .ok ⟨orderNumber, money, reason, idempotencyKey⟩

/-- The constraints of a new order whose number is drawn. -/
def checkNumbered (db : Database) (id : ℤ) (customerId productSku : String) (quantity : ℤ) (now : String) :
    Except SqlError Order :=
  match Quantity.ofInt? quantity with
  | none => .error (.checkViolation "orders_quantity_check")
  | some q =>
    if id ∈ db.orders.map Order.id then .error (.uniqueViolation "orders_pkey")
    else if productSku ∉ db.products.map Product.sku then
      .error (.foreignKeyViolation "orders_product_sku_fkey")
    else .ok ⟨id, customerId, productSku, q, .pending, now⟩

/-- `INSERT INTO orders … RETURNING id` with the next value of the sequence. -/
def checkOrder (db : Database) (customerId productSku : String) (quantity : ℤ) (now : String) :
    Except SqlError Order :=
  match insertOrderRefusal customerId quantity with
  | some e => .error e
  | none => db.checkNumbered (db.ordersSeq + 1) customerId productSku quantity now

end Database

/-- Answer one statement on the rows a session sees. -/
def Sql.execute : (s : Sql) → Database → Except SqlError (s.Answer × List RowChange)
  | .selectOrder n c, db => .ok ((db.findOrder n c).map fun o => ⟨o.id, o.status⟩, [])
  | .selectOrderForUpdate n c, db => .ok ((db.findOrder n c).map fun o => ⟨o.id, o.status⟩, [])
  | .selectRefundOrder n c, db => .ok ((db.refundOrderRows n c).head?, [])
  | .selectRefundOrderForUpdate n c, db => .ok ((db.refundOrderRows n c).head?, [])
  | .selectRefundAmount n, db =>
    .ok (((db.refunds.filter fun r => r.orderId = n).head?).map fun r => r.amount.cents, [])
  | .insertRefund n amount reason key, db =>
    (db.checkRefund n amount reason key).map fun row => ((), [.insertRefund row])
  | .updateOrderStatus n status, _ => .ok ((), [.setOrderStatus n status])
  | .selectProduct sku, db => .ok (decide (sku ∈ db.products.map Product.sku), [])
  | .insertOrder c sku quantity now, db =>
    (db.checkOrder c sku quantity now).map fun row => (row.id, [.insertOrder row])
  | .selectOrderView id, db => .ok ((db.orderViews id).head?, [])

/-- The values of the sequence that a statement draws, whether it fails or not. -/
def Sql.drawn : Sql → ℕ
  | .insertOrder c _ quantity _ => if insertOrderRefusal c quantity = none then 1 else 0
  | _ => 0

/-- The locks a statement takes: the rows it selects `FOR UPDATE` or updates, and the index
entries of the row it inserts. -/
def Sql.locks : Sql → Database → List LockKey
  | .selectOrderForUpdate n c, db => (db.matchingOrders n c).map fun o => .orderRow o.id
  | .selectRefundOrderForUpdate n c, db => (db.refundOrderRows n c).map fun row => .orderRow row.id
  | .updateOrderStatus n _, db => (db.orders.filter fun o => o.id = n).map fun o => .orderRow o.id
  | .insertRefund n _ _ key, _ => [.refundOrderId n, .refundIdempotencyKey key]
  | .insertOrder _ _ _ _, db => [.orderRow (db.ordersSeq + 1)]
  | _, _ => []

/-- PostgreSQL as the order transactions use it. -/
def postgres : Engine Sql Sql.Answer Database RowChange LockKey SqlError where
  execute := Sql.execute
  apply := RowChange.apply
  locks := Sql.locks

end Agentops
