import Agentops.Api.Identity
import Agentops.Store.Invariant

/-!
# What a customer can do to the tables

The order listing and the user memories beside the order functions, and all that a customer can have
done to the tables in its name. The texts of a database are ordered by its collation, which compares
any two of them; an identity column that no modelled function reads is left out.
-/

namespace Agentops

open Transaction

/-- The order in which PostgreSQL sorts texts. -/
structure Collation where
  le : String → String → Bool
  trans : ∀ a b c, le a b → le b c → le a c
  total : ∀ a b, le a b ∨ le b a
  antisymm : ∀ a b, le a b → le b a → a = b

/-- A row of `user_memories`. -/
structure UserMemory where
  userId : String
  memoryKey : String
  memoryValue : String
  createdAt : String
  updatedAt : String
  deriving DecidableEq, Repr

/-- `UNIQUE (user_id, memory_key)`. -/
def UserMemory.key (m : UserMemory) : String × String := (m.userId, m.memoryKey)

/-- `save_user_memory`: the row is inserted, or the row that has its key is updated. -/
def saveUserMemory (userId memoryKey memoryValue now : String) (memories : List UserMemory) :
    UserMemory × List UserMemory :=
  match memories.find? (·.key = (userId, memoryKey)) with
  | some m =>
    let change := fun m : UserMemory => { m with memoryValue := memoryValue, updatedAt := now }
    (change m, KeyedTable.update UserMemory.key (userId, memoryKey) change memories)
  | none =>
    let m : UserMemory := ⟨userId, memoryKey, memoryValue, now, now⟩
    (m, memories ++ [m])

/-- `get_user_memories`: keys with values, in the order of the keys. -/
def getUserMemories (collation : Collation) (userId : String) (memories : List UserMemory) :
    List (String × String) :=
  ((memories.filter (·.userId = userId)).mergeSort fun a b => collation.le a.memoryKey b.memoryKey).map
    fun m => (m.memoryKey, m.memoryValue)

/-- A row of `ORDER_SELECT`. -/
def Order.view (o : Order) (p : Product) : OrderView :=
  { id := o.id, customerId := o.customerId, quantity := o.quantity.value, status := o.status,
    createdAt := o.createdAt, sku := p.sku, name := p.name, category := p.category,
    price := p.price.cents, total := p.price.cents * o.quantity.value }

/-- `list_order_rows`. -/
def listOrderRows (status : Option OrderStatus) (limit : ℕ) (customerId : Option String) (db : Database) :
    List OrderView :=
  (((db.orders.filter fun o => status.all (o.status = ·) ∧ customerId.all (o.customerId = ·)).flatMap
    fun o => (db.joinProducts o).map o.view).mergeSort fun a b => a.id ≤ b.id).take limit

/-- The `Order` of the API, amounts in cents. -/
structure OrderResponse where
  id : String
  customerId : String
  sku : String
  name : String
  category : ProductCategory
  price : ℕ
  quantity : ℕ
  total : ℕ
  status : OrderStatus
  createdAt : String
  deriving DecidableEq, Repr

/-- `order_from_row`. -/
def orderFromRow (row : OrderView) : OrderResponse :=
  { id := formatOrderId row.id, customerId := row.customerId, sku := row.sku, name := row.name,
    category := row.category, price := row.price, quantity := row.quantity, total := row.total,
    status := row.status, createdAt := row.createdAt }

/-- `list_orders` of the API. -/
def listOrders (upper : String → String) (user : CurrentUser) (status : Option OrderStatus)
    (customerId : Option String) (limit : ℕ) (db : Database) : Except HttpException (List OrderResponse) :=
  (scopeCustomerId upper user customerId).map fun scope =>
    (listOrderRows status limit scope db).map orderFromRow

/-- The tables that a customer's requests read and write. -/
structure StoreTables where
  db : Database
  memories : List UserMemory
  deriving DecidableEq, Repr

/-- What is done in the name of a customer. -/
inductive CustomerOp
  | getOrderStatus (orderNumber : ℤ)
  | cancelOrder (orderNumber : ℤ)
  | getRefundOrder (orderNumber : ℤ)
  | refundOrder (orderNumber : ℤ) (reason : String)
  | getMemories
  | saveMemory (memoryKey memoryValue now : String)
  | listOrders (user : CurrentUser) (status : Option OrderStatus) (requested : Option String) (limit : ℕ)
  deriving DecidableEq, Repr

/-- What comes of it. -/
inductive CustomerReply
  | orderStatus (row : Option OrderStatusRow)
  | cancellation (result : CancellationResult)
  | refundOrder (row : Option RefundOrderRow)
  | refund (result : Option RefundResult)
  | memories (rows : List (String × String))
  | memory (row : UserMemory)
  | orders (rows : List OrderResponse)
  | databaseError (e : SqlError)
  | refused (e : HttpException)
  deriving DecidableEq, Repr

/-- Perform a transaction of the order functions. -/
def StoreTables.transact {α : Type} (tx : Tx α) (reply : α → CustomerReply) (s : StoreTables) :
    CustomerReply × StoreTables :=
  match tx.run s.db with
  | .error e => (.databaseError e, { s with db := tx.rolledBack s.db })
  | .ok (a, db) => (reply a, { s with db := db })

/-- Do something in the name of a customer. A refund has the key that `execute_refund_activity` gives
it; the statements for the user memories are sent if their texts can be stored. -/
def CustomerOp.perform (collation : Collation) (upper : String → String) (u : String) (s : StoreTables) :
    CustomerOp → CustomerReply × StoreTables
  | .getOrderStatus n => s.transact (getOrderStatusRow n u) .orderStatus
  | .cancelOrder n => s.transact (cancelOrderRow n u) .cancellation
  | .getRefundOrder n => s.transact (getRefundOrderRow n u) .refundOrder
  | .refundOrder n reason => s.transact (refundOrderRow n u reason (refundIdempotencyKey n)) .refund
  | .getMemories =>
    if storable u then (.memories (getUserMemories collation u s.memories), s)
    else (.databaseError .dataError, s)
  | .saveMemory key value now =>
    if [u, key, value].all storable then
      let (row, memories) := saveUserMemory u key value now s.memories
      (.memory row, { s with memories := memories })
    else (.databaseError .dataError, s)
  | .listOrders user status requested limit =>
    match Agentops.listOrders upper user status requested limit s.db with
    | .error e => (.refused e, s)
    | .ok rows => (.orders rows, s)

/-- A listing is asked for by a caller who is no staff and has the customer as its claim. -/
def CustomerOp.ActsFor (u : String) : CustomerOp → Prop
  | .listOrders user _ _ _ => user.isStaff = false ∧ user.customerId = some u
  | _ => True

/-- What PostgreSQL enforces, with the keys of refunds derived from their orders. -/
structure StoreTables.Sound (s : StoreTables) : Prop where
  schema : s.db.Schema
  keys : s.db.KeysDerived
  memories : KeyedTable.Unique UserMemory.key s.memories

/-- A refund of an order of the customer. -/
def Database.RefundOf (db : Database) (u : String) (r : Refund) : Prop :=
  ∃ o ∈ db.orders, o.id = r.orderId ∧ o.customerId = u

instance (db : Database) (u : String) (r : Refund) : Decidable (db.RefundOf u r) :=
  inferInstanceAs (Decidable (∃ o ∈ db.orders, o.id = r.orderId ∧ o.customerId = u))

/-- The two states have the same products and the same rows of the customer. -/
structure StoreTables.AgreeOn (u : String) (s s' : StoreTables) : Prop where
  products : ∀ p, p ∈ s.db.products ↔ p ∈ s'.db.products
  orders : ∀ o : Order, o.customerId = u → (o ∈ s.db.orders ↔ o ∈ s'.db.orders)
  refunds : ∀ r : Refund, r ∈ s.db.refunds ∧ s.db.RefundOf u r ↔ r ∈ s'.db.refunds ∧ s'.db.RefundOf u r
  memories : ∀ m : UserMemory, m.userId = u → (m ∈ s.memories ↔ m ∈ s'.memories)

/-- The rows of everyone else are the same. -/
structure StoreTables.OthersKept (u : String) (s s' : StoreTables) : Prop where
  products : ∀ p, p ∈ s.db.products ↔ p ∈ s'.db.products
  orders : ∀ o : Order, o.customerId ≠ u → (o ∈ s.db.orders ↔ o ∈ s'.db.orders)
  refunds : ∀ r : Refund, ¬ s.db.RefundOf u r → (r ∈ s.db.refunds ↔ r ∈ s'.db.refunds)
  memories : ∀ m : UserMemory, m.userId ≠ u → (m ∈ s.memories ↔ m ∈ s'.memories)

/-- The state without the rows of anyone else. -/
def StoreTables.onlyOf (u : String) (s : StoreTables) : StoreTables where
  db := { s.db with
    orders := s.db.orders.filter (·.customerId = u)
    refunds := s.db.refunds.filter (s.db.RefundOf u ·) }
  memories := s.memories.filter (·.userId = u)

end Agentops
