import Agentops.Foundations.KeyedTable
import Mathlib.Data.Int.Basic

/-!
# The products, orders and refunds tables

The rows that `initialize_database` declares, with the column checks as fields: a price or a
refund amount that PostgreSQL would refuse cannot be written down. Amounts are `NUMERIC(10, 2)`
and are counted in cents, so that `price * quantity` is exact as it is in the database.

The surrogate columns `refunds.id` and `refunds.created_at` are read by no modelled function
and are left out.
-/

namespace Agentops

/-- The values of `orders.status`, in the order in which `initialize_database` seeds them. -/
inductive OrderStatus
  | pending | paid | processing | shipped | delivered | cancelled | refunded
  deriving DecidableEq, Repr

/-- `CANCELLABLE_ORDER_STATUSES`. -/
def cancellableOrderStatuses : List OrderStatus := [.pending, .paid, .processing, .shipped]

/-- `CANCELLATION_REJECTION_REASONS`, as the lookup `dict.get` performs. -/
def cancellationRejectionReasons : OrderStatus → Option String
  | .cancelled => some "already_cancelled"
  | .delivered => some "delivered_order"
  | .refunded => some "refunded_order"
  | _ => none

/-- The values of `products.category`. -/
inductive ProductCategory
  | laptop | printer | sparePart
  deriving DecidableEq, Repr

/-- A positive `NUMERIC(10, 2)`, in cents: at most ten digits. -/
@[ext]
structure Money where
  cents : ℕ
  positive : 0 < cents
  fits : cents < 10000000000
  deriving DecidableEq, Repr

/-- The amount as a column value, if the column's type and check admit it. -/
def Money.ofCents? (cents : ℕ) : Option Money :=
  if h : 0 < cents ∧ cents < 10000000000 then some ⟨cents, h.1, h.2⟩ else none

/-- `CHECK (quantity BETWEEN 1 AND 10)`. -/
structure Quantity where
  value : ℕ
  atLeastOne : 1 ≤ value
  atMostTen : value ≤ 10
  deriving DecidableEq, Repr

/-- The number as a column value, if the check admits it. -/
def Quantity.ofInt? (n : ℤ) : Option Quantity :=
  if h : 1 ≤ n ∧ n ≤ 10 then some ⟨n.toNat, by omega, by omega⟩ else none

/-- A row of `products`. -/
structure Product where
  sku : String
  name : String
  category : ProductCategory
  price : Money
  deriving DecidableEq, Repr

/-- A row of `orders`. -/
structure Order where
  id : ℤ
  customerId : String
  productSku : String
  quantity : Quantity
  status : OrderStatus
  createdAt : String
  deriving DecidableEq, Repr

/-- A row of `refunds`. -/
structure Refund where
  orderId : ℤ
  amount : Money
  reason : String
  idempotencyKey : String
  deriving DecidableEq, Repr

/-- The tables, and the last value handed out by the sequence behind `orders.id`. -/
structure Database where
  products : List Product
  orders : List Order
  refunds : List Refund
  ordersSeq : ℤ
  deriving DecidableEq, Repr

/-- The freshly created tables. -/
def Database.empty : Database := ⟨[], [], [], 0⟩

/-- What PostgreSQL enforces on the three tables together: primary keys, unique columns and
foreign keys. -/
structure Database.Schema (db : Database) : Prop where
  productsKey : KeyedTable.Unique Product.sku db.products
  ordersKey : KeyedTable.Unique Order.id db.orders
  refundsOrder : KeyedTable.Unique Refund.orderId db.refunds
  refundsIdempotency : KeyedTable.Unique Refund.idempotencyKey db.refunds
  orderProduct : ∀ o ∈ db.orders, ∃ p ∈ db.products, p.sku = o.productSku
  refundOrder : ∀ r ∈ db.refunds, ∃ o ∈ db.orders, o.id = r.orderId

/-- Without rows the constraints hold. -/
theorem Database.schema_empty : Database.empty.Schema where
  productsKey := by simp [KeyedTable.Unique, Database.empty]
  ordersKey := by simp [KeyedTable.Unique, Database.empty]
  refundsOrder := by simp [KeyedTable.Unique, Database.empty]
  refundsIdempotency := by simp [KeyedTable.Unique, Database.empty]
  orderProduct := by simp [Database.empty]
  refundOrder := by simp [Database.empty]

/-- `UPDATE orders SET status = … WHERE id = …`. -/
def Database.setOrderStatus (db : Database) (orderNumber : ℤ) (status : OrderStatus) : Database :=
  let change := fun o : Order => { o with status := status }
  { db with orders := KeyedTable.update Order.id orderNumber change db.orders }

/-- The row of an order, as `WHERE id = … AND customer_id = …` finds it. -/
def Database.findOrder (db : Database) (orderNumber : ℤ) (customerId : String) : Option Order :=
  (db.orders.filter fun o => o.id = orderNumber ∧ o.customerId = customerId).head?

/-- The order behind a lookup has the number and the customer asked for. -/
theorem Database.findOrder_eq_some {db : Database} {n : ℤ} {c : String} {o : Order}
    (h : db.findOrder n c = some o) : o ∈ db.orders ∧ o.id = n ∧ o.customerId = c := by
  have hmem := List.mem_of_mem_head? (Option.mem_def.mpr h)
  simpa using hmem

/-- A lookup by number and customer finds the order that is there. -/
theorem Database.findOrder_of_mem {db : Database} (hkey : KeyedTable.Unique Order.id db.orders)
    {o : Order} (ho : o ∈ db.orders) : db.findOrder o.id o.customerId = some o := by
  cases hfind : db.findOrder o.id o.customerId with
  | none =>
    have hnil := List.head?_eq_none_iff.mp hfind
    have := List.filter_eq_nil_iff.mp hnil o ho
    simp at this
  | some o' =>
    obtain ⟨ho', hid, -⟩ := findOrder_eq_some hfind
    rw [hkey.eq_of_key_eq ho' ho hid]

/-- A lookup after a status change finds the same row with the new status. -/
theorem Database.findOrder_setOrderStatus (db : Database) (n : ℤ) (c : String) (st : OrderStatus) :
    (db.setOrderStatus n st).findOrder n c =
      (db.findOrder n c).map fun o => { o with status := st } := by
  unfold findOrder setOrderStatus KeyedTable.update
  induction db.orders with
  | nil => rfl
  | cons o rest ih =>
    by_cases hid : o.id = n
    · by_cases hc : o.customerId = c
      · simp [hid, hc]
      · simpa [hid, hc] using ih
    · simpa [hid] using ih

/-- Python's `f"{n:0{width}d}"`: zeros between the sign and the digits up to the width. -/
def zeroPadded (width : ℕ) (n : ℤ) : String :=
  let sign := if n < 0 then "-" else ""
  let digits := toString n.natAbs
  sign ++ String.ofList (List.replicate (width - sign.length - digits.length) '0') ++ digits

/-- `f"ORD-{n:03d}"`. -/
def formatOrderId (n : ℤ) : String := "ORD-" ++ zeroPadded 3 n

example : formatOrderId 4 = "ORD-004" ∧ formatOrderId 1234 = "ORD-1234" := by decide

end Agentops
