import Agentops.Foundations.Decimal
import Agentops.Store.Lifecycle

/-!
# The invariant that couples orders and refunds

Seeded orders may be refunded without a refunds row, so the coupling goes one way: a refunds
row forces the status and fixes the amount. `Settled` is the part that survives price changes,
and every operation of the program keeps it; `Priced` needs the prices to be left alone.
-/

namespace Agentops

open Transaction

namespace Database

/-- An order with a refunds row is refunded. -/
def Settled (db : Database) : Prop :=
  ∀ r ∈ db.refunds, ∀ o ∈ db.orders, o.id = r.orderId → o.status = .refunded

/-- A refunds row pays exactly price times quantity of its order. -/
def Priced (db : Database) : Prop :=
  ∀ r ∈ db.refunds, ∀ o ∈ db.orders, o.id = r.orderId → r.amount.cents = db.total o

end Database

/-- The key that `execute_refund_activity` passes, `f"refund-order-{input.order_number}"`. -/
def refundIdempotencyKey (orderNumber : ℤ) : String := "refund-order-" ++ toString orderNumber

/-- Different orders have different keys. -/
theorem refundIdempotencyKey_injective : Function.Injective refundIdempotencyKey := fun _ _ h =>
  Decimal.toString_int_injective ((String.append_right_inj _).mp h)

/-- A key can be stored. -/
theorem storable_refundIdempotencyKey (n : ℤ) : storable (refundIdempotencyKey n) = true := by
  have hdigits : '\x00' ∉ Nat.toDigits 10 n.natAbs := fun hmem =>
    absurd (Decimal.isDigit_of_mem hmem) (by decide)
  have hsign : '\x00' ∉ (if n < 0 then ['-'] else []) := by split <;> simp
  simp only [storable, refundIdempotencyKey, String.toList_append, Decimal.toList_toString_int, List.mem_append,
    hsign, hdigits, or_false]
  decide

/-- A refunds row carries the key derived from its order. -/
def Database.KeysDerived (db : Database) : Prop :=
  ∀ r ∈ db.refunds, r.idempotencyKey = refundIdempotencyKey r.orderId

/-- What holds of the tables between transactions, prices aside. -/
structure StoreSound (db : Database) : Prop where
  schema : db.Schema
  settled : db.Settled

/-- What holds of the tables between transactions while prices are left alone. -/
structure StoreInvariant (db : Database) : Prop extends StoreSound db where
  priced : db.Priced

/-- The database without rows. -/
theorem storeInvariant_empty : StoreInvariant .empty where
  schema := Database.schema_empty
  settled := by simp [Database.Settled, Database.empty]
  priced := by simp [Database.Priced, Database.empty]

/-- What every operation of the program does to the tables: the coupling is kept, with the
amounts too while they were right, statuses climb, and no row is lost. -/
structure SafeChange (db db' : Database) : Prop where
  sound : StoreSound db'
  priced : db.Priced → db'.Priced
  evolves : db.Evolves db'
  prices : db.PricesKept db'

/-- No change is safe. -/
theorem SafeChange.refl {db : Database} (h : StoreSound db) : SafeChange db db :=
  ⟨h, id, .refl db, .refl db⟩

/-- A safe change keeps the invariant. -/
theorem SafeChange.invariant {db db' : Database} (hc : SafeChange db db') (h : StoreInvariant db) :
    StoreInvariant db' :=
  ⟨hc.sound, hc.priced h.priced⟩

section Changes

variable {db db' : Database}

/-- An order that can still be cancelled has no refunds row. -/
theorem StoreSound.no_refund_of_phase (h : StoreSound db) {o : Order} (ho : o ∈ db.orders)
    (hphase : o.status.phase = .inFulfilment) : ∀ r ∈ db.refunds, r.orderId ≠ o.id := by
  intro r hr hid
  have hst := h.settled r hr o ho hid.symm
  rw [hst] at hphase
  exact absurd hphase (by decide)

/-- An order in fulfilment may be given any status: it has no refunds row to contradict it. -/
theorem StoreSound.safe_setOrderStatus (h : StoreSound db) {o : Order} (ho : o ∈ db.orders)
    (hphase : o.status.phase = .inFulfilment) (st : OrderStatus) :
    SafeChange db (db.setOrderStatus o.id st) := by
  have hnone := h.no_refund_of_phase ho hphase
  have hother : ∀ r ∈ db.refunds, ∀ o' ∈ (db.setOrderStatus o.id st).orders, o'.id = r.orderId →
      o' ∈ db.orders := by
    intro r hr o' ho' hid
    obtain ⟨q, hq, rfl⟩ := KeyedTable.mem_update.mp ho'
    by_cases hqo : q.id = o.id
    · rw [if_pos hqo] at hid
      exact absurd (hid.symm.trans hqo) (hnone r hr)
    · rwa [if_neg hqo]
  refine ⟨⟨h.schema.setOrderStatus, fun r hr o' ho' hid => ?_⟩, fun hpriced r hr o' ho' hid => ?_,
    Database.evolves_setOrderStatus fun q hq hqo => ?_, .refl _⟩
  · exact h.settled r hr o' (hother r hr o' ho' hid) hid
  · exact hpriced r hr o' (hother r hr o' ho' hid) hid
  · rw [h.schema.ordersKey.eq_of_key_eq hq ho hqo, hphase]
    exact Phase.inFulfilment_le _

/-- Settling a delivered order without a refunds row adds the row and the status together. -/
theorem StoreSound.safe_settle (h : StoreSound db) {o : Order} (ho : o ∈ db.orders)
    (hst : o.status = .delivered) {amount : Money} {reason key : String}
    (hnone : ∀ r ∈ db.refunds, r.orderId ≠ o.id) (hkey : ∀ r ∈ db.refunds, r.idempotencyKey ≠ key)
    (hamount : amount.cents = db.total o) : SafeChange db (db.settle o.id amount reason key) := by
  let row : Refund := ⟨o.id, amount, reason, key⟩
  have hinserted : { db with refunds := db.refunds ++ [row] : Database }.Schema :=
    h.schema.insertRefund ⟨o, ho, rfl⟩ hnone hkey
  refine ⟨⟨hinserted.setOrderStatus, fun r hr o' ho' hid => ?_⟩, fun hpriced r hr o' ho' hid => ?_,
    ⟨fun q hq => ?_, List.prefix_append _ _⟩, .refl _⟩
  · obtain ⟨q, hq, rfl⟩ := KeyedTable.mem_update.mp ho'
    by_cases hqo : q.id = o.id
    · simp [hqo]
    · rw [if_neg hqo] at hid ⊢
      rcases List.mem_append.mp hr with hold | hnew
      · exact h.settled r hold q hq hid
      · obtain rfl := List.mem_singleton.mp hnew
        exact absurd hid hqo
  · obtain ⟨q, hq, rfl⟩ := KeyedTable.mem_update.mp ho'
    by_cases hqo : q.id = o.id
    · obtain rfl := h.schema.ordersKey.eq_of_key_eq hq ho hqo
      rcases List.mem_append.mp hr with hold | hnew
      · exact absurd (by simpa using hid.symm) (hnone r hold)
      · obtain rfl := List.mem_singleton.mp hnew
        rw [if_pos rfl]
        exact hamount
    · rw [if_neg hqo] at hid ⊢
      rcases List.mem_append.mp hr with hold | hnew
      · exact hpriced r hold q hq hid
      · obtain rfl := List.mem_singleton.mp hnew
        exact absurd hid hqo
  · have hphase : ∀ q ∈ db.orders, q.id = o.id → q.status.phase ≤ OrderStatus.refunded.phase := by
      intro q hq hqo
      rw [h.schema.ordersKey.eq_of_key_eq hq ho hqo, hst]
      decide
    exact (Database.evolves_setOrderStatus hphase).orders q hq

/-- Adding orders and products touches no order that has a refunds row. -/
theorem StoreSound.safe_grow (h : StoreSound db) (hs' : db'.Schema)
    (horders : db.orders <+: db'.orders) (hprices : db.PricesKept db')
    (hrefunds : db'.refunds = db.refunds) : SafeChange db db' := by
  have hold : ∀ r ∈ db'.refunds, ∀ o' ∈ db'.orders, o'.id = r.orderId →
      r ∈ db.refunds ∧ o' ∈ db.orders := by
    intro r hr o' ho' hid
    rw [hrefunds] at hr
    obtain ⟨o, ho, hor⟩ := h.schema.refundOrder r hr
    obtain rfl := hs'.ordersKey.eq_of_key_eq ho' (horders.subset ho) (hid.trans hor.symm)
    exact ⟨hr, ho⟩
  refine ⟨⟨hs', fun r hr o' ho' hid => ?_⟩, fun hpriced r hr o' ho' hid => ?_,
    Database.evolves_of_grown horders hrefunds.symm, hprices⟩
  · obtain ⟨hr', ho⟩ := hold r hr o' ho' hid
    exact h.settled r hr' o' ho hid
  · obtain ⟨hr', ho⟩ := hold r hr o' ho' hid
    rw [hprices.total_eq h.schema hs' ho (.refl o')]
    exact hpriced r hr' o' ho hid

end Changes

section Initialize

/-- Resetting the sequence touches no row. -/
theorem Database.resetSequence_eq (db : Database) :
    ∃ seq, db.resetSequence = { db with ordersSeq := seq } := by
  unfold resetSequence
  split
  · exact ⟨db.ordersSeq, rfl⟩
  · exact ⟨_, rfl⟩

/-- Seeding only appends rows. -/
theorem Database.seed_grows (db : Database) (products : List Product) (orders : List Order) :
    db.products <+: (db.seed products orders).products ∧
      db.orders <+: (db.seed products orders).orders ∧
      (db.seed products orders).refunds = db.refunds :=
  ⟨KeyedTable.prefix_foldl_insertIgnore Product.sku db.products products,
    KeyedTable.prefix_foldl_insertIgnore Order.id db.orders orders, rfl⟩

/-- Seeding keeps what PostgreSQL enforces, if every seeded order is for a seeded product. -/
theorem Database.Schema.seed {db : Database} (h : db.Schema) {products : List Product}
    {orders : List Order} (hsku : ∀ o ∈ orders, o.productSku ∈ products.map Product.sku) :
    (db.seed products orders).Schema where
  productsKey := h.productsKey.foldl_insertIgnore products
  ordersKey := h.ordersKey.foldl_insertIgnore orders
  refundsOrder := h.refundsOrder
  refundsIdempotency := h.refundsIdempotency
  orderProduct o ho := by
    rcases KeyedTable.mem_foldl_insertIgnore Order.id ho with hold | hnew
    · obtain ⟨p, hp, hpo⟩ := h.orderProduct o hold
      exact ⟨p, (db.seed_grows products orders).1.subset hp, hpo⟩
    · obtain ⟨p, hp, hpo⟩ := List.mem_map.mp (hsku o hnew)
      obtain ⟨q, hq, hqp⟩ := List.mem_map.mp (KeyedTable.key_mem_foldl_insertIgnore Product.sku hp)
      exact ⟨q, hq, hqp.trans hpo⟩
  refundOrder r hr := by
    obtain ⟨o, ho, hid⟩ := h.refundOrder r hr
    exact ⟨o, (db.seed_grows products orders).2.1.subset ho, hid⟩

/-- The seeded orders are for seeded products. -/
theorem seedOrders_product : ∀ o ∈ seedOrders, o.productSku ∈ seedProducts.map Product.sku := by
  intro o ho
  obtain ⟨i, -, rfl⟩ := List.mem_map.mp ho
  exact List.mem_map_of_mem (List.getElem_mem _)

/-- The number of the sequence is no part of what PostgreSQL enforces. -/
theorem Database.Schema.withSequence {db : Database} (h : db.Schema) (seq : ℤ) :
    { db with ordersSeq := seq : Database }.Schema :=
  ⟨h.productsKey, h.ordersKey, h.refundsOrder, h.refundsIdempotency, h.orderProduct, h.refundOrder⟩

/-- Seeding and resetting the sequence only append rows. -/
theorem Database.Schema.seed_resetSequence {db : Database} (h : db.Schema) {products : List Product}
    {orders : List Order} (hsku : ∀ o ∈ orders, o.productSku ∈ products.map Product.sku) :
    (db.seed products orders).resetSequence.Schema ∧
      db.orders <+: (db.seed products orders).resetSequence.orders ∧
      db.PricesKept (db.seed products orders).resetSequence ∧
      (db.seed products orders).resetSequence.refunds = db.refunds := by
  obtain ⟨seq, hseq⟩ := (db.seed products orders).resetSequence_eq
  obtain ⟨hproducts, horders, hrefunds⟩ := db.seed_grows products orders
  rw [hseq]
  exact ⟨(h.seed hsku).withSequence seq, horders, fun p hp => hproducts.subset hp, hrefunds⟩

/-- Seeding an empty database inserts the batches as they are. -/
theorem Database.seed_empty {products : List Product} {orders : List Order}
    (hproducts : KeyedTable.Unique Product.sku products) (horders : KeyedTable.Unique Order.id orders) :
    Database.empty.seed products orders = { Database.empty with products := products, orders := orders } := by
  have hfirst : products.foldl (KeyedTable.insertIgnore Product.sku) [] = products :=
    KeyedTable.Unique.foldl_insertIgnore_eq_append hproducts
  have hsecond : orders.foldl (KeyedTable.insertIgnore Order.id) [] = orders :=
    KeyedTable.Unique.foldl_insertIgnore_eq_append horders
  simp only [Database.seed, Database.empty, hfirst, hsecond]

/-- The sequence is set to the greatest number. -/
theorem Database.resetSequence_of_max {db : Database} {top : ℤ} (h : (db.orders.map Order.id).max? = some top) :
    db.resetSequence = { db with ordersSeq := top } := by
  unfold Database.resetSequence
  rw [h]

/-- The seeded products have different SKUs. -/
theorem unique_seedProducts : KeyedTable.Unique Product.sku seedProducts := by
  unfold KeyedTable.Unique
  decide +kernel

/-- The seeded orders are numbered one after the other. -/
theorem unique_seedOrders : KeyedTable.Unique Order.id seedOrders := by
  have hids : seedOrders.map Order.id = (List.range 120).map fun index : ℕ => (index : ℤ) + 1 := List.map_map
  unfold KeyedTable.Unique
  rw [hids]
  exact List.nodup_range.map fun i j h => by simpa using h

/-- The tables that the first start writes. -/
theorem initializeDatabase_empty : initializeDatabase .empty = ⟨seedProducts, seedOrders, [], 120⟩ := by
  have hmax : (seedOrders.map Order.id).max? = some 120 := by decide +kernel
  unfold initializeDatabase
  rw [Database.seed_empty unique_seedProducts unique_seedOrders, Database.resetSequence_of_max hmax]
  rfl

/-- `initialize_database` only appends rows, and keeps what PostgreSQL enforces. -/
theorem initializeDatabase_grows {db : Database} (h : db.Schema) :
    (initializeDatabase db).Schema ∧ db.orders <+: (initializeDatabase db).orders ∧
      db.PricesKept (initializeDatabase db) ∧ (initializeDatabase db).refunds = db.refunds :=
  h.seed_resetSequence seedOrders_product

end Initialize

section Operations

variable {db : Database}

/-- A committed cancellation is a safe change. -/
theorem CancelOutcome.safe {n : ℤ} {c : String} {out : CancellationResult × Database}
    (hout : CancelOutcome db n c out) (h : StoreSound db) : SafeChange db out.2 := by
  cases hout with
  | missing _ => exact .refl h
  | refused o _ _ => exact .refl h
  | done o hfind hst =>
    obtain ⟨ho, rfl, -⟩ := Database.findOrder_eq_some hfind
    exact h.safe_setOrderStatus ho (OrderStatus.mem_cancellable_iff.mp hst) .cancelled

/-- A committed refund transaction is a safe change. -/
theorem RefundOutcome.safe {n : ℤ} {c reason key : String} {result : Option RefundResult}
    {db' : Database} (hout : RefundOutcome db n c reason key (.ok (result, db')))
    (h : StoreSound db) : SafeChange db db' := by
  cases hout with
  | missing _ => exact .refl h
  | alreadyRefunded o r _ _ _ => exact .refl h
  | notDelivered o _ _ _ => exact .refl h
  | settled o amount hfind hnone hst hamount hkey =>
    obtain ⟨ho, rfl, -⟩ := Database.findOrder_eq_some hfind
    exact h.safe_settle ho hst hnone hkey hamount

/-- A committed order creation is a safe change. -/
theorem CreateOutcome.safe {c sku now : String} {quantity : ℤ} {view : Option OrderView}
    {db' : Database} (hout : CreateOutcome db c sku quantity now (.ok (view, db')))
    (h : StoreSound db) : SafeChange db db' := by
  cases hout with
  | unknownProduct _ => exact .refl h
  | created row view hrow =>
    obtain ⟨-, -, hsku, -, hid, p, hp, hpsku⟩ := Database.checkOrder_eq_ok hrow
    have hs' := h.schema.insertOrder row.id hid ⟨p, hp, hpsku.trans hsku.symm⟩
    exact h.safe_grow hs' (List.prefix_append _ _) (.refl _) rfl

/-- Seeding at process start is a safe change. -/
theorem safe_initializeDatabase (h : StoreSound db) : SafeChange db (initializeDatabase db) := by
  obtain ⟨hs', horders, hprices, hrefunds⟩ := initializeDatabase_grows h.schema
  exact h.safe_grow hs' horders hprices hrefunds

end Operations

section OneOrder

/-- A price of 98.00. -/
def price98 : Money := ⟨9800, by decide, by decide⟩

/-- A price of 300.00. -/
def price300 : Money := ⟨30000, by decide, by decide⟩

/-- One unit. -/
def oneUnit : Quantity := ⟨1, by decide, by decide⟩

/-- A store with one order of one product, the smallest one a transaction can act on. -/
def oneOrder (price : Money) (quantity : Quantity) (status : OrderStatus) : Database where
  products := [⟨"SP-001", "Laptop Charger 65W", .sparePart, price⟩]
  orders := [⟨5, "CUS-005", "SP-001", quantity, status, "2026-01-05T00:00:00+00:00"⟩]
  refunds := []
  ordersSeq := 5

/-- A database with one order and its product. -/
theorem storeInvariant_oneOrder (price : Money) (quantity : Quantity) (status : OrderStatus) :
    StoreInvariant (oneOrder price quantity status) where
  schema := by constructor <;> simp [oneOrder, KeyedTable.Unique]
  settled := by simp [Database.Settled, oneOrder]
  priced := by simp [Database.Priced, oneOrder]

end OneOrder

end Agentops
