import Agentops.Store.Outcomes
import Mathlib.Order.Max
import Mathlib.Order.Defs.PartialOrder

/-!
# The lifecycle of an order

What the store is for, without its tables: an order is in fulfilment, delivered, cancelled or
refunded, and only moves up in the order below. Cancelled and refunded are maximal, so an
order that has arrived there stays there. `Evolves` is the reading of this on the tables: no
order disappears or changes hands, no refund row changes or disappears, every status climbs.
-/

namespace Agentops

/-- Where an order stands, with the stages of fulfilment put together. -/
inductive Phase
  | inFulfilment | delivered | cancelled | refunded
  deriving DecidableEq, Repr

namespace Phase

/-- The phases an order can still come to. -/
def later : Phase → List Phase
  | .inFulfilment => [.inFulfilment, .delivered, .cancelled, .refunded]
  | .delivered => [.delivered, .refunded]
  | .cancelled => [.cancelled]
  | .refunded => [.refunded]

/-- Phases are ordered by what can come after them. -/
instance : PartialOrder Phase where
  le a b := b ∈ a.later
  le_refl a := by cases a <;> decide
  le_trans a b c := by cases a <;> cases b <;> cases c <;> decide
  le_antisymm a b := by cases a <;> cases b <;> decide

/-- Which phase comes later is decided by the list. -/
instance (a b : Phase) : Decidable (a ≤ b) := inferInstanceAs (Decidable (b ∈ a.later))

/-- An order in fulfilment can still go anywhere. -/
theorem inFulfilment_le (a : Phase) : inFulfilment ≤ a := by cases a <;> decide

/-- Nothing comes after a refund. -/
theorem isMax_refunded : IsMax refunded := by
  intro b hb
  cases b <;> revert hb <;> decide

end Phase

/-- The phase of a status. -/
def OrderStatus.phase : OrderStatus → Phase
  | .pending | .paid | .processing | .shipped => .inFulfilment
  | .delivered => .delivered
  | .cancelled => .cancelled
  | .refunded => .refunded

/-- The last phase has one status. -/
@[simp] theorem OrderStatus.phase_eq_refunded {st : OrderStatus} :
    st.phase = .refunded ↔ st = .refunded := by
  cases st <;> simp [phase]

/-- The cancellable statuses are the stages of fulfilment. -/
theorem OrderStatus.mem_cancellable_iff {st : OrderStatus} :
    st ∈ cancellableOrderStatuses ↔ st.phase = .inFulfilment := by
  cases st <;> simp [phase, cancellableOrderStatuses]

/-- The second row is the first at a later time: only the status has moved. -/
structure Order.Becomes (o o' : Order) : Prop where
  id : o'.id = o.id
  customerId : o'.customerId = o.customerId
  productSku : o'.productSku = o.productSku
  quantity : o'.quantity = o.quantity
  phase : o.status.phase ≤ o'.status.phase

/-- An order may stay what it is. -/
theorem Order.Becomes.refl (o : Order) : o.Becomes o := ⟨rfl, rfl, rfl, rfl, le_rfl⟩

/-- What becomes of what has become of an order has become of it. -/
theorem Order.Becomes.trans {o o' o'' : Order} (h : o.Becomes o') (h' : o'.Becomes o'') :
    o.Becomes o'' :=
  ⟨h'.id.trans h.id, h'.customerId.trans h.customerId, h'.productSku.trans h.productSku,
    h'.quantity.trans h.quantity, h.phase.trans h'.phase⟩

/-- The second database is the first at a later time, prices aside. -/
structure Database.Evolves (db db' : Database) : Prop where
  orders : ∀ o ∈ db.orders, ∃ o' ∈ db'.orders, o.Becomes o'
  refunds : db.refunds <+: db'.refunds

/-- No product row has changed. -/
def Database.PricesKept (db db' : Database) : Prop := ∀ p ∈ db.products, p ∈ db'.products

namespace Database

/-- A database may stay what it is. -/
theorem Evolves.refl (db : Database) : db.Evolves db :=
  ⟨fun o ho => ⟨o, ho, .refl o⟩, List.prefix_refl _⟩

/-- Changes follow each other. -/
theorem Evolves.trans {db db' db'' : Database} (h : db.Evolves db') (h' : db'.Evolves db'') :
    db.Evolves db'' where
  orders o ho := by
    obtain ⟨o', ho', hb⟩ := h.orders o ho
    obtain ⟨o'', ho'', hb'⟩ := h'.orders o' ho'
    exact ⟨o'', ho'', hb.trans hb'⟩
  refunds := h.refunds.trans h'.refunds

/-- Prices may stay. -/
theorem PricesKept.refl (db : Database) : db.PricesKept db := fun _ hp => hp

/-- And they stay together. -/
theorem PricesKept.trans {db db' db'' : Database} (h : db.PricesKept db') (h' : db'.PricesKept db'') :
    db.PricesKept db'' := fun p hp => h' p (h p hp)

/-- A customer's lookup keeps finding the same order. -/
theorem Evolves.findOrder {db db' : Database} (h : db.Evolves db')
    (hkey : KeyedTable.Unique Order.id db'.orders) {n : ℤ} {c : String} {o : Order}
    (hfind : db.findOrder n c = some o) : ∃ o', db'.findOrder n c = some o' ∧ o.Becomes o' := by
  obtain ⟨ho, rfl, rfl⟩ := findOrder_eq_some hfind
  obtain ⟨o', ho', hb⟩ := h.orders o ho
  refine ⟨o', ?_, hb⟩
  rw [← hb.id, ← hb.customerId]
  exact findOrder_of_mem hkey ho'

/-- The product of an order, when there is one. -/
theorem joinProducts_eq_singleton {db : Database} (hkey : KeyedTable.Unique Product.sku db.products)
    {o : Order} {p : Product} (hp : p ∈ db.products) (hsku : p.sku = o.productSku) :
    (db.joinProducts o).head? = some p := by
  have hjoin : p ∈ db.joinProducts o := List.mem_filter.mpr ⟨hp, by simp [hsku]⟩
  cases hproducts : db.joinProducts o with
  | nil => simp [hproducts] at hjoin
  | cons q more =>
    have hq : q ∈ db.joinProducts o := by simp [hproducts]
    obtain ⟨hq, hqsku⟩ := List.mem_filter.mp hq
    have : q = p := hkey.eq_of_key_eq hq hp (by simp_all)
    simp [this]

/-- The total is the price of the order's product times its quantity. -/
theorem total_eq {db : Database} (hkey : KeyedTable.Unique Product.sku db.products)
    {o : Order} {p : Product} (hp : p ∈ db.products) (hsku : p.sku = o.productSku) :
    db.total o = p.price.cents * o.quantity.value := by
  simp [total, joinProducts_eq_singleton hkey hp hsku]

/-- While prices are left alone an order's total does not change. -/
theorem PricesKept.total_eq {db db' : Database} (h : db.PricesKept db') (hs : db.Schema)
    (hs' : db'.Schema) {o o' : Order} (ho : o ∈ db.orders) (hb : o.Becomes o') :
    db'.total o' = db.total o := by
  obtain ⟨p, hp, hsku⟩ := hs.orderProduct o ho
  rw [Database.total_eq hs.productsKey hp hsku,
    Database.total_eq hs'.productsKey (h p hp) (hsku.trans hb.productSku.symm), hb.quantity]

/-- An order that is refunded stays refunded. -/
theorem Evolves.refunded {db db' : Database} (h : db.Evolves db')
    (hkey : KeyedTable.Unique Order.id db'.orders) {n : ℤ} {c : String} {o : Order}
    (hfind : db.findOrder n c = some o) (hst : o.status = .refunded) :
    ∃ o', db'.findOrder n c = some o' ∧ o'.status = .refunded := by
  obtain ⟨o', hfind', hb⟩ := h.findOrder hkey hfind
  have hle : .refunded ≤ o'.status.phase := by
    simpa [OrderStatus.phase_eq_refunded.mpr hst] using hb.phase
  exact ⟨o', hfind', OrderStatus.phase_eq_refunded.mp (Phase.isMax_refunded.eq_of_le hle).symm⟩

section Changes

variable {db : Database} {n : ℤ} {st : OrderStatus}

/-- Changing a status upwards is an evolution. -/
theorem evolves_setOrderStatus
    (hphase : ∀ o ∈ db.orders, o.id = n → o.status.phase ≤ st.phase) :
    db.Evolves (db.setOrderStatus n st) where
  orders o ho := by
    refine ⟨if o.id = n then { o with status := st } else o, ?_, ?_⟩
    · exact List.mem_map_of_mem ho
    · by_cases hid : o.id = n
      · rw [if_pos hid]
        exact ⟨rfl, rfl, rfl, rfl, hphase o ho hid⟩
      · rw [if_neg hid]
        exact .refl o
  refunds := List.prefix_refl _

/-- A status change keeps what PostgreSQL enforces. -/
theorem Schema.setOrderStatus (h : db.Schema) : (db.setOrderStatus n st).Schema where
  productsKey := h.productsKey
  ordersKey := h.ordersKey.update fun _ => rfl
  refundsOrder := h.refundsOrder
  refundsIdempotency := h.refundsIdempotency
  orderProduct o' ho' := by
    obtain ⟨o, ho, rfl⟩ := KeyedTable.mem_update.mp ho'
    obtain ⟨p, hp, hsku⟩ := h.orderProduct o ho
    exact ⟨p, hp, by split <;> exact hsku⟩
  refundOrder r hr := by
    obtain ⟨o, ho, hid⟩ := h.refundOrder r hr
    refine ⟨if o.id = n then { o with status := st } else o, ?_, ?_⟩
    · exact List.mem_map_of_mem ho
    · split <;> exact hid

/-- A new refund row for an order without one keeps what PostgreSQL enforces. -/
theorem Schema.insertRefund (h : db.Schema) {row : Refund}
    (horder : ∃ o ∈ db.orders, o.id = row.orderId) (hnone : ∀ r ∈ db.refunds, r.orderId ≠ row.orderId)
    (hkey : ∀ r ∈ db.refunds, r.idempotencyKey ≠ row.idempotencyKey) :
    { db with refunds := db.refunds ++ [row] : Database }.Schema where
  productsKey := h.productsKey
  ordersKey := h.ordersKey
  refundsOrder := h.refundsOrder.append (by simpa using hnone)
  refundsIdempotency := h.refundsIdempotency.append (by simpa using hkey)
  orderProduct := h.orderProduct
  refundOrder r hr := by
    rcases List.mem_append.mp hr with hold | hnew
    · exact h.refundOrder r hold
    · exact List.mem_singleton.mp hnew ▸ horder

/-- A new order row with a new number and a known product keeps what PostgreSQL enforces. -/
theorem Schema.insertOrder (h : db.Schema) {row : Order} (seq : ℤ)
    (hid : row.id ∉ db.orders.map Order.id) (hproduct : ∃ p ∈ db.products, p.sku = row.productSku) :
    { db with orders := db.orders ++ [row], ordersSeq := seq : Database }.Schema where
  productsKey := h.productsKey
  ordersKey := h.ordersKey.append hid
  refundsOrder := h.refundsOrder
  refundsIdempotency := h.refundsIdempotency
  orderProduct o ho := by
    rcases List.mem_append.mp ho with hold | hnew
    · exact h.orderProduct o hold
    · exact List.mem_singleton.mp hnew ▸ hproduct
  refundOrder r hr := by
    obtain ⟨o, ho, hid⟩ := h.refundOrder r hr
    exact ⟨o, List.mem_append_left _ ho, hid⟩

/-- Adding orders is an evolution. -/
theorem evolves_of_grown {db' : Database} (horders : db.orders <+: db'.orders)
    (hrefunds : db.refunds = db'.refunds) : db.Evolves db' where
  orders o ho := ⟨o, horders.subset ho, .refl o⟩
  refunds := hrefunds ▸ List.prefix_refl _

end Changes

end Database

end Agentops
