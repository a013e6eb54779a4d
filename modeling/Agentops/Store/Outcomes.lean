import Agentops.Store.Functions

/-!
# What each order function can do

One inversion lemma for each transaction: the cases its body distinguishes, with the lookup
that selects the case, the result and the database it commits. Later proofs use these and
never unfold a body.
-/

namespace Agentops

open Transaction

namespace Database

/-- `p.price * o.quantity` of an order, in cents. -/
def total (db : Database) (o : Order) : ℕ :=
  match (db.joinProducts o).head? with
  | none => 0
  | some p => p.price.cents * o.quantity.value

/-- The refund row and the order status, changed in one transaction. -/
def settle (db : Database) (orderNumber : ℤ) (amount : Money) (reason key : String) : Database :=
  { db with refunds := db.refunds ++ [⟨orderNumber, amount, reason, key⟩] : Database }.setOrderStatus
    orderNumber .refunded

/-- With every order's product present, the first joined row is the order looked up. -/
theorem head?_refundOrderRows {db : Database}
    (hproduct : ∀ o ∈ db.orders, ∃ p ∈ db.products, p.sku = o.productSku) (n : ℤ) (c : String) :
    (db.refundOrderRows n c).head? =
      (db.findOrder n c).map fun o => ⟨o.id, o.status, db.total o⟩ := by
  change (db.refundOrderRows n c).head? =
    ((db.matchingOrders n c).head?).map fun o => (⟨o.id, o.status, db.total o⟩ : RefundOrderRow)
  have hmem : ∀ o ∈ db.matchingOrders n c, o ∈ db.orders := fun o ho => (List.mem_filter.mp ho).1
  unfold refundOrderRows
  cases hrows : db.matchingOrders n c with
  | nil => rfl
  | cons o rest =>
    obtain ⟨p, hp, hsku⟩ := hproduct o (hmem o (by simp [hrows]))
    have hjoin : p ∈ db.joinProducts o := List.mem_filter.mpr ⟨hp, by simp [hsku]⟩
    cases hproducts : db.joinProducts o with
    | nil => simp [hproducts] at hjoin
    | cons q more => simp [hproducts, total]

end Database

section Cancel

/-- The three results of `cancel_order_row`. -/
def CancellationResult.notFound (n : ℤ) : CancellationResult :=
  ⟨false, formatOrderId n, false, none, none, "order_not_found"⟩

def CancellationResult.refused (o : Order) : CancellationResult :=
  ⟨true, formatOrderId o.id, false, some o.status, some o.status,
    (cancellationRejectionReasons o.status).getD "status_not_cancellable"⟩

def CancellationResult.done (o : Order) : CancellationResult :=
  ⟨true, formatOrderId o.id, true, some .cancelled, some o.status, "cancelled"⟩

/-- The cases of `cancel_order_row`. -/
inductive CancelOutcome (db : Database) (n : ℤ) (c : String) : CancellationResult × Database → Prop
  | missing (h : db.findOrder n c = none) : CancelOutcome db n c (.notFound n, db)
  | refused (o : Order) (h : db.findOrder n c = some o) (hst : o.status ∉ cancellableOrderStatuses) :
      CancelOutcome db n c (.refused o, db)
  | done (o : Order) (h : db.findOrder n c = some o) (hst : o.status ∈ cancellableOrderStatuses) :
      CancelOutcome db n c (.done o, db.setOrderStatus n .cancelled)

/-- `cancel_order_row` never fails by itself, and does one of its three cases. -/
theorem cancelOrderRow_outcome (db : Database) (n : ℤ) (c : String) :
    ∃ out, (cancelOrderRow n c).run db = .ok out ∧ CancelOutcome db n c out := by
  cases hfind : db.findOrder n c with
  | none =>
    refine ⟨_, ?_, .missing hfind⟩
    simp [Tx.run, cancelOrderRow, Tx.execute, Engine.run, postgres, Sql.execute, hfind,
      CancellationResult.notFound]
  | some o =>
    by_cases hst : o.status ∈ cancellableOrderStatuses
    · refine ⟨_, ?_, .done o hfind hst⟩
      simp [Tx.run, cancelOrderRow, Tx.execute, Engine.run, postgres, Sql.execute, hfind, hst,
        CancellationResult.done, RowChange.apply, Engine.applyAll]
    · refine ⟨_, ?_, .refused o hfind hst⟩
      simp [Tx.run, cancelOrderRow, Tx.execute, Engine.run, postgres, Sql.execute, hfind, hst,
        CancellationResult.refused, Engine.applyAll]

end Cancel

section Reads

/-- `get_order_status_row` reads the order and changes nothing. -/
theorem getOrderStatusRow_run (db : Database) (n : ℤ) (c : String) :
    (getOrderStatusRow n c).run db = .ok ((db.findOrder n c).map fun o => ⟨o.id, o.status⟩, db) := by
  simp [Tx.run, getOrderStatusRow, Tx.execute, Program.ofStatement, Engine.run, postgres,
    Sql.execute, Engine.applyAll]

/-- `get_refund_order_row` reads the order with its total and changes nothing. -/
theorem getRefundOrderRow_run {db : Database}
    (hproduct : ∀ o ∈ db.orders, ∃ p ∈ db.products, p.sku = o.productSku) (n : ℤ) (c : String) :
    (getRefundOrderRow n c).run db =
      .ok ((db.findOrder n c).map fun o => ⟨o.id, o.status, db.total o⟩, db) := by
  simp [Tx.run, getRefundOrderRow, Tx.execute, Program.ofStatement, Engine.run, postgres,
    Sql.execute, Engine.applyAll, Database.head?_refundOrderRows hproduct]

end Reads

section Refund

/-- An admissible amount is the column value. -/
theorem Money.cents_of_ofCents? {cents : ℕ} {money : Money} (h : Money.ofCents? cents = some money) :
    money.cents = cents := by
  obtain ⟨_, hmoney⟩ := Option.dite_none_right_eq_some.mp h
  rw [← Option.some.inj hmoney]

/-- A refund row that passes the checks has the asked amount and a new key. -/
theorem Database.checkRefund_eq_ok {db : Database} {n : ℤ} {amount : ℕ} {reason key : String}
    {row : Refund} (h : db.checkRefund n amount reason key = .ok row) :
    row.orderId = n ∧ row.amount.cents = amount ∧ row.reason = reason ∧
      row.idempotencyKey = key ∧ n ∉ db.refunds.map Refund.orderId ∧
      key ∉ db.refunds.map Refund.idempotencyKey := by
  obtain ⟨-, h⟩ := ite_error_eq_ok.mp h
  obtain ⟨-, h⟩ := ite_error_eq_ok.mp h
  cases hmoney : Money.ofCents? amount with
  | none => simp [hmoney] at h
  | some money =>
    rw [hmoney] at h
    obtain ⟨horder, h⟩ := ite_error_eq_ok.mp h
    obtain ⟨hkey, h⟩ := ite_error_eq_ok.mp h
    obtain ⟨-, h⟩ := ite_error_eq_ok.mp h
    obtain rfl := Except.ok.inj h
    exact ⟨rfl, Money.cents_of_ofCents? hmoney, rfl, rfl, horder, hkey⟩

/-- A unique column that a refund row breaks has a row with that value. -/
theorem Database.checkRefund_eq_error {db : Database} {n : ℤ} {amount : ℕ} {reason key : String}
    {e : SqlError} (h : db.checkRefund n amount reason key = .error e) :
    (e = .uniqueViolation "refunds_order_id_key" → ∃ r ∈ db.refunds, r.orderId = n) ∧
      (e = .uniqueViolation "refunds_idempotency_key_key" →
        ∃ r ∈ db.refunds, r.idempotencyKey = key) := by
  rcases ite_error_eq_error.mp h with ⟨-, rfl⟩ | ⟨-, h⟩
  · simp
  rcases ite_error_eq_error.mp h with ⟨-, rfl⟩ | ⟨-, h⟩
  · simp
  cases hmoney : Money.ofCents? amount with
  | none =>
    rw [hmoney] at h
    simp [← Except.error.inj h]
  | some money =>
    rw [hmoney] at h
    rcases ite_error_eq_error.mp h with ⟨horder, rfl⟩ | ⟨-, h⟩
    · simpa using horder
    rcases ite_error_eq_error.mp h with ⟨hkey, rfl⟩ | ⟨-, h⟩
    · simpa using hkey
    rcases ite_error_eq_error.mp h with ⟨-, rfl⟩ | ⟨-, h⟩
    · simp
    · cases h

/-- The cases of `refund_order_row`. -/
inductive RefundOutcome (db : Database) (n : ℤ) (c reason key : String) :
    Except SqlError (Option RefundResult × Database) → Prop
  | missing (h : db.findOrder n c = none) : RefundOutcome db n c reason key (.ok (none, db))
  | alreadyRefunded (o : Order) (r : Refund) (h : db.findOrder n c = some o) (hr : r ∈ db.refunds)
      (hid : r.orderId = n) :
      RefundOutcome db n c reason key
        (.ok (some ⟨n, .refunded, r.amount.cents, false, some "already_refunded"⟩, db))
  | notDelivered (o : Order) (h : db.findOrder n c = some o)
      (hnone : ∀ r ∈ db.refunds, r.orderId ≠ n) (hst : o.status ≠ .delivered) :
      RefundOutcome db n c reason key
        (.ok (some ⟨n, o.status, db.total o, false, some "order_not_delivered"⟩, db))
  | settled (o : Order) (amount : Money) (h : db.findOrder n c = some o)
      (hnone : ∀ r ∈ db.refunds, r.orderId ≠ n) (hst : o.status = .delivered)
      (hamount : amount.cents = db.total o) (hkey : ∀ r ∈ db.refunds, r.idempotencyKey ≠ key)
      (hcheck : db.checkRefund n (db.total o) reason key = .ok ⟨n, amount, reason, key⟩) :
      RefundOutcome db n c reason key
        (.ok (some ⟨n, .refunded, db.total o, true, none⟩, db.settle n amount reason key))
  | failed (o : Order) (e : SqlError) (h : db.findOrder n c = some o)
      (hnone : ∀ r ∈ db.refunds, r.orderId ≠ n) (hst : o.status = .delivered)
      (he : db.checkRefund n (db.total o) reason key = .error e) :
      RefundOutcome db n c reason key (.error e)

/-- Only a refund that gives no reason against it changes the tables. -/
theorem refundOrderRow_changes {db db' : Database} {n : ℤ} {c reason key : String}
    {result : Option RefundResult} (h : (refundOrderRow n c reason key).run db = .ok (result, db')) :
    db' = db ∨ ∃ x, result = some x ∧ x.reason = none := by
  cases hhead : (db.refundOrderRows n c).head? with
  | none =>
    simp [Tx.run, refundOrderRow, Tx.execute, Engine.run, postgres, Sql.execute, hhead] at h
    exact .inl h.2.symm
  | some row =>
    cases hrefund : (db.refunds.filter fun r => r.orderId = n).head? with
    | some r =>
      simp [Tx.run, refundOrderRow, Tx.execute, Engine.run, postgres, Sql.execute, hhead,
        Engine.applyAll, hrefund] at h
      exact .inl h.2.symm
    | none =>
      by_cases hst : row.status = .delivered
      · cases hcheck : db.checkRefund n row.total reason key with
        | error e =>
          simp [Tx.run, refundOrderRow, Tx.execute, Engine.run, postgres, Sql.execute, hhead,
            Engine.applyAll, hrefund, hst, hcheck, Except.map] at h
        | ok inserted =>
          simp [Tx.run, refundOrderRow, Tx.execute, Engine.run, postgres, Sql.execute, hhead,
            Engine.applyAll, hrefund, hst, hcheck, Except.map] at h
          exact .inr ⟨_, h.1.symm, rfl⟩
      · simp [Tx.run, refundOrderRow, Tx.execute, Engine.run, postgres, Sql.execute, hhead,
          Engine.applyAll, hrefund, hst] at h
        exact .inl h.2.symm

/-- `refund_order_row` does one of its five cases. -/
theorem refundOrderRow_outcome {db : Database}
    (hproduct : ∀ o ∈ db.orders, ∃ p ∈ db.products, p.sku = o.productSku)
    (n : ℤ) (c reason key : String) :
    RefundOutcome db n c reason key ((refundOrderRow n c reason key).run db) := by
  have hhead := Database.head?_refundOrderRows hproduct n c
  cases hfind : db.findOrder n c with
  | none =>
    have hrun : (refundOrderRow n c reason key).run db = .ok (none, db) := by
      simp [Tx.run, refundOrderRow, Tx.execute, Engine.run, postgres, Sql.execute, hhead, hfind]
    exact hrun ▸ .missing hfind
  | some o =>
    cases hrefund : (db.refunds.filter fun r => r.orderId = n).head? with
    | some r =>
      have hr : r ∈ db.refunds ∧ r.orderId = n := by
        simpa using List.mem_of_mem_head? (Option.mem_def.mpr hrefund)
      have hrun : (refundOrderRow n c reason key).run db =
          .ok (some ⟨n, .refunded, r.amount.cents, false, some "already_refunded"⟩, db) := by
        simp [Tx.run, refundOrderRow, Tx.execute, Engine.run, postgres, Sql.execute, hhead, hfind,
          Engine.applyAll, hrefund]
      exact hrun ▸ .alreadyRefunded o r hfind hr.1 hr.2
    | none =>
      have hnone : ∀ r ∈ db.refunds, r.orderId ≠ n := by simpa using hrefund
      by_cases hst : o.status = .delivered
      · cases hcheck : db.checkRefund n (db.total o) reason key with
        | error e =>
          have hrun : (refundOrderRow n c reason key).run db = .error e := by
            simp [Tx.run, refundOrderRow, Tx.execute, Engine.run, postgres, Sql.execute, hhead,
              hfind, Engine.applyAll, hrefund, hst, hcheck, Except.map]
          exact hrun ▸ .failed o e hfind hnone hst hcheck
        | ok row =>
          obtain ⟨hid, hamount, hreason, hkey, -, hnew⟩ := Database.checkRefund_eq_ok hcheck
          have hrow : row = ⟨n, row.amount, reason, key⟩ := by
            cases row
            simp_all
          have hrun : (refundOrderRow n c reason key).run db =
              .ok (some ⟨n, .refunded, db.total o, true, none⟩, db.settle n row.amount reason key) := by
            simp [Tx.run, refundOrderRow, Tx.execute, Engine.run, postgres, Sql.execute, hhead,
              hfind, Engine.applyAll, hrefund, hst, hcheck, Except.map, RowChange.apply,
              Database.settle, ← hrow]
          refine hrun ▸ .settled o row.amount hfind hnone hst hamount ?_ (hrow ▸ hcheck)
          intro r hr hrkey
          exact hnew (List.mem_map.mpr ⟨r, hr, hrkey⟩)
      · have hrun : (refundOrderRow n c reason key).run db =
            .ok (some ⟨n, o.status, db.total o, false, some "order_not_delivered"⟩, db) := by
          simp [Tx.run, refundOrderRow, Tx.execute, Engine.run, postgres, Sql.execute, hhead, hfind,
            Engine.applyAll, hrefund, hst]
        exact hrun ▸ .notDelivered o hfind hnone hst

/-- `refund_order_row` draws nothing from the sequence. -/
theorem refundOrderRow_drawn (db : Database) (n : ℤ) (c reason key : String) :
    (refundOrderRow n c reason key).drawn db = 0 := by
  cases hhead : (db.refundOrderRows n c).head? with
  | none => simp [refundOrderRow, Tx.execute, Tx.drawn, Sql.drawn, Sql.execute, hhead]
  | some row =>
    cases hrefund : (db.refunds.filter fun r => r.orderId = n).head? with
    | some r =>
      simp [refundOrderRow, Tx.execute, Tx.drawn, Sql.drawn, Sql.execute, postgres, hhead, hrefund]
    | none =>
      by_cases hst : row.status = .delivered
      · cases hcheck : db.checkRefund n row.total reason key with
        | error e =>
          simp [refundOrderRow, Tx.execute, Tx.drawn, Sql.drawn, Sql.execute, postgres, hhead, hrefund, hst,
            hcheck, Except.map]
        | ok row =>
          simp [refundOrderRow, Tx.execute, Tx.drawn, Sql.drawn, Sql.execute, postgres, hhead, hrefund, hst,
            hcheck, Except.map]
      · simp [refundOrderRow, Tx.execute, Tx.drawn, Sql.drawn, Sql.execute, postgres, hhead, hrefund, hst]

/-- A refund that fails leaves the database as it was. -/
theorem refundOrderRow_rolledBack (db : Database) (n : ℤ) (c reason key : String) :
    (refundOrderRow n c reason key).rolledBack db = db := by
  simp [Tx.rolledBack, refundOrderRow_drawn]

end Refund

section Create

/-- A new order that passes the checks is pending, has the number that was drawn and a known product. -/
theorem Database.checkNumbered_eq_ok {db : Database} {id quantity : ℤ} {c sku now : String} {row : Order}
    (h : db.checkNumbered id c sku quantity now = .ok row) :
    row.id = id ∧ row.customerId = c ∧ row.productSku = sku ∧ row.status = .pending ∧
      row.id ∉ db.orders.map Order.id ∧ ∃ p ∈ db.products, p.sku = sku := by
  unfold checkNumbered at h
  cases hquantity : Quantity.ofInt? quantity with
  | none => simp [hquantity] at h
  | some q =>
    rw [hquantity] at h
    obtain ⟨hid, h⟩ := ite_error_eq_ok.mp h
    obtain ⟨hsku, h⟩ := ite_error_eq_ok.mp h
    obtain rfl := Except.ok.inj h
    exact ⟨rfl, rfl, rfl, rfl, hid, List.mem_map.mp (not_not.mp hsku)⟩

/-- An order row that passes the checks is pending, has the next number and a known product. -/
theorem Database.checkOrder_eq_ok {db : Database} {c sku now : String} {quantity : ℤ} {row : Order}
    (h : db.checkOrder c sku quantity now = .ok row) :
    row.id = db.ordersSeq + 1 ∧ row.customerId = c ∧ row.productSku = sku ∧
      row.status = .pending ∧ row.id ∉ db.orders.map Order.id ∧
      ∃ p ∈ db.products, p.sku = sku := by
  unfold checkOrder at h
  cases hrefusal : insertOrderRefusal c quantity with
  | none => exact checkNumbered_eq_ok (by simpa only [hrefusal] using h)
  | some e => simp [hrefusal] at h

/-- The cases of `create_order_row`. -/
inductive CreateOutcome (db : Database) (c sku : String) (quantity : ℤ) (now : String) :
    Except SqlError (Option OrderView × Database) → Prop
  | unknownProduct (h : sku ∉ db.products.map Product.sku) :
      CreateOutcome db c sku quantity now (.ok (none, db))
  | created (row : Order) (view : Option OrderView)
      (h : db.checkOrder c sku quantity now = .ok row) :
      CreateOutcome db c sku quantity now
        (.ok (view, { db with orders := db.orders ++ [row], ordersSeq := row.id }))
  | failed (e : SqlError) (hsku : sku ∈ db.products.map Product.sku)
      (h : db.checkOrder c sku quantity now = .error e) :
      CreateOutcome db c sku quantity now (.error e)

/-- A refusal beforehand breaks no constraint. -/
theorem insertOrderRefusal_ne_uniqueViolation (c : String) (quantity : ℤ) (constraint : String) :
    insertOrderRefusal c quantity ≠ some (.uniqueViolation constraint) := by
  unfold insertOrderRefusal
  split_ifs <;> simp

/-- What `create_order_row` draws when its `INSERT` fails: one, unless the parameters are refused. -/
theorem createOrderRow_drawn {db : Database} {c sku now : String} {quantity : ℤ} {e : SqlError}
    (hsku : sku ∈ db.products.map Product.sku) (h : db.checkOrder c sku quantity now = .error e) :
    (createOrderRow c sku quantity now).drawn db = if insertOrderRefusal c quantity = none then 1 else 0 := by
  have hex : ∃ p ∈ db.products, p.sku = sku := List.mem_map.mp hsku
  simp [createOrderRow, Tx.execute, Tx.drawn, Sql.drawn, Sql.execute, postgres, hex, h, Except.map]

/-- A row that passes the checks is inserted and read back. -/
theorem createOrderRow_run {db : Database} {c sku now : String} {quantity : ℤ} {row : Order}
    (h : db.checkOrder c sku quantity now = .ok row) : (createOrderRow c sku quantity now).run db =
      .ok ((({ db with orders := db.orders ++ [row], ordersSeq := row.id } : Database).orderViews row.id).head?,
        { db with orders := db.orders ++ [row], ordersSeq := row.id }) := by
  obtain ⟨-, -, -, -, -, hex⟩ := Database.checkOrder_eq_ok h
  simp [Tx.run, createOrderRow, Tx.execute, Program.ofStatement, Engine.run, postgres, Sql.execute, hex,
    Engine.applyAll, h, Except.map, RowChange.apply]

/-- `create_order_row` does one of its three cases. -/
theorem createOrderRow_outcome (db : Database) (c sku : String) (quantity : ℤ) (now : String) :
    CreateOutcome db c sku quantity now ((createOrderRow c sku quantity now).run db) := by
  by_cases hsku : sku ∈ db.products.map Product.sku
  · have hex : ∃ p ∈ db.products, p.sku = sku := List.mem_map.mp hsku
    cases hcheck : db.checkOrder c sku quantity now with
    | error e =>
      have hrun : (createOrderRow c sku quantity now).run db = .error e := by
        simp [Tx.run, createOrderRow, Tx.execute, Engine.run, postgres, Sql.execute, hex,
          Engine.applyAll, hcheck, Except.map]
      exact hrun ▸ .failed e hsku hcheck
    | ok row => exact createOrderRow_run hcheck ▸ .created row _ hcheck
  · have hrun : (createOrderRow c sku quantity now).run db = .ok (none, db) := by
      have hnone : ¬ ∃ p ∈ db.products, p.sku = sku := fun h => hsku (List.mem_map.mpr h)
      simp [Tx.run, createOrderRow, Tx.execute, Engine.run, postgres, Sql.execute, hnone,
        Engine.applyAll]
    exact hrun ▸ .unknownProduct hsku

end Create

end Agentops
