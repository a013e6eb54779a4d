import Agentops.Foundations.LabelledRun
import Agentops.Store.Invariant

/-!
# Whole runs of the order store

A run starts from the tables written by `initialize_database` and takes committed and
rolled-back transactions in any order, restarts of the process, and external fulfilment. An
activity attempt that crashes after its commit and is repeated is two transactions here.
-/

namespace Agentops

open Transaction LabelledRun

/-- The database after a transaction, committed or rolled back. -/
def Tx.commit {α : Type} (tx : Tx α) (db : Database) : Database :=
  match tx.run db with
  | .ok (_, db') => db'
  | .error _ => tx.rolledBack db

/-- The statuses external fulfilment moves an order to. -/
def fulfilmentTargets : List OrderStatus := [.paid, .processing, .shipped, .delivered]

/-- External fulfilment: move an order that is pending, paid, processing or shipped. -/
def Database.fulfil (db : Database) (n : ℤ) (st : OrderStatus) : Database :=
  if ∃ o ∈ db.orders, o.id = n ∧ o.status ∈ cancellableOrderStatuses then db.setOrderStatus n st
  else db

/-- One event of a run. `rolledBack` is a transaction that was lost anywhere, with the order numbers it
drew from the sequence. -/
inductive StoreEvent
  | create (customerId productSku : String) (quantity : ℤ) (now : String)
  | cancel (orderNumber : ℤ) (customerId : String)
  | refund (orderNumber : ℤ) (customerId reason idempotencyKey : String)
  | rolledBack (drawn : ℕ)
  | restart
  | fulfil (orderNumber : ℤ) (status : OrderStatus)
  deriving DecidableEq, Repr

def storeStep (db : Database) : StoreEvent → Option Database
  | .create c sku quantity now => some ((createOrderRow c sku quantity now).commit db)
  | .cancel n c => some ((cancelOrderRow n c).commit db)
  | .refund n c reason key => some ((refundOrderRow n c reason key).commit db)
  | .rolledBack drawn => some { db with ordersSeq := db.ordersSeq + drawn }
  | .restart => some (initializeDatabase db)
  | .fulfil n st => if st ∈ fulfilmentTargets then some (db.fulfil n st) else none

section Steps

variable {db : Database}

/-- The event may draw order numbers that no order gets: an insertion that fails, or a lost transaction. -/
def StoreEvent.MayWaste (db : Database) : StoreEvent → Prop
  | .create c sku quantity now => sku ∈ db.products.map Product.sku ∧ insertOrderRefusal c quantity = none ∧
      ∃ e, db.checkNumbered (db.ordersSeq + 1) c sku quantity now = .error e
  | .rolledBack _ => True
  | _ => False

/-- What an event does to the tables: nothing, or what one of the transactions, a start or fulfilment does. -/
inductive StoreMoves (db : Database) : StoreEvent → Database → Prop
  | unchanged (e : StoreEvent) : StoreMoves db e db
  | created (c sku : String) (quantity : ℤ) (now : String) (row : Order)
      (h : db.checkOrder c sku quantity now = .ok row) :
      StoreMoves db (.create c sku quantity now) { db with orders := db.orders ++ [row], ordersSeq := row.id }
  | cancelled (n : ℤ) (c : String) (o : Order) (hfind : db.findOrder n c = some o)
      (hst : o.status ∈ cancellableOrderStatuses) :
      StoreMoves db (.cancel n c) (db.setOrderStatus n .cancelled)
  | refunded (n : ℤ) (c reason key : String) (o : Order) (amount : Money) (hfind : db.findOrder n c = some o)
      (hnone : ∀ r ∈ db.refunds, r.orderId ≠ n) (hst : o.status = .delivered) (hamount : amount.cents = db.total o)
      (hkey : ∀ r ∈ db.refunds, r.idempotencyKey ≠ key) :
      StoreMoves db (.refund n c reason key) (db.settle n amount reason key)
  | drawn (e : StoreEvent) (k : ℕ) (h : e.MayWaste db) : StoreMoves db e { db with ordersSeq := db.ordersSeq + k }
  | restarted : StoreMoves db .restart (initializeDatabase db)
  | fulfilled (o : Order) (st : OrderStatus) (ho : o ∈ db.orders) (hst : o.status ∈ cancellableOrderStatuses) :
      StoreMoves db (.fulfil o.id st) (db.setOrderStatus o.id st)

/-- A creation adds the order, or its number is drawn in vain, or nothing happens. -/
theorem StoreMoves.of_create (c sku : String) (quantity : ℤ) (now : String) :
    StoreMoves db (.create c sku quantity now) ((createOrderRow c sku quantity now).commit db) := by
  have hout := createOrderRow_outcome db c sku quantity now
  unfold Tx.commit
  generalize (createOrderRow c sku quantity now).run db = out at hout
  cases hout with
  | unknownProduct _ => exact .unchanged _
  | created row view hrow => exact .created c sku quantity now row hrow
  | failed e hsku hcheck =>
    simp only [Tx.rolledBack, createOrderRow_drawn hsku hcheck]
    by_cases hrefusal : insertOrderRefusal c quantity = none
    · rw [if_pos hrefusal]
      simp only [Database.checkOrder, hrefusal] at hcheck
      exact .drawn _ 1 ⟨hsku, hrefusal, e, hcheck⟩
    · rw [if_neg hrefusal, Nat.cast_zero, add_zero]
      exact .unchanged _

/-- A cancellation sets the status, or nothing happens. -/
theorem StoreMoves.of_cancel (n : ℤ) (c : String) :
    StoreMoves db (.cancel n c) ((cancelOrderRow n c).commit db) := by
  obtain ⟨out, hrun, hout⟩ := cancelOrderRow_outcome db n c
  unfold Tx.commit
  rw [hrun]
  cases hout with
  | missing _ => exact .unchanged _
  | refused _ _ _ => exact .unchanged _
  | done o hfind hst => exact .cancelled n c o hfind hst

/-- A refund settles the order, or nothing happens. -/
theorem StoreMoves.of_refund (h : db.Schema) (n : ℤ) (c reason key : String) :
    StoreMoves db (.refund n c reason key) ((refundOrderRow n c reason key).commit db) := by
  have hout := refundOrderRow_outcome h.orderProduct n c reason key
  unfold Tx.commit
  generalize (refundOrderRow n c reason key).run db = out at hout
  cases hout with
  | missing _ => exact .unchanged _
  | alreadyRefunded _ _ _ _ _ => exact .unchanged _
  | notDelivered _ _ _ _ => exact .unchanged _
  | settled o amount hfind hnone hst hamount hkey =>
    exact .refunded n c reason key o amount hfind hnone hst hamount hkey
  | failed _ _ _ _ _ _ =>
    simp only [refundOrderRow_rolledBack]
    exact .unchanged _

/-- Every event does one of these. -/
theorem storeStep_moves (h : db.Schema) {e : StoreEvent} {db' : Database} (hstep : storeStep db e = some db') :
    StoreMoves db e db' := by
  cases e with
  | create c sku quantity now =>
    obtain rfl := Option.some.inj hstep
    exact .of_create c sku quantity now
  | cancel n c =>
    obtain rfl := Option.some.inj hstep
    exact .of_cancel n c
  | refund n c reason key =>
    obtain rfl := Option.some.inj hstep
    exact .of_refund h n c reason key
  | rolledBack drawn =>
    obtain rfl := Option.some.inj hstep
    exact .drawn _ drawn trivial
  | restart =>
    obtain rfl := Option.some.inj hstep
    exact .restarted
  | fulfil n st =>
    obtain ⟨-, hfulfil⟩ := Option.ite_none_right_eq_some.mp hstep
    obtain rfl := Option.some.inj hfulfil
    unfold Database.fulfil
    by_cases hex : ∃ o ∈ db.orders, o.id = n ∧ o.status ∈ cancellableOrderStatuses
    · rw [if_pos hex]
      obtain ⟨o, ho, rfl, hst⟩ := hex
      exact .fulfilled o st ho hst
    · rw [if_neg hex]
      exact .unchanged _

/-- Every event of a run is a safe change. -/
theorem storeStep_safe (h : StoreSound db) {e : StoreEvent} {db' : Database}
    (hstep : storeStep db e = some db') : SafeChange db db' := by
  cases storeStep_moves h.schema hstep with
  | unchanged _ => exact .refl h
  | created c sku quantity now row hrow => exact (CreateOutcome.created row none hrow).safe h
  | cancelled n c o hfind hst => exact (CancelOutcome.done o hfind hst).safe h
  | refunded n c reason key o amount hfind hnone hst hamount hkey =>
    obtain ⟨ho, rfl, -⟩ := Database.findOrder_eq_some hfind
    exact h.safe_settle ho hst hnone hkey hamount
  | drawn e k _ => exact h.safe_grow (h.schema.withSequence _) (List.prefix_refl _) (.refl _) rfl
  | restarted => exact safe_initializeDatabase h
  | fulfilled o st ho hst => exact h.safe_setOrderStatus ho (OrderStatus.mem_cancellable_iff.mp hst) st

/-- A run keeps the invariant. -/
theorem storeRun_keeps {events : List StoreEvent} {db' : Database} (h : StoreInvariant db)
    (hrun : runFrom storeStep db events = some db') : StoreInvariant db' :=
  runFrom_invariant storeStep StoreInvariant
    (fun _ _ _ hinv hstep => (storeStep_safe hinv.toStoreSound hstep).invariant hinv) hrun h

/-- A run loses no refunds row and moves statuses only upwards. -/
theorem storeRun_evolves {events : List StoreEvent} {db' : Database} (h : StoreInvariant db)
    (hrun : runFrom storeStep db events = some db') : db.Evolves db' := by
  have hboth := runFrom_invariant storeStep (fun mid => StoreInvariant mid ∧ db.Evolves mid)
    (fun mid e next hmid hstep =>
      have hsafe := storeStep_safe hmid.1.toStoreSound hstep
      ⟨hsafe.invariant hmid.1, hmid.2.trans hsafe.evolves⟩)
    hrun ⟨h, .refl db⟩
  exact hboth.2

/-- The tables written by `initialize_database`. -/
theorem storeInvariant_seeded : StoreInvariant (initializeDatabase .empty) :=
  (safe_initializeDatabase storeInvariant_empty.toStoreSound).invariant storeInvariant_empty

end Steps

section StatusChanges

/-- The events that are the program's own. -/
def StoreEvent.ByProgram : StoreEvent → Prop
  | .fulfil _ _ => False
  | _ => True

/-- The status changes the program makes: its owner cancels an order in fulfilment, or its
owner's refund of a delivered order inserts the refunds row at the same time. -/
inductive ProgramStatusChange (e : StoreEvent) (db' : Database) (o o' : Order) : Prop
  | unchanged (h : o'.status = o.status)
  | cancelled (he : e = .cancel o.id o.customerId) (h : o.status ∈ cancellableOrderStatuses)
      (h' : o'.status = .cancelled)
  | refunded (reason key : String) (he : e = .refund o.id o.customerId reason key)
      (h : o.status = .delivered) (h' : o'.status = .refunded)
      (hrow : ∃ r ∈ db'.refunds, r.orderId = o.id)

variable {db db' : Database} {o o' : Order}

/-- When only one order's status is set, every other order keeps its own. -/
theorem status_of_mem_setOrderStatus (hkey : KeyedTable.Unique Order.id db.orders) (ho : o ∈ db.orders)
    {n : ℤ} {st : OrderStatus} (ho' : o' ∈ (db.setOrderStatus n st).orders) (hid : o'.id = o.id) :
    o'.status = if o.id = n then st else o.status := by
  obtain ⟨q, hq, rfl⟩ := KeyedTable.mem_update.mp ho'
  have hqid : q.id = o.id := by
    split at hid <;> exact hid
  obtain rfl := hkey.eq_of_key_eq hq ho hqid
  split <;> rfl

/-- When orders are only added, every order keeps its status. -/
theorem status_of_grown (horders : db.orders <+: db'.orders)
    (hkey : KeyedTable.Unique Order.id db'.orders) (ho : o ∈ db.orders) (ho' : o' ∈ db'.orders)
    (hid : o'.id = o.id) : o'.status = o.status := by
  rw [hkey.eq_of_key_eq ho' (horders.subset ho) hid]

/-- Setting the status of an order that a customer looked up changes that of no other order. -/
theorem status_of_found {n : ℤ} {c : String} {st : OrderStatus} {q : Order}
    (hkey : KeyedTable.Unique Order.id db.orders) (hfind : db.findOrder n c = some q)
    (ho : o ∈ db.orders) (ho' : o' ∈ (db.setOrderStatus n st).orders) (hid : o'.id = o.id) :
    o'.status = o.status ∨ q = o ∧ n = o.id ∧ c = o.customerId ∧ o'.status = st := by
  have hstatus := status_of_mem_setOrderStatus hkey ho ho' hid
  by_cases hon : o.id = n
  · obtain ⟨hq, hqid, hcustomer⟩ := Database.findOrder_eq_some hfind
    obtain rfl := hkey.eq_of_key_eq hq ho (hqid.trans hon.symm)
    exact .inr ⟨rfl, hon.symm, hcustomer.symm, by rw [hstatus, if_pos hon]⟩
  · exact .inl (by rw [hstatus, if_neg hon])

/-- What one event of the program does to the status of one order. -/
theorem programStatusChange_of_step (h : StoreSound db) {e : StoreEvent}
    (hstep : storeStep db e = some db') (hprogram : e.ByProgram) (ho : o ∈ db.orders)
    (ho' : o' ∈ db'.orders) (hid : o'.id = o.id) : ProgramStatusChange e db' o o' := by
  have hkey := h.schema.ordersKey
  have hgrown : db.orders <+: db'.orders → ProgramStatusChange e db' o o' := fun horders =>
    .unchanged (status_of_grown horders (storeStep_safe h hstep).sound.schema.ordersKey ho ho' hid)
  cases storeStep_moves h.schema hstep with
  | unchanged _ => exact hgrown (List.prefix_refl _)
  | created c sku quantity now row _ => exact hgrown (List.prefix_append _ _)
  | cancelled n c q hfind hst =>
    rcases status_of_found hkey hfind ho ho' hid with hsame | ⟨rfl, rfl, rfl, hstatus⟩
    · exact .unchanged hsame
    · exact .cancelled rfl hst hstatus
  | refunded n c reason key q amount hfind _ hst _ _ =>
    rcases status_of_found hkey hfind ho ho' hid with hsame | ⟨rfl, rfl, rfl, hstatus⟩
    · exact .unchanged hsame
    · exact .refunded reason key rfl hst hstatus
        ⟨_, List.mem_append_right _ (List.mem_singleton_self _), rfl⟩
  | drawn e k _ => exact hgrown (List.prefix_refl _)
  | restarted => exact hgrown (initializeDatabase_grows h.schema).2.1
  | fulfilled q st _ _ => exact absurd hprogram (by simp [StoreEvent.ByProgram])

end StatusChanges

/-- The coupling of orders and refunds, as a reader of the tables sees it. -/
structure RefundsCoupled (db : Database) : Prop where
  atMostOne : ∀ n : ℤ, (db.refunds.filter fun r => r.orderId = n).length ≤ 1
  hasOrder : ∀ r ∈ db.refunds, ∃ o ∈ db.orders, o.id = r.orderId
  refunded : ∀ r ∈ db.refunds, ∀ o ∈ db.orders, o.id = r.orderId →
    o.status = .refunded ∧ ∃ p ∈ db.products, p.sku = o.productSku ∧
      r.amount.cents = p.price.cents * o.quantity.value

theorem StoreInvariant.refundsCoupled {db : Database} (h : StoreInvariant db) : RefundsCoupled db where
  atMostOne n := h.schema.refundsOrder.length_filter_le _ fun r _ r' _ hr hr' => by
    simp only [decide_eq_true_eq] at hr hr'
    exact hr.trans hr'.symm
  hasOrder := h.schema.refundOrder
  refunded r hr o ho hid := by
    obtain ⟨p, hp, hsku⟩ := h.schema.orderProduct o ho
    refine ⟨h.settled r hr o ho hid, p, hp, hsku, ?_⟩
    rw [h.priced r hr o ho hid, Database.total_eq h.schema.productsKey hp hsku]

/-- In every state a run reaches, orders and refunds are coupled, no refunds row is changed or
removed later, and the program's next status change is a cancellation of an order in
fulfilment or a refund of a delivered one. -/
theorem storeRun_coupled (events : List StoreEvent) (db : Database)
    (hrun : runFrom storeStep (initializeDatabase .empty) events = some db) :
    RefundsCoupled db ∧
      (∀ later db', runFrom storeStep db later = some db' → db.refunds <+: db'.refunds) ∧
      ∀ e db', storeStep db e = some db' → e.ByProgram →
        ∀ o ∈ db.orders, ∀ o' ∈ db'.orders, o'.id = o.id → ProgramStatusChange e db' o o' := by
  have hinv := storeRun_keeps storeInvariant_seeded hrun
  refine ⟨hinv.refundsCoupled, fun later db' hlater => (storeRun_evolves hinv hlater).refunds, ?_⟩
  intro e db' hstep hprogram o ho o' ho' hid
  exact programStatusChange_of_step hinv.toStoreSound hstep hprogram ho ho' hid

/-- One refund of order 5, a restart, and the same refund again. -/
def refundOrderFiveTwice : List StoreEvent :=
  [.refund 5 "CUS-005" "damaged" "refund-order-5", .restart,
    .refund 5 "CUS-005" "damaged" "refund-order-5"]

/-- The seeded order 5 is delivered: refunding it twice, with a restart in between, leaves one
row for two chargers. -/
theorem storeRun_coupled_order_five :
    ∃ db, runFrom storeStep (initializeDatabase .empty) refundOrderFiveTwice = some db ∧
      db.refunds.map (fun r => r.amount.cents) = [9800] ∧ RefundsCoupled db := by
  have hpaid : (runFrom storeStep (initializeDatabase .empty) refundOrderFiveTwice).map
      (fun db => db.refunds.map fun r => r.amount.cents) = some [9800] := by
    rw [initializeDatabase_empty]
    decide +kernel
  obtain ⟨db, hrun, hamounts⟩ := Option.map_eq_some_iff.mp hpaid
  exact ⟨db, hrun, hamounts, (storeRun_coupled refundOrderFiveTwice db hrun).1⟩

end Agentops
