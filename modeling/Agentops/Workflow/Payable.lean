import Agentops.Workflow.Amounts

/-!
# A refund that was found payable stays payable

Between the load that found an order delivered and the execution of its refund anyone may call the order
functions, with any arguments. A delivered order leaves that status only together with the refunds row that
pays it; it can be neither cancelled nor moved back. So whenever the execution comes, the order is found and
may be refunded: it is paid, or its row is found, unless the database refuses the row for its texts or because
another order's row bears the order's key.
-/

namespace Agentops

open Transaction DurableExecution LabelledRun

/-- The customer's order is delivered, or has been paid back. -/
def Database.Payable (db : Database) (orderNumber : ℤ) (customerId : String) : Prop :=
  ∃ o, db.findOrder orderNumber customerId = some o ∧
    (o.status = .delivered ∨ ∃ row ∈ db.refunds, row.orderId = orderNumber)

section Steps

variable {db db' : Database} {n : ℤ} {c : String}

/-- No committed or rolled back transaction, no restart and no fulfilment takes a payable order away. -/
theorem Database.Payable.step (hpayable : db.Payable n c) (h : StoreSound db) {e : StoreEvent}
    (hstep : storeStep db e = some db') : db'.Payable n c := by
  have hsafe := storeStep_safe h hstep
  obtain ⟨o, hfind, hcase⟩ := hpayable
  obtain ⟨ho, hid, -⟩ := findOrder_eq_some hfind
  obtain ⟨o', hfind', hbecomes⟩ := hsafe.evolves.findOrder hsafe.sound.schema.ordersKey hfind
  obtain ⟨ho', -, -⟩ := findOrder_eq_some hfind'
  refine ⟨o', hfind', ?_⟩
  rcases hcase with hdelivered | ⟨row, hrow, hrowId⟩
  · have hcancellable : o.status ∉ cancellableOrderStatuses := by
      rw [hdelivered]
      decide
    by_cases hprogram : e.ByProgram
    · cases programStatusChange_of_step h hstep hprogram ho ho' hbecomes.id with
      | unchanged hsame => exact .inl (hsame.trans hdelivered)
      | cancelled _ hold _ => exact absurd hold hcancellable
      | refunded reason key _ _ _ hrow => exact .inr (hid ▸ hrow)
    · left
      cases storeStep_moves h.schema hstep with
      | unchanged _ => rw [h.schema.ordersKey.eq_of_key_eq ho' ho hbecomes.id, hdelivered]
      | drawn e k _ => rw [h.schema.ordersKey.eq_of_key_eq ho' ho hbecomes.id, hdelivered]
      | fulfilled q st hq hst =>
        have hne : o.id ≠ q.id := by
          intro hsame
          exact hcancellable (h.schema.ordersKey.eq_of_key_eq ho hq hsame ▸ hst)
        rw [status_of_mem_setOrderStatus h.schema.ordersKey ho ho' hbecomes.id, if_neg hne, hdelivered]
      | _ => exact absurd trivial hprogram
  · exact .inr ⟨row, hsafe.evolves.refunds.subset hrow, hrowId⟩

/-- An activity changes nothing or does what a transaction of the store does. -/
theorem OrderActivity.exists_storeStep (a : OrderActivity) (db : Database) :
    (a.perform db).2 = db ∨ ∃ e, storeStep db e = some (a.perform db).2 := by
  have hcommit : ∀ {α β : Type} (tx : Tx α) (finish : α → Except Failure β),
      (inTransaction tx finish db).2 = tx.commit db := by
    intro α β tx finish
    unfold inTransaction Tx.commit
    cases tx.run db with
    | error e => rfl
    | ok out => rfl
  cases a with
  | cancelOrder inp => exact .inr ⟨.cancel inp.orderNumber inp.requestedBy, congrArg some (hcommit _ _).symm⟩
  | loadRefundOrder inp => exact .inl (loadRefundOrderActivity_unchanged db inp)
  | executeRefund inp =>
    exact .inr ⟨.refund inp.orderNumber inp.requestedBy inp.reason (refundIdempotencyKey inp.orderNumber),
      congrArg some (hcommit _ _).symm⟩

end Steps

/-- What the order functions keep, whoever calls them: every price is so low that ten pieces can be paid back. -/
structure PayableTables (db : Database) : Prop extends StoreSound db where
  prices : ∀ p ∈ db.products, p.price.cents < 1000000000

/-- What holds of tables that only the program and fulfilment write: refunds rows carry the keys of their
orders. -/
structure ProgramTables (db : Database) : Prop extends PayableTables db where
  keys : db.KeysDerived

section Tables

variable {db db' : Database}

/-- The products after seeding were there before or are seeded. -/
theorem mem_products_seed {products : List Product} {orders : List Order} {p : Product}
    (hp : p ∈ (db.seed products orders).resetSequence.products) : p ∈ db.products ∨ p ∈ products := by
  obtain ⟨seq, hseq⟩ := (db.seed products orders).resetSequence_eq
  rw [hseq] at hp
  exact KeyedTable.mem_foldl_insertIgnore Product.sku hp

/-- The prices of the catalogue are within what a refund can be. -/
theorem seedProducts_prices : ∀ p ∈ seedProducts, p.price.cents < 1000000000 := by decide

/-- Every event of the store keeps prices low. -/
theorem PayableTables.storeStep (h : PayableTables db) {e : StoreEvent} (hstep : Agentops.storeStep db e = some db') :
    PayableTables db' := by
  refine ⟨(storeStep_safe h.toStoreSound hstep).sound, ?_⟩
  cases storeStep_moves h.schema hstep with
  | restarted =>
    intro p hp
    rcases mem_products_seed hp with hold | hseeded
    · exact h.prices p hold
    · exact seedProducts_prices p hseeded
  | _ => exact h.prices

/-- And so does every activity. -/
theorem PayableTables.perform (h : PayableTables db) (a : OrderActivity) : PayableTables (a.perform db).2 := by
  rcases a.exists_storeStep db with hsame | ⟨e, he⟩
  · rwa [hsame]
  · exact h.storeStep he

/-- The empty tables are tables of the program. -/
theorem programTables_empty : ProgramTables .empty where
  toStoreSound := storeInvariant_empty.toStoreSound
  keys := by simp [Database.KeysDerived, Database.empty]
  prices := by simp [Database.empty]

/-- Activities keep the tables in this state. -/
theorem ProgramTables.perform (h : ProgramTables db) (a : OrderActivity) : ProgramTables (a.perform db).2 := by
  refine ⟨h.toPayableTables.perform a, ?_⟩
  cases a with
  | cancelOrder inp =>
    obtain ⟨result, db', hrun, hout⟩ := cancelOrderActivity_outcome db inp
    have hafter : (OrderActivity.perform (.cancelOrder inp) db).2 = db' := congrArg Prod.snd hrun
    rw [hafter]
    cases hout with
    | missing _ => exact h.keys
    | refused o _ _ => exact h.keys
    | done o _ _ => exact h.keys
  | loadRefundOrder inp =>
    have hafter : (OrderActivity.perform (.loadRefundOrder inp) db).2 = db := loadRefundOrderActivity_unchanged db inp
    rw [hafter]
    exact h.keys
  | executeRefund inp =>
    have hout := executeRefundActivity_outcome h.toStoreSound inp
    change (executeRefundActivity inp db).2.KeysDerived
    generalize executeRefundActivity inp db = out at hout
    cases hout with
    | settled o amount _ _ _ _ _ =>
      intro row hrow
      rcases List.mem_append.mp hrow with hold | hnew
      · exact h.keys row hold
      · obtain rfl := List.mem_singleton.mp hnew
        rfl
    | _ => exact h.keys

/-- So does every outside change but that of a price. -/
theorem ProgramTables.outside (h : ProgramTables db) {x : Outside} (hkeeps : x.KeepsPrices)
    (hx : x.change db = some db') : ProgramTables db' := by
  have hrefunds := Outside.refunds h.schema hx
  obtain ⟨e, -, he⟩ := Outside.exists_storeStep hkeeps hx
  exact ⟨h.toPayableTables.storeStep he, fun row hrow => h.keys row (hrefunds ▸ hrow)⟩

/-- The tables that the first start of the process writes. -/
theorem programTables_seeded : ProgramTables (initializeDatabase .empty) :=
  programTables_empty.outside (x := .restart) trivial rfl

/-- The second database is the first at a later time, and whatever was payable is. -/
structure Database.EvolvesPayable (db db' : Database) : Prop where
  evolves : db.Evolves db'
  payable : ∀ n c, db.Payable n c → db'.Payable n c

/-- Nothing has changed. -/
theorem Database.EvolvesPayable.refl (db : Database) : db.EvolvesPayable db := ⟨.refl db, fun _ _ => id⟩

/-- One change after the other. -/
theorem Database.EvolvesPayable.trans {db'' : Database} (h : db.EvolvesPayable db') (h' : db'.EvolvesPayable db'') :
    db.EvolvesPayable db'' :=
  ⟨h.evolves.trans h'.evolves, fun n c => h'.payable n c ∘ h.payable n c⟩

/-- What was payable stays payable in every event of the store. -/
theorem StoreSound.evolvesPayable (h : StoreSound db) {e : StoreEvent} (hstep : storeStep db e = some db') :
    db.EvolvesPayable db' :=
  ⟨(storeStep_safe h hstep).evolves, fun _ _ hpayable => hpayable.step h hstep⟩

/-- And in every activity. -/
theorem OrderActivity.evolvesPayable (a : OrderActivity) (h : StoreSound db) :
    db.EvolvesPayable (a.perform db).2 := by
  rcases a.exists_storeStep db with hsame | ⟨e, he⟩
  · rw [hsame]
    exact .refl db
  · exact h.evolvesPayable he

/-- While prices are left alone, what was payable stays payable. -/
theorem orderService_guarantee_payable :
    Guarantee orderService Outside.KeepsPrices ProgramTables Database.EvolvesPayable where
  refl := .refl
  trans _ _ _ := .trans
  perform a db h := ⟨h.perform a, a.evolvesPayable h.toStoreSound⟩
  outside x db db' hkeeps h hx := by
    obtain ⟨e, -, he⟩ := Outside.exists_storeStep hkeeps hx
    exact ⟨h.outside hkeeps hx, h.toStoreSound.evolvesPayable he⟩

end Tables

section AnyCaller

/-- The order workflows while anyone calls the order functions, with any arguments. -/
def storeService : Service WorkflowInput WorkflowObject ApprovalInput OrderActivity OrderActivity.Reply Failure
    Database WorkflowState StoreEvent :=
  orderService.amid (flip storeStep)

abbrev StoreServiceEvent := Event WorkflowInput ApprovalInput StoreEvent

/-- Whoever calls them, what was payable stays payable. -/
theorem storeService_guarantee :
    Guarantee storeService (fun _ => True) PayableTables Database.EvolvesPayable where
  refl := .refl
  trans _ _ _ := .trans
  perform a _ h := ⟨h.perform a, a.evolvesPayable h.toStoreSound⟩
  outside _ _ _ _ h hx := ⟨h.storeStep hx, h.toStoreSound.evolvesPayable hx⟩

variable {events : List StoreServiceEvent} {s : OrderSystem} {r : OrderRun} {inp : OrderActionInput} {db : Database}

/-- Whatever happens, the system stays sound. -/
theorem sound_of_storeRun (hdb : PayableTables db)
    (hrun : runFrom storeService.step (System.initial db) events = some s) :
    Sound storeService PayableTables Database.EvolvesPayable s :=
  .of_run storeService_guarantee hdb (fun e _ => e.admissible_of_all) hrun

/-- A run that attempts to execute a refund is a refund run that is cleared for it. -/
theorem cleared_of_storeRun (hrun : runFrom storeService.step (System.initial db) events = some s) (hr : r ∈ s.runs)
    {record : ExecuteRecord} (hdid : r.Did (.executeRefund inp) record) :
    ∃ order, RefundWorkflow.Cleared inp r order := by
  obtain ⟨t, ht, hactivity⟩ := activity_of_did hdid
  have hcancel := (CancelOrderWorkflow.kept.amid (flip storeStep)).holds hrun r hr
  have hrefund := (RefundWorkflow.kept.amid (flip storeStep)).holds hrun r hr
  exact (cleared_of_kept hcancel hrefund ht hactivity).2

end AnyCaller

/-- The execution pays the order back, or reports that it has been paid back and changes nothing. -/
inductive PaysOrReports (inp : OrderActionInput) (record : ExecuteRecord) : Prop
  | pays (o : Order) (amount : Money)
      (hfind : record.before.findOrder inp.orderNumber inp.requestedBy = some o) (hstatus : o.status = .delivered)
      (hamount : amount.cents = record.before.total o)
      (hreply : record.reply = .ok ⟨inp.orderNumber, .refunded, amountText amount.cents, true, none⟩)
      (hafter : record.after =
        record.before.settle inp.orderNumber amount inp.reason (refundIdempotencyKey inp.orderNumber))
  | reports (row : Refund) (hrow : row ∈ record.before.refunds) (hid : row.orderId = inp.orderNumber)
      (hreply : record.reply =
        .ok ⟨inp.orderNumber, .refunded, amountText row.amount.cents, false, some "already_refunded"⟩)
      (hafter : record.after = record.before)

/-- The order has no refunds row, and none can be inserted: the reason has a NUL, or the row of another order
bears the order's key. -/
def Database.RefusesRefund (db : Database) (inp : OrderActionInput) : Prop :=
  (∀ row ∈ db.refunds, row.orderId ≠ inp.orderNumber) ∧
    (storable inp.reason = false ∨
      ∃ row ∈ db.refunds, row.idempotencyKey = refundIdempotencyKey inp.orderNumber)

section Executions

variable {db : Database} {inp : OrderActionInput}

/-- The row of a delivered order without a refunds row can be inserted when its texts can be stored and its key is
new. -/
theorem PayableTables.exists_checkRefund (h : PayableTables db) {o : Order} {n : ℤ} {c reason : String}
    (hfind : db.findOrder n c = some o) (hnone : ∀ r ∈ db.refunds, r.orderId ≠ n)
    (hreason : storable reason = true) (hkeys : ∀ r ∈ db.refunds, r.idempotencyKey ≠ refundIdempotencyKey n) :
    ∃ row, db.checkRefund n (db.total o) reason (refundIdempotencyKey n) = .ok row := by
  obtain ⟨ho, hid, -⟩ := Database.findOrder_eq_some hfind
  obtain ⟨p, hp, hsku⟩ := h.schema.orderProduct o ho
  have htotal := Database.total_eq h.schema.productsKey hp hsku
  have hprice := h.prices p hp
  have hfits : db.total o < 10000000000 := by
    rw [htotal]
    calc p.price.cents * o.quantity.value ≤ p.price.cents * 10 := Nat.mul_le_mul_left _ o.quantity.atMostTen
      _ < 10000000000 := by omega
  have hpositive : 0 < db.total o := by
    rw [htotal]
    exact Nat.mul_pos p.price.positive (Nat.lt_of_lt_of_le Nat.zero_lt_one o.quantity.atLeastOne)
  have hnew : n ∉ db.refunds.map Refund.orderId := by
    intro hmem
    obtain ⟨r, hr, hrn⟩ := List.mem_map.mp hmem
    exact hnone r hr hrn
  have hkey : refundIdempotencyKey n ∉ db.refunds.map Refund.idempotencyKey := by
    intro hmem
    obtain ⟨r, hr, hrkey⟩ := List.mem_map.mp hmem
    exact hkeys r hr hrkey
  have horder : n ∈ db.orders.map Order.id := hid ▸ List.mem_map_of_mem ho
  refine ⟨⟨n, ⟨db.total o, hpositive, hfits⟩, reason, refundIdempotencyKey n⟩, ?_⟩
  simp [Database.checkRefund, Money.ofCents?, hpositive, hfits, hnew, hkey, horder, hreason,
    storable_refundIdempotencyKey]

/-- Where the keys are those of the orders, the texts alone decide. -/
theorem ProgramTables.exists_checkRefund (h : ProgramTables db) {o : Order} {n : ℤ} {c reason : String}
    (hfind : db.findOrder n c = some o) (hnone : ∀ r ∈ db.refunds, r.orderId ≠ n) (hreason : storable reason = true) :
    ∃ row, db.checkRefund n (db.total o) reason (refundIdempotencyKey n) = .ok row :=
  h.toPayableTables.exists_checkRefund hfind hnone hreason fun r hr hkey =>
    hnone r hr (refundIdempotencyKey_injective ((h.keys r hr).symm.trans hkey))

/-- A row that can be inserted has texts that can be stored. -/
theorem Database.storable_of_checkRefund {n : ℤ} {amount : ℕ} {reason key : String} {row : Refund}
    (h : db.checkRefund n amount reason key = .ok row) : storable reason = true := by
  have htexts := (ite_error_eq_ok.mp h).1
  simp only [not_or, Bool.not_eq_false] at htexts
  exact htexts.1

/-- What comes of an execution on a database: the order is found and may be refunded, and it is paid or its row is
reported unless the database refuses the row. -/
structure PaysUnlessRefused (inp : OrderActionInput) (record : ExecuteRecord) : Prop where
  found : record.reply ≠ .error .orderNotFound
  allowed : record.reply ≠ .error .refundNotAllowed
  pays : ¬ record.before.RefusesRefund inp → PaysOrReports inp record
  refused : record.before.RefusesRefund inp →
    (∃ e, record.reply = .error (.databaseError e)) ∧ record.after = record.before

/-- An execution that pays or reports. -/
theorem PaysOrReports.unlessRefused {record : ExecuteRecord} (h : PaysOrReports inp record)
    (hfree : ¬ record.before.RefusesRefund inp) : PaysUnlessRefused inp record := by
  have hok : ∃ reply, record.reply = .ok reply := by
    cases h with
    | pays _ _ _ _ _ hreply _ => exact ⟨_, hreply⟩
    | reports _ _ _ hreply _ => exact ⟨_, hreply⟩
  obtain ⟨reply, hreply⟩ := hok
  exact ⟨by simp [hreply], by simp [hreply], fun _ => h, fun hrefuses => absurd hrefuses hfree⟩

/-- An execution whose row the database refuses. -/
theorem PaysUnlessRefused.of_databaseError {record : ExecuteRecord} {e : SqlError}
    (hreply : record.reply = .error (.databaseError e)) (hafter : record.after = record.before)
    (hrefuses : record.before.RefusesRefund inp) : PaysUnlessRefused inp record :=
  ⟨by simp [hreply, Failure.orderNotFound], by simp [hreply, Failure.refundNotAllowed],
    fun hfree => absurd hrefuses hfree, fun _ => ⟨⟨e, hreply⟩, hafter⟩⟩

/-- An execution on a database where the order is payable does one of these. -/
theorem PayableTables.execution (h : PayableTables db) (hpayable : db.Payable inp.orderNumber inp.requestedBy) :
    PaysUnlessRefused inp (storeService.record (.executeRefund inp) db) := by
  obtain ⟨o, hfind, hcase⟩ := hpayable
  have hout := refundOrderRow_outcome h.schema.orderProduct inp.orderNumber inp.requestedBy inp.reason
    (refundIdempotencyKey inp.orderNumber)
  have hrecord : storeService.record (.executeRefund inp) db =
      ⟨db, (executeRefundActivity inp db).1, (executeRefundActivity inp db).2⟩ := rfl
  have hrun : ∀ {result db'}, (refundOrderRow inp.orderNumber inp.requestedBy inp.reason
      (refundIdempotencyKey inp.orderNumber)).run db = .ok (some result, db') →
      result.reason ≠ some "order_not_delivered" → executeRefundActivity inp db =
        (.ok ⟨result.id, result.status, amountText result.amount, result.refunded, result.reason⟩, db') := by
    intro result db' hok hreason
    simp [executeRefundActivity, inTransaction, hok, hreason]
  rw [hrecord]
  generalize hresult : (refundOrderRow inp.orderNumber inp.requestedBy inp.reason
    (refundIdempotencyKey inp.orderNumber)).run db = out at hout
  cases hout with
  | missing hmissing => exact absurd (hmissing.symm.trans hfind) (by simp)
  | alreadyRefunded q r _ hr hid =>
    rw [hrun hresult (by simp)]
    exact PaysOrReports.unlessRefused (.reports r hr hid rfl rfl) fun hrefuses => hrefuses.1 r hr hid
  | notDelivered q hfind' hnone hst =>
    obtain rfl := Option.some.inj (hfind.symm.trans hfind')
    rcases hcase with hdelivered | ⟨row, hrow, hid⟩
    · exact absurd hdelivered hst
    · exact absurd hid (hnone row hrow)
  | settled q amount hfind' hnone hst hamount hkey hcheck =>
    rw [hrun hresult (by simp)]
    refine PaysOrReports.unlessRefused (.pays q amount hfind' hst hamount (by rw [hamount]) rfl) ?_
    rintro ⟨-, hreason | ⟨r, hr, hrkey⟩⟩
    · rw [Database.storable_of_checkRefund hcheck] at hreason
      cases hreason
    · exact hkey r hr hrkey
  | failed q e hfind' hnone hst he =>
    have hactivity : executeRefundActivity inp db = (.error (.databaseError e), db) := by
      simp [executeRefundActivity, inTransaction, hresult, refundOrderRow_rolledBack]
    rw [hactivity]
    refine .of_databaseError rfl rfl ⟨hnone, ?_⟩
    by_contra hfree
    simp only [not_or, Bool.not_eq_false, not_exists, not_and] at hfree
    obtain ⟨row, hrow⟩ := h.exists_checkRefund hfind' hnone hfree.1 hfree.2
    exact absurd (hrow.symm.trans he) (by simp)

end Executions

section Runs

variable {events : List StoreServiceEvent} {s : OrderSystem} {r : OrderRun} {inp : OrderActionInput}

/-- A load that found the order delivered found it payable. -/
theorem payable_of_loaded {evolves : Database → Database → Prop} {db : Database} {load : LoadRecord}
    {order : LoadedOrder} (hload : Recorded storeService PayableTables evolves db (a := .loadRefundOrder inp) load)
    (hreply : load.reply = .ok order) (hdelivered : order.status = .delivered) :
    load.after = load.before ∧ load.before.Payable inp.orderNumber inp.requestedBy := by
  have hsound : Recorded orderService StoreSound evolves db (a := .loadRefundOrder inp) load :=
    ⟨hload.performed, hload.inv.toStoreSound, hload.step, hload.since⟩
  obtain ⟨hafter, hout⟩ := loaded_of_recorded hsound
  rw [hreply] at hout
  cases hout with
  | loaded o hfind => exact ⟨hafter, o, hfind, .inl hdelivered⟩

/-- In every state that is reached from the first start of the process while anyone calls the order functions with any
arguments and fulfilment moves orders: an execution of a refund by any run follows a load of the run that found the
order delivered, and finds the order and may refund it; it pays the order or reports its refunds row unless the
database refuses the row, and then it changes nothing. -/
theorem payable_stays_payable
    (hrun : runFrom storeService.step (System.initial (initializeDatabase .empty)) events = some s)
    (hr : r ∈ s.runs) {record : ExecuteRecord} (hdid : r.Did (.executeRefund inp) record) :
    (∃ (load : LoadRecord) (order : LoadedOrder), r.Acknowledged (.loadRefundOrder inp) load ∧
      load.reply = .ok order ∧ order.status = .delivered) ∧ PaysUnlessRefused inp record := by
  have hseeded := programTables_seeded.toPayableTables
  constructor
  · obtain ⟨order, hcleared⟩ := cleared_of_storeRun hrun hr hdid
    obtain ⟨load, hack, hreply⟩ := (hcleared.loaded order).mpr rfl
    exact ⟨load, order, hack, hreply, hcleared.delivered⟩
  · obtain ⟨before, e, after, mid, next, r', rfl, hbefore, hstep, hr', hdid', rfl⟩ :=
      exists_moment_of_did hrun hr hdid
    have hnext : runFrom storeService.step (System.initial (initializeDatabase .empty)) (before ++ [e]) = some next :=
      (runFrom_append_eq_some _).mpr ⟨mid, hbefore, (runFrom_singleton _ _ _).trans hstep⟩
    have hsound := sound_of_storeRun hseeded hbefore
    have hsoundNext := sound_of_storeRun hseeded hnext
    obtain ⟨order, hcleared⟩ := cleared_of_storeRun hnext hr' hdid'
    obtain ⟨load, hack, hreply⟩ := (hcleared.loaded order).mpr rfl
    obtain ⟨-, hpayable⟩ :=
      payable_of_loaded (hsoundNext.did r' hr' (.loadRefundOrder inp) load hack.did) hreply hcleared.delivered
    refine hsound.db.execution ?_
    -- the load was executed before this event, or finds the same database
    rcases did_of_step hstep hr' hack.did with ⟨q, hq, hearlier⟩ | ⟨hload, -⟩
    · have hrecorded := hsound.did q hq (.loadRefundOrder inp) load hearlier
      obtain ⟨hafter, hfound⟩ := payable_of_loaded hrecorded hreply hcleared.delivered
      exact hrecorded.since.payable _ _ (hafter ▸ hfound)
    · have hsame : load.before = mid.db := congrArg Record.before hload
      rwa [hsame] at hpayable

/-- The execution of a refund that a run has in flight. -/
def OrderRun.executing? (r : OrderRun) : Option (OrderActionInput × ExecuteRecord) :=
  match r.stage with
  | .awaiting (.executeRefund inp) _ _ (some record) => some (inp, record)
  | _ => none

/-- It is one that the run has done. -/
theorem did_of_executing {record : ExecuteRecord} (h : OrderRun.executing? r = some (inp, record)) :
    r.Did (.executeRefund inp) record := by
  unfold OrderRun.executing? at h
  split at h
  case h_1 inp' next number record' hstage =>
    obtain ⟨rfl, rfl⟩ := Prod.mk.inj (Option.some.inj h)
    exact ⟨⟨.executeRefund inp', number, .inFlight, some record'⟩,
      List.mem_append_right _ (by simp [hstage, Stage.current]), rfl⟩
  case h_2 => cases h

open RefundWorkflow

/-- The refund of the seeded order 5, which is delivered and is of 98.00, up to its execution, before which something
else happens. -/
def refundFiveAfter (e : StoreEvent) : List StoreServiceEvent :=
  [.start "refund-order-5" (.refund refundOrderFive), .run 0 .begin, .run 0 .execute, .run 0 .report, .outside e,
    .run 0 .execute]

/-- After a restart of the process the execution pays the order. -/
theorem payable_stays_payable_order_five :
    ∃ s r record, runFrom storeService.step (System.initial (initializeDatabase .empty)) (refundFiveAfter .restart) =
        some s ∧ r ∈ s.runs ∧ r.Did (.executeRefund refundOrderFive) record ∧
      record.reply = .ok ⟨5, .refunded, "98.00", true, none⟩ ∧ PaysUnlessRefused refundOrderFive record := by
  have hcomputed : (runFrom storeService.step (System.initial (initializeDatabase .empty))
      (refundFiveAfter .restart)).map (fun s => (s.runs[0]?).map fun r =>
        (OrderRun.executing? r).map fun x => (x.1, x.2.reply)) =
        some (some (some (refundOrderFive, .ok ⟨5, .refunded, "98.00", true, none⟩))) := by
    rw [initializeDatabase_empty]
    decide +kernel
  obtain ⟨s, hrun, hruns⟩ := Option.map_eq_some_iff.mp hcomputed
  obtain ⟨r, hr, hexecuting⟩ := Option.map_eq_some_iff.mp hruns
  obtain ⟨⟨inp, record⟩, hx, hpair⟩ := Option.map_eq_some_iff.mp hexecuting
  obtain ⟨rfl, hreply⟩ := Prod.mk.inj hpair
  have hdid := did_of_executing hx
  have hmem := List.mem_of_getElem? hr
  exact ⟨s, r, record, hrun, hmem, hdid, hreply, (payable_stays_payable hrun hmem hdid).2⟩

/-- A refund of order 19 with the key of order 5, and the execution is refused: it neither pays the order nor reports
that it has been paid. -/
theorem payable_stays_payable_key_taken :
    ∃ s r record, runFrom storeService.step (System.initial (initializeDatabase .empty))
        (refundFiveAfter (.refund 19 "CUS-019" "damaged" (refundIdempotencyKey 5))) = some s ∧ r ∈ s.runs ∧
      r.Did (.executeRefund refundOrderFive) record ∧
      (∃ (load : LoadRecord) (order : LoadedOrder), r.Acknowledged (.loadRefundOrder refundOrderFive) load ∧
        load.reply = .ok order ∧ order.status = .delivered) ∧
      record.reply = .error (.databaseError (.uniqueViolation "refunds_idempotency_key_key")) ∧
      ¬ PaysOrReports refundOrderFive record := by
  have hcomputed : (runFrom storeService.step (System.initial (initializeDatabase .empty))
      (refundFiveAfter (.refund 19 "CUS-019" "damaged" (refundIdempotencyKey 5)))).map (fun s =>
        (s.runs[0]?).map fun r => (OrderRun.executing? r).map fun x => (x.1, x.2.reply)) =
        some (some (some (refundOrderFive,
          .error (.databaseError (.uniqueViolation "refunds_idempotency_key_key"))))) := by
    rw [initializeDatabase_empty]
    decide +kernel
  obtain ⟨s, hrun, hruns⟩ := Option.map_eq_some_iff.mp hcomputed
  obtain ⟨r, hr, hexecuting⟩ := Option.map_eq_some_iff.mp hruns
  obtain ⟨⟨inp, record⟩, hx, hpair⟩ := Option.map_eq_some_iff.mp hexecuting
  obtain ⟨rfl, hreply⟩ := Prod.mk.inj hpair
  have hdid := did_of_executing hx
  have hmem := List.mem_of_getElem? hr
  obtain ⟨order, hcleared⟩ := cleared_of_storeRun hrun hmem hdid
  obtain ⟨load, hack, hloaded⟩ := (hcleared.loaded order).mpr rfl
  refine ⟨s, r, record, hrun, hmem, hdid, ⟨load, order, hack, hloaded, hcleared.delivered⟩, hreply, fun hpays => ?_⟩
  cases hpays with
  | pays _ _ _ _ _ hreply' _ => exact absurd (hreply.symm.trans hreply') (by simp)
  | reports _ _ _ hreply' _ => exact absurd (hreply.symm.trans hreply') (by simp)

end Runs

end Agentops
