import Agentops.Foundations.Refinement
import Agentops.Workflow.Amounts

/-!
# What retries and restarts leave behind

An activity may be executed again although an earlier attempt has committed, and any number of runs may ask for one
order. An order still is cancelled or refunded by one execution at most, and this execution alone says so. A restart
writes the tables again, which changes nothing in tables that a process has written before.
-/

namespace Agentops

open DurableExecution LabelledRun

/-- The reply says that the order is now cancelled or refunded by this execution. -/
def OrderActivity.saysDone : (a : OrderActivity) → Except Failure a.Reply → Bool
  | .cancelOrder _, .ok result => result.cancelled
  | .executeRefund _, .ok result => result.refunded
  | _, _ => false

/-- The order that an activity is about. -/
def OrderActivity.orderNumber : OrderActivity → ℤ
  | .cancelOrder input => input.orderNumber
  | .loadRefundOrder input => input.orderNumber
  | .executeRefund input => input.orderNumber

/-- In this event a run executes the activity, and the reply says that the order is now cancelled or refunded. -/
structure Reports (s : OrderSystem) (e : OrderEvent) (s' : OrderSystem) (a : OrderActivity) : Prop where
  event : ∃ i e' r', e = .run i e' ∧ s'.runs[i]? = some r' ∧ r'.Did a (orderService.record a s.db)
  performed : s'.db = (a.perform s.db).2
  done : a.saysDone (a.perform s.db).1 = true

section Effects

variable {db : Database}

/-- Two orders of one number on a database that has come about from another. -/
theorem Database.Evolves.phase_le {db db' : Database} (h : db.Evolves db')
    (hkey : KeyedTable.Unique Order.id db'.orders) {o o' : Order} (ho : o ∈ db.orders) (ho' : o' ∈ db'.orders)
    (hid : o.id = o'.id) : o.status.phase ≤ o'.status.phase := by
  obtain ⟨q, hq, hbecomes⟩ := h.orders o ho
  rw [hkey.eq_of_key_eq ho' hq (hid.symm.trans hbecomes.id.symm)]
  exact hbecomes.phase

/-- An execution finds the order open and leaves it closed, or changes nothing. -/
inductive Closes (db : Database) (n : ℤ) (db' : Database) : Bool → Prop
  | nothing (h : db' = db) : Closes db n db' false
  | closed (o o' : Order) (ho : o ∈ db.orders) (hid : o.id = n)
      (hopen : o.status.phase = .inFulfilment ∨ o.status.phase = .delivered) (ho' : o' ∈ db'.orders)
      (hid' : o'.id = n) (hclosed : o'.status = .cancelled ∨ o'.status = .refunded) : Closes db n db' true

/-- The row of an order after its status has been set. -/
theorem Database.mem_setOrderStatus {o : Order} (ho : o ∈ db.orders) (st : OrderStatus) :
    { o with status := st } ∈ (db.setOrderStatus o.id st).orders :=
  KeyedTable.mem_update.mpr ⟨o, ho, if_pos rfl⟩

/-- What an execution does is what its reply says. -/
theorem OrderActivity.closes (a : OrderActivity) (h : StoreSound db) :
    Closes db a.orderNumber (a.perform db).2 (a.saysDone (a.perform db).1) := by
  cases a with
  | cancelOrder input =>
    obtain ⟨result, db', hrun, hout⟩ := cancelOrderActivity_outcome db input
    simp only [OrderActivity.perform, hrun, OrderActivity.saysDone, OrderActivity.orderNumber]
    cases hout with
    | missing _ => exact .nothing rfl
    | refused o _ _ => exact .nothing rfl
    | done o hfind hst =>
      obtain ⟨ho, hid, -⟩ := Database.findOrder_eq_some hfind
      exact .closed o { o with status := .cancelled } ho hid (.inl (OrderStatus.mem_cancellable_iff.mp hst))
        (hid ▸ Database.mem_setOrderStatus ho .cancelled) hid (.inl rfl)
  | loadRefundOrder input =>
    have hsame := loadRefundOrderActivity_unchanged db input
    exact .nothing hsame
  | executeRefund input =>
    have hout := executeRefundActivity_outcome h input
    simp only [OrderActivity.perform, OrderActivity.orderNumber]
    generalize executeRefundActivity input db = out at hout ⊢
    cases hout with
    | settled o amount hfind _ hst _ _ =>
      obtain ⟨ho, hid, -⟩ := Database.findOrder_eq_some hfind
      have hmem : { o with status := .refunded } ∈
          (db.settle input.orderNumber amount input.reason (refundIdempotencyKey input.orderNumber)).orders :=
        hid ▸ Database.mem_setOrderStatus ho .refunded
      exact .closed o _ ho hid (.inr (by rw [hst]; rfl)) hmem hid (.inr rfl)
    | _ => exact .nothing rfl

/-- An order that is cancelled or refunded is not open again later. -/
theorem Phase.not_open_of_closed {st st' : OrderStatus} (h : st = .cancelled ∨ st = .refunded)
    (hle : st.phase ≤ st'.phase) : ¬ (st'.phase = .inFulfilment ∨ st'.phase = .delivered) := by
  rcases h with rfl | rfl <;> cases st' <;> revert hle <;> decide

variable {events : List OrderEvent} {s t u v : OrderSystem} {e e' : OrderEvent}

/-- Two executions that say they have cancelled or refunded an order, whatever happens in between, are about two
orders. -/
theorem Reports.orderNumber_ne (hs : StoreSound s.db) (ht : Sound orderService StoreSound Database.Evolves t)
    {a a' : OrderActivity} (h : Reports s e t a) {between : List OrderEvent}
    (hbetween : runFrom orderService.step t between = some u) (h' : Reports u e' v a') :
    a.orderNumber ≠ a'.orderNumber := by
  intro hsame
  have hlater := runFrom_invariant orderService.step
    (fun mid => Sound orderService StoreSound Database.Evolves mid ∧ t.db.Evolves mid.db)
    (fun mid x next hmid hstep => by
      have hmove := hmid.1.step orderService_guarantee hstep x.admissible_of_all
      exact ⟨hmove.1, hmid.2.trans hmove.2⟩) hbetween ⟨ht, .refl _⟩
  have hfirst := a.closes hs
  have hsecond := a'.closes hlater.1.db
  rw [h.done, ← h.performed] at hfirst
  rw [h'.done] at hsecond
  cases hfirst with
  | closed o o₁ _ _ _ ho₁ hid₁ hclosed =>
    cases hsecond with
    | closed o₂ _ ho₂ hid₂ hopen _ _ _ =>
      have hle := hlater.2.phase_le hlater.1.db.schema.ordersKey ho₁ ho₂ (hid₁.trans (hsame.trans hid₂.symm))
      exact Phase.not_open_of_closed hclosed hle hopen

/-- An execution says that it has cancelled or refunded its order exactly if it has changed the tables. -/
theorem OrderActivity.saysDone_iff (a : OrderActivity) (h : StoreSound db) :
    a.saysDone (a.perform db).1 = true ↔ (a.perform db).2 ≠ db := by
  have hcloses := a.closes h
  generalize a.saysDone (a.perform db).1 = said at hcloses ⊢
  cases hcloses with
  | nothing hsame => simp [hsame]
  | closed o o' ho hid hopen ho' hid' hclosed =>
    refine iff_of_true rfl ?_
    intro hsame
    rw [hsame] at ho'
    rw [h.schema.ordersKey.eq_of_key_eq ho' ho (hid'.trans hid.symm)] at hclosed
    exact Phase.not_open_of_closed hclosed le_rfl hopen

/-- In every run of the workflows, with any lost acknowledgements, retries and further runs: what a run changes in the
tables is the work of one execution, whose reply says that it has cancelled or refunded its order. Such a reply is true,
and no execution before or after, in whatever run, gives it for the same order. -/
theorem effects_reported_once (hdb : StoreSound db)
    (hrun : runFrom orderService.step (System.initial db) events = some s) (hstep : orderService.step s e = some t) :
    (∀ i e', e = .run i e' → t.db ≠ s.db → ∃ a, Reports s e t a) ∧
    ∀ a, Reports s e t a → t.db ≠ s.db ∧
      ∀ between u e' v a', runFrom orderService.step t between = some u → Reports u e' v a' →
        a.orderNumber ≠ a'.orderNumber := by
  have hsound := sound_of_run hdb hrun
  constructor
  · rintro i e' rfl hne
    rcases exists_execution_of_change hstep hne with ⟨x, hx, -⟩ | ⟨j, e'', r, r', a, he, -, hr', -, hdid, hdb'⟩
    · cases hx
    · refine ⟨a, ⟨j, e'', r', he, hr', hdid⟩, hdb', (a.saysDone_iff hsound.db).mpr ?_⟩
      exact hdb' ▸ hne
  · intro a hreports
    refine ⟨?_, ?_⟩
    · rw [hreports.performed]
      exact (a.saysDone_iff hsound.db).mp hreports.done
    · intro between u e' v a' hbetween hreports'
      exact hreports.orderNumber_ne hsound.db (hsound.step orderService_guarantee hstep e.admissible_of_all).1 hbetween
        hreports'

open RefundWorkflow in
/-- The refund of order 5 is loaded, and next it will be executed. -/
def refundFiveLoaded : List OrderEvent :=
  [.start "refund-order-5" (.refund refundOrderFive), .run 0 .begin, .run 0 .execute, .run 0 .report]

open RefundWorkflow in
theorem effects_reported_once_order_five :
    ∃ s t a, runFrom orderService.step (System.initial orderOf98) refundFiveLoaded = some s ∧
      orderService.step s (.run 0 .execute) = some t ∧ Reports s (.run 0 .execute) t a ∧
      ∀ between u e' v a', runFrom orderService.step t between = some u → Reports u e' v a' →
        a.orderNumber ≠ a'.orderNumber := by
  obtain ⟨s, t, row, r, inp, hrun, hstep, hinserts, -⟩ := exists_inserts_of_first_row storeSound_orderOf98
    (show (runFrom orderService.step (System.initial orderOf98) refundFiveLoaded).map
      (fun s => s.db.refunds) = some [] by decide +kernel)
    (show (runFrom orderService.step (System.initial orderOf98) (refundFiveLoaded ++ [.run 0 .execute])).map
      (fun s => s.db.refunds.map fun row => row.amount.cents) = some [9800] by decide +kernel)
  obtain ⟨hchanged, honce⟩ := effects_reported_once storeSound_orderOf98 hrun hstep
  have hne : t.db ≠ s.db := by
    intro hsame
    have hrefunds := hinserts.inserted
    simp [hsame] at hrefunds
  obtain ⟨a, hreports⟩ := hchanged 0 .execute rfl hne
  exact ⟨s, t, a, hrun, hstep, hreports, (honce a hreports).2⟩

end Effects

section Restarts

/-- The tables have the seeded rows, and the sequence is at the greatest number. -/
structure Database.Initialized (db : Database) : Prop where
  products : ∀ p ∈ seedProducts, p.sku ∈ db.products.map Product.sku
  orders : ∀ o ∈ seedOrders, o.id ∈ db.orders.map Order.id
  sequence : (db.orders.map Order.id).max? = some db.ordersSeq

variable {db db' : Database}

/-- Writing such tables again does nothing. -/
theorem Database.Initialized.initializeDatabase_eq (h : db.Initialized) : initializeDatabase db = db := by
  have hseed : db.seed seedProducts seedOrders = db := by
    unfold Database.seed
    rw [KeyedTable.foldl_insertIgnore_of_mem Product.sku h.products,
      KeyedTable.foldl_insertIgnore_of_mem Order.id h.orders]
  rw [initializeDatabase, hseed, Database.resetSequence_of_max h.sequence]

/-- Seeded rows are there afterwards. -/
theorem Database.mem_seed (db : Database) (products : List Product) (orders : List Order) :
    (∀ p ∈ products, p.sku ∈ (db.seed products orders).products.map Product.sku) ∧
      ∀ o ∈ orders, o.id ∈ (db.seed products orders).orders.map Order.id :=
  ⟨fun _ hp => KeyedTable.key_mem_foldl_insertIgnore Product.sku hp,
    fun _ ho => KeyedTable.key_mem_foldl_insertIgnore Order.id ho⟩

/-- A start writes them. -/
theorem initialized_initializeDatabase (db : Database) : (initializeDatabase db).Initialized := by
  obtain ⟨hproducts, horders⟩ := db.mem_seed seedProducts seedOrders
  unfold initializeDatabase
  generalize db.seed seedProducts seedOrders = seeded at hproducts horders
  cases hmax : (seeded.orders.map Order.id).max? with
  | none =>
    have hfirst := horders (seedOrder 0) (List.mem_map_of_mem (by simp))
    exact absurd (List.max?_eq_none_iff.mp hmax) (List.ne_nil_of_mem hfirst)
  | some top =>
    rw [Database.resetSequence_of_max hmax]
    exact ⟨hproducts, horders, hmax⟩

/-- What matters are the keys and the sequence. -/
theorem Database.Initialized.congr (h : db.Initialized)
    (hproducts : db'.products.map Product.sku = db.products.map Product.sku)
    (horders : db'.orders.map Order.id = db.orders.map Order.id) (hseq : db'.ordersSeq = db.ordersSeq) :
    db'.Initialized := by
  refine ⟨?_, ?_, ?_⟩
  · rw [hproducts]
    exact h.products
  · rw [horders]
    exact h.orders
  · rw [horders, hseq]
    exact h.sequence

/-- A change of status keeps the tables initialized. -/
theorem Database.Initialized.setOrderStatus (h : db.Initialized) (n : ℤ) (st : OrderStatus) :
    (db.setOrderStatus n st).Initialized := by
  let change := fun o : Order => { o with status := st }
  have hids : (KeyedTable.update Order.id n change db.orders).map Order.id = db.orders.map Order.id := by
    apply KeyedTable.map_key_update
    exact fun _ => rfl
  exact h.congr rfl hids rfl

/-- So does a refund. -/
theorem Database.Initialized.settle (h : db.Initialized) (n : ℤ) (amount : Money) (reason key : String) :
    (db.settle n amount reason key).Initialized := by
  have hinserted : ({ db with refunds := db.refunds ++ [⟨n, amount, reason, key⟩] } : Database).Initialized :=
    h.congr rfl rfl rfl
  exact hinserted.setOrderStatus n .refunded

/-- In such tables an order of a product that is there can be created in every admissible quantity. -/
theorem Database.Initialized.exists_checkNumbered (h : db.Initialized) {quantity : ℤ}
    (hquantity : 1 ≤ quantity ∧ quantity ≤ 10) {sku : String} (hsku : sku ∈ db.products.map Product.sku)
    (c now : String) : ∃ row, db.checkNumbered (db.ordersSeq + 1) c sku quantity now = .ok row := by
  obtain ⟨-, hgreatest⟩ := List.max?_eq_some_iff.mp h.sequence
  have hid : db.ordersSeq + 1 ∉ db.orders.map Order.id := fun hmem => by
    have hle := hgreatest _ hmem
    omega
  refine ⟨⟨db.ordersSeq + 1, c, sku, ⟨quantity.toNat, by omega, by omega⟩, .pending, now⟩, ?_⟩
  simp only [Database.checkNumbered, Quantity.ofInt?, dif_pos hquantity]
  rw [if_neg hid, if_neg (not_not.mpr hsku)]

/-- The store keeps them as long as no number is drawn in vain. -/
theorem Database.Initialized.storeStep (h : db.Initialized) (hschema : db.Schema) (e : StoreEvent)
    (hdrawn : ¬ e.MayWaste db) (hstep : Agentops.storeStep db e = some db') : db'.Initialized := by
  cases storeStep_moves hschema hstep with
  | unchanged _ => exact h
  | created c sku quantity now row hrow =>
    obtain ⟨hid, -⟩ := Database.checkOrder_eq_ok hrow
    obtain ⟨htop, hgreatest⟩ := List.max?_eq_some_iff.mp h.sequence
    refine ⟨h.products, ?_, List.max?_eq_some_iff.mpr ⟨by simp, ?_⟩⟩
    · intro o ho
      rw [List.map_append]
      exact List.mem_append_left _ (h.orders o ho)
    · intro n hn
      rw [List.map_append] at hn
      rcases List.mem_append.mp hn with hold | hnew
      · have hle := hgreatest n hold
        change n ≤ row.id
        omega
      · exact le_of_eq (by simpa using hnew)
  | cancelled n c o _ _ => exact h.setOrderStatus n .cancelled
  | refunded n c reason key o amount _ _ _ _ _ => exact h.settle n amount reason key
  | drawn e k hwastes => exact absurd hwastes hdrawn
  | restarted => exact initialized_initializeDatabase db
  | fulfilled o st _ _ => exact h.setOrderStatus o.id st

/-- So do the activities. -/
theorem Database.Initialized.perform (h : db.Initialized) (hs : StoreSound db) (a : OrderActivity) :
    (a.perform db).2.Initialized := by
  cases a with
  | cancelOrder input =>
    obtain ⟨result, db', hrun, hout⟩ := cancelOrderActivity_outcome db input
    simp only [OrderActivity.perform, hrun]
    cases hout with
    | missing _ => exact h
    | refused _ _ _ => exact h
    | done o _ _ => exact h.setOrderStatus input.orderNumber .cancelled
  | loadRefundOrder input =>
    simp only [OrderActivity.perform, loadRefundOrderActivity_unchanged]
    exact h
  | executeRefund input =>
    have hout := executeRefundActivity_outcome hs input
    simp only [OrderActivity.perform]
    generalize executeRefundActivity input db = out at hout ⊢
    cases hout with
    | settled o amount _ _ _ _ _ => exact h.settle _ amount _ _
    | _ => exact h

/-- No number is drawn from the sequence in vain: no transaction is lost that has drawn one, and orders are created in
the quantities that the API admits. -/
def Outside.DrawsNothing : Outside → Prop
  | .rolledBack _ => False
  | .createOrder _ _ quantity _ => 1 ≤ quantity ∧ quantity ≤ 10
  | _ => True

/-- Such an outside change takes nothing from the tables. -/
theorem Database.Initialized.outside (h : db.Initialized) (hs : StoreSound db) {x : Outside} (hx : x.DrawsNothing)
    (hchange : x.change db = some db') : db'.Initialized := by
  by_cases hkeeps : x.KeepsPrices
  · cases x with
    | rolledBack drawn => exact absurd hx id
    | setPrice sku price => exact absurd hkeeps id
    | createOrder c sku quantity now =>
      refine h.storeStep hs.schema (.create c sku quantity now) ?_ hchange
      rintro ⟨hsku, -, e, hfails⟩
      obtain ⟨row, hrow⟩ := h.exists_checkNumbered hx hsku c now
      exact absurd (hrow.symm.trans hfails) (by simp)
    | restart => exact h.storeStep hs.schema .restart id hchange
    | fulfil n st => exact h.storeStep hs.schema (.fulfil n st) id hchange
  · cases x with
    | setPrice sku price =>
      obtain rfl := Option.some.inj hchange
      let raise := fun p : Product => { p with price := price }
      have hskus : (KeyedTable.update Product.sku sku raise db.products).map Product.sku =
          db.products.map Product.sku := by
        apply KeyedTable.map_key_update
        exact fun _ => rfl
      exact h.congr hskus rfl rfl
    | _ => exact absurd trivial hkeeps

/-- Whatever else happens, the tables stay as a process writes them. -/
theorem orderService_guarantee_initialized :
    Guarantee orderService Outside.DrawsNothing (fun db => StoreSound db ∧ db.Initialized) fun _ _ => True where
  refl _ := trivial
  trans _ _ _ _ _ := trivial
  perform a _ h := ⟨⟨(a.safe h.1).sound, h.2.perform h.1 a⟩, trivial⟩
  outside _ _ _ hx h hchange := ⟨⟨(Outside.sound h.1 hchange).1, h.2.outside h.1 hx hchange⟩, trivial⟩

/-- A restart of the process. -/
def OrderEvent.isRestart : OrderEvent → Bool
  | .outside .restart => true
  | _ => false

/-- Restarts leave no trace as long as no order number is drawn in vain: however often and whenever the process is
started again while workflows run, are retried and are answered, the same run without the restarts ends with the same
tables, runs and messages. -/
theorem restarts_leave_no_trace {start : Database} (hstart : StoreSound start) {events : List OrderEvent}
    {s : OrderSystem} (hdrawn : ∀ e ∈ events, e.Admissible Outside.DrawsNothing)
    (hrun : runFrom orderService.step (System.initial (initializeDatabase start)) events = some s) :
    runFrom orderService.step (System.initial (initializeDatabase start))
      (events.filter fun e => !OrderEvent.isRestart e) = some s := by
  have hsound := (safe_initializeDatabase hstart).sound
  have htables := initialized_initializeDatabase start
  generalize initializeDatabase start = db at hsound htables hrun ⊢
  have hinitial : Sound orderService (fun db => StoreSound db ∧ db.Initialized) (fun _ _ => True)
      (System.initial db) := .initial ⟨hsound, htables⟩
  refine runFrom_filter (fun s e s' hallowed h hstep => ?_) (fun s e s' h hidle hstep => ?_) hdrawn hinitial hrun
  · exact (h.step orderService_guarantee_initialized hstep hallowed).1
  · unfold OrderEvent.isRestart at hidle
    split at hidle
    · cases orderService.step_changes hstep with
      | outside x db' hchange =>
        have hsame : db' = s.db := (Option.some.inj hchange).symm.trans h.db.2.initializeDatabase_eq
        rw [hsame]
    · cases hidle

/-- The process is started again before and while the refund of order 5 is loaded. -/
def restartedTwice : List OrderEvent :=
  [.outside .restart, .start "refund-order-5" (.refund RefundWorkflow.refundOrderFive), .run 0 .begin,
    .outside .restart, .run 0 .execute]

theorem restarts_leave_no_trace_restartedTwice :
    ∃ s, runFrom orderService.step (System.initial (initializeDatabase .empty)) restartedTwice = some s ∧
      s.runs.length = 1 ∧
      runFrom orderService.step (System.initial (initializeDatabase .empty))
        [.start "refund-order-5" (.refund RefundWorkflow.refundOrderFive), .run 0 .begin, .run 0 .execute] =
          some s := by
  have hcomputed : (runFrom orderService.step (System.initial (initializeDatabase .empty)) restartedTwice).map
      (fun s => s.runs.length) = some 1 := by
    rw [initializeDatabase_empty]
    decide +kernel
  obtain ⟨s, hrun, hlength⟩ := Option.map_eq_some_iff.mp hcomputed
  have hdrawn : ∀ e ∈ restartedTwice, e.Admissible Outside.DrawsNothing := by
    simp [restartedTwice, Event.Admissible, Outside.DrawsNothing]
  have hfiltered : (restartedTwice.filter fun e => !OrderEvent.isRestart e) =
      [.start "refund-order-5" (.refund RefundWorkflow.refundOrderFive), .run 0 .begin, .run 0 .execute] := rfl
  have hsame := restarts_leave_no_trace storeInvariant_empty.toStoreSound hdrawn hrun
  rw [hfiltered] at hsame
  exact ⟨s, hrun, hlength, hsame⟩

end Restarts

end Agentops
