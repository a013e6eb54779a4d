import Agentops.Workflow.Executions

/-!
# The amount that is compared and the amount that is paid

The total is computed twice, when the order is loaded and when its refund is executed, from the
price of that moment. The two agree exactly when the price does, and while prices are left alone
it does.
-/

namespace Agentops

open DurableExecution LabelledRun

section Prices

namespace Database

/-- The price of a product. -/
def priceOf (db : Database) (sku : String) : Option Money :=
  (db.products.find? fun p => p.sku = sku).map Product.price

/-- The price of a product that is in the catalogue. -/
theorem Schema.priceOf_eq_some {db : Database} (h : db.Schema) {p : Product} (hp : p ∈ db.products) :
    db.priceOf p.sku = some p.price := by
  simp [priceOf, h.productsKey.find?_eq_some hp]

/-- An order's total is the price of its product times its quantity. -/
theorem Schema.total_eq {db : Database} (h : db.Schema) {o : Order} (ho : o ∈ db.orders) :
    ∃ price, db.priceOf o.productSku = some price ∧ db.total o = price.cents * o.quantity.value := by
  obtain ⟨p, hp, hsku⟩ := h.orderProduct o ho
  exact ⟨p.price, hsku ▸ h.priceOf_eq_some hp, Database.total_eq h.productsKey hp hsku⟩

/-- A product row that has not changed has the same price. -/
theorem PricesKept.priceOf_eq {db db' : Database} (h : db.PricesKept db') (hs : db.Schema)
    (hs' : db'.Schema) {o : Order} (ho : o ∈ db.orders) :
    db'.priceOf o.productSku = db.priceOf o.productSku := by
  obtain ⟨p, hp, hsku⟩ := hs.orderProduct o ho
  rw [← hsku, hs.priceOf_eq_some hp, hs'.priceOf_eq_some (h p hp)]

/-- Two databases of one history agree on an order's total when they agree on its price. -/
theorem Evolves.total_eq_iff {db db' now : Database} (h : db.Evolves now) (h' : db'.Evolves now)
    (hs : db.Schema) (hs' : db'.Schema) (hkey : KeyedTable.Unique Order.id now.orders) {n : ℤ}
    {c : String} {o o' : Order} (ho : db.findOrder n c = some o) (ho' : db'.findOrder n c = some o') :
    db'.total o' = db.total o ↔ db'.priceOf o.productSku = db.priceOf o.productSku := by
  -- both orders become the one that is there now
  obtain ⟨q, hq, hbecomes⟩ := h.findOrder hkey ho
  obtain ⟨q', hq', hbecomes'⟩ := h'.findOrder hkey ho'
  obtain rfl := Option.some.inj (hq.symm.trans hq')
  have hsku : o'.productSku = o.productSku := hbecomes'.productSku.symm.trans hbecomes.productSku
  have hquantity : o'.quantity = o.quantity := hbecomes'.quantity.symm.trans hbecomes.quantity
  obtain ⟨price, hprice, htotal⟩ := hs.total_eq (findOrder_eq_some ho).1
  obtain ⟨price', hprice', htotal'⟩ := hs'.total_eq (findOrder_eq_some ho').1
  rw [hsku] at hprice'
  rw [hprice, hprice', htotal, htotal', hquantity, Option.some.injEq,
    Nat.mul_left_inj (by have := o.quantity.atLeastOne; omega)]
  exact ⟨fun hcents => Money.ext hcents, fun heq => heq ▸ rfl⟩

end Database

end Prices

namespace RefundWorkflow

section Loaded

variable {s : OrderSystem} {r : OrderRun} {inp : OrderActionInput} {order : LoadedOrder}

/-- A text of the database needs approval when it is of more than 200. -/
theorem needsApproval_iff {cents : ℕ} (h : order.amount = amountText cents) :
    NeedsApproval order ↔ 20000 < cents := by
  constructor
  · rintro ⟨amount, hread, hlt⟩
    rw [h, ofString?_amountText, Option.some.injEq] at hread
    exact (refundApprovalThreshold_lt cents).mp (hread ▸ hlt)
  · intro hlt
    exact ⟨_, h ▸ ofString?_amountText cents, (refundApprovalThreshold_lt cents).mpr hlt⟩

/-- What a run was given describes the order on the database of some acknowledged load. -/
theorem LoadedAs.recorded {inv : Database → Prop} {evolves : Database → Database → Prop}
    (h : LoadedAs inp r order) (hsound : Sound orderService inv evolves s) (hr : r ∈ s.runs) :
    ∃ record : LoadRecord, record.reply = .ok order ∧ r.Acknowledged (.loadRefundOrder inp) record ∧
      Recorded orderService inv evolves s.db (a := .loadRefundOrder inp) record :=
  have ⟨record, hack, hreply⟩ := (h order).mpr rfl
  ⟨record, hreply, hack, hsound.did r hr _ record hack.did⟩

/-- This database has the price that the load found which the run was told of. -/
def PriceHeld (inp : OrderActionInput) (r : OrderRun) (db : Database) : Prop :=
  ∀ load : LoadRecord, r.Acknowledged (.loadRefundOrder inp) load →
    ∀ o, load.before.findOrder inp.orderNumber inp.requestedBy = some o →
      db.priceOf o.productSku = load.before.priceOf o.productSku

/-- The one load that a run was told of found the total that the run was told. -/
theorem LoadedAs.amount_of_acknowledged (h : LoadedAs inp r order)
    (hsound : Sound orderService StoreSound Database.Evolves s) (hr : r ∈ s.runs) {load : LoadRecord}
    (hack : r.Acknowledged (.loadRefundOrder inp) load) {o : Order}
    (hfind : load.before.findOrder inp.orderNumber inp.requestedBy = some o) :
    Recorded orderService StoreSound Database.Evolves s.db (a := .loadRefundOrder inp) load ∧
      order.amount = amountText (load.before.total o) := by
  have hrecorded := hsound.did r hr (.loadRefundOrder inp) load hack.did
  obtain ⟨-, hout⟩ := loaded_of_recorded hrecorded
  generalize hreply : load.reply = reply at hout
  cases hout with
  | missing hnone => exact absurd (hnone.symm.trans hfind) (by simp)
  | loaded o₁ hfind₁ =>
    obtain rfl := Option.some.inj (hfind.symm.trans hfind₁)
    have hsame := (h _).mp ⟨load, hack, hreply⟩
    exact ⟨hrecorded, by rw [← hsame]⟩

/-- A run that was told of an order has heard of a load that found it. -/
theorem LoadedAs.exists_found (h : LoadedAs inp r order)
    (hsound : Sound orderService StoreSound Database.Evolves s) (hr : r ∈ s.runs) :
    ∃ (load : LoadRecord) (o : Order), r.Acknowledged (.loadRefundOrder inp) load ∧
      load.before.findOrder inp.orderNumber inp.requestedBy = some o := by
  obtain ⟨load, hreply, hack, hrecorded⟩ := h.recorded hsound hr
  obtain ⟨-, hout⟩ := loaded_of_recorded hrecorded
  rw [hreply] at hout
  cases hout with
  | loaded o hfind => exact ⟨load, o, hack, hfind⟩

/-- On a database of its history a run's order has the total that the run was told exactly when the
database has the price of the load. -/
theorem LoadedAs.amount_eq_iff (h : LoadedAs inp r order)
    (hsound : Sound orderService StoreSound Database.Evolves s) (hr : r ∈ s.runs) {db : Database}
    (hdb : db.Schema) (hsince : db.Evolves s.db) {o : Order}
    (hfind : db.findOrder inp.orderNumber inp.requestedBy = some o) :
    order.amount = amountText (db.total o) ↔ PriceHeld inp r db := by
  have htotal : ∀ (load : LoadRecord) (o₀ : Order), r.Acknowledged (.loadRefundOrder inp) load →
      load.before.findOrder inp.orderNumber inp.requestedBy = some o₀ →
      (order.amount = amountText (db.total o) ↔
        db.priceOf o₀.productSku = load.before.priceOf o₀.productSku) := by
    intro load o₀ hack hfind₀
    obtain ⟨hload, htext⟩ := h.amount_of_acknowledged hsound hr hack hfind₀
    rw [htext, amountText_injective.eq_iff, eq_comm]
    exact (hload.step.trans hload.since).total_eq_iff hsince hload.inv.schema hdb
      hsound.db.schema.ordersKey hfind₀ hfind
  constructor
  · intro hamount load hack o₀ hfind₀
    exact (htotal load o₀ hack hfind₀).mp hamount
  · intro hheld
    obtain ⟨load, o₀, hack, hfind₀⟩ := h.exists_found hsound hr
    exact (htotal load o₀ hack hfind₀).mpr (hheld load hack o₀ hfind₀)

end Loaded

section PricesAlone

variable {db : Database} {events : List OrderEvent} {s : OrderSystem} {r : OrderRun}
  {inp : OrderActionInput}

/-- While prices are left alone, the present database has the price of every load. -/
theorem priceHeld_of_run (inp : OrderActionInput) (hdb : StoreSound db)
    (hallowed : ∀ e ∈ events, e.Admissible Outside.KeepsPrices)
    (hrun : runFrom orderService.step (System.initial db) events = some s) (hr : r ∈ s.runs) :
    PriceHeld inp r s.db := by
  intro load hack o hfind
  have hsound := soundPriced_of_run hdb hallowed hrun
  have hrecorded := hsound.did r hr (.loadRefundOrder inp) load hack.did
  have hsince := hrecorded.since
  rw [(loaded_of_recorded hrecorded).1] at hsince
  exact hsince.prices.priceOf_eq hrecorded.inv.schema hsound.db.schema
    (Database.findOrder_eq_some hfind).1

/-- And so a run was told the total that its order still has. -/
theorem LoadedAs.amount_eq {order : LoadedOrder} (h : LoadedAs inp r order) (hdb : StoreSound db)
    (hallowed : ∀ e ∈ events, e.Admissible Outside.KeepsPrices)
    (hrun : runFrom orderService.step (System.initial db) events = some s) (hr : r ∈ s.runs) {o : Order}
    (hfind : s.db.findOrder inp.orderNumber inp.requestedBy = some o) :
    order.amount = amountText (s.db.total o) :=
  have hsound := sound_of_run hdb hrun
  (h.amount_eq_iff hsound hr hsound.db.schema (.refl _) hfind).mpr
    (priceHeld_of_run inp hdb hallowed hrun hr)

end PricesAlone

section Bound

/-- The execution inserted this row. -/
def Wrote (record : ExecuteRecord) (row : Refund) : Prop :=
  record.after.refunds = record.before.refunds ++ [row]

/-- The row pays what the run was told, what it showed, and no more than it may pay by itself. -/
structure AmountBound (inp : OrderActionInput) (r : OrderRun) (row : Refund) : Prop where
  loaded : ∀ order, r.Answered (.loadRefundOrder inp) order → order.amount = amountText row.amount.cents
  shown : ∀ amount, .waitingForApproval amount ∈ r.object.trail → amount = amountText row.amount.cents
  automatic : (∀ amount, .waitingForApproval amount ∉ r.object.trail) → row.amount.cents ≤ 20000

variable {db : Database} {events : List OrderEvent} {s : OrderSystem} {r : OrderRun}
  {inp : OrderActionInput}

/-- An inserted row pays the total that the order has on the database of its execution. -/
theorem Wrote.paid {record : ExecuteRecord} {row : Refund}
    (hrecord : Recorded orderService StoreSound Database.Evolves s.db (a := .executeRefund inp) record)
    (hwrote : Wrote record row) : ∃ o,
      record.before.findOrder inp.orderNumber inp.requestedBy = some o ∧
        row.amount.cents = record.before.total o := by
  have hout := executed_of_recorded hrecord
  unfold Wrote at hwrote
  generalize record.after = after at hout hwrote
  generalize record.reply = reply at hout
  cases hout with
  | settled o amount hfind hnone hst hamount hkey =>
    obtain rfl := List.singleton_inj.mp (List.append_cancel_left hwrote)
    exact ⟨o, hfind, hamount⟩
  | _ => simp at hwrote

/-- A row is bound to what a cleared run was told when it pays just that. -/
theorem Cleared.amountBound_iff {order : LoadedOrder} {row : Refund} (h : Cleared inp r order)
    (hinv : Invariant inp r) :
    AmountBound inp r row ↔ order.amount = amountText row.amount.cents := by
  constructor
  · intro hbound
    exact hbound.loaded order ((h.loaded order).mpr rfl)
  · intro htext
    refine ⟨fun order' hanswered => ?_, fun amount hwaited => ?_, fun hnever => ?_⟩
    · rw [(h.loaded order').mp hanswered, htext]
    · obtain ⟨order', hloaded', rfl, -⟩ := hinv.waited amount hwaited
      rw [(h.loaded order').mp ((hloaded' order').mpr rfl), htext]
    · by_contra habove
      exact hnever _ (h.waited ((needsApproval_iff htext).mpr (by omega)))

/-- In every state that a run of events reaches, whatever happens to prices: a refunds row that an
execution of a refund run has inserted pays the amount that the run was told and showed, and at
most 200 if it took the automatic path, exactly when the execution found the price of the load. -/
theorem amountBound_iff_priceHeld (hdb : StoreSound db)
    (hrun : runFrom orderService.step (System.initial db) events = some s) (hr : r ∈ s.runs)
    (hinput : r.input = .refund inp) {record : ExecuteRecord} {row : Refund}
    (hdid : r.Did (.executeRefund inp) record) (hwrote : Wrote record row) :
    AmountBound inp r row ↔ PriceHeld inp r record.before := by
  have hsound := sound_of_run hdb hrun
  have hinv := kept.holds hrun r hr inp hinput
  have hrecord := hsound.did r hr (.executeRefund inp) record hdid
  obtain ⟨o, hfind, hrow⟩ := hwrote.paid hrecord
  obtain ⟨t, ht, hactivity⟩ := activity_of_did hdid
  obtain ⟨-, order, hcleared⟩ := cleared_of_attempted hrun hr ht hactivity
  rw [hcleared.amountBound_iff hinv, hrow]
  exact hcleared.loaded.amount_eq_iff hsound hr hrecord.inv.schema
    (hrecord.step.trans hrecord.since) hfind

def refundOrderFive : OrderActionInput := ⟨5, "CUS-005", "damaged"⟩

/-- Order 5, delivered, of 98.00. -/
def orderOf98 : Database := oneOrder price98 oneUnit .delivered

theorem storeSound_orderOf98 : StoreSound orderOf98 := (storeInvariant_oneOrder _ _ _).toStoreSound

/-- The refund of order 5 takes the automatic path, and then the price is raised to 300.00. -/
def priceRaised : List OrderEvent :=
  [.start "refund-order-5" (.refund refundOrderFive), .run 0 .begin, .run 0 .execute, .run 0 .report,
    .outside (.setPrice "SP-001" price300)]

/-- The execution then inserts a row of 300.00. -/
theorem priceRaised_runs :
    ∃ s r record row, runFrom orderService.step (System.initial orderOf98)
        (priceRaised ++ [.run 0 .execute]) = some s ∧ r ∈ s.runs ∧ r.input = .refund refundOrderFive ∧
      r.Did (.executeRefund refundOrderFive) record ∧ Wrote record row ∧ row.amount.cents = 30000 ∧
      r.object.trail = [.started, .checkingOrder, .refunding "98.00"] := by
  obtain ⟨s, s', row, r, inp, hrun, hstep, hinserts, hamount⟩ :=
    exists_inserts_of_first_row storeSound_orderOf98
      (show (runFrom orderService.step (System.initial orderOf98) priceRaised).map
        (fun s => s.db.refunds) = some [] by decide +kernel)
      (show (runFrom orderService.step (System.initial orderOf98) (priceRaised ++ [.run 0 .execute])).map
        (fun s => s.db.refunds.map fun row => row.amount.cents) = some [30000] by decide +kernel)
  have hrun' : runFrom orderService.step (System.initial orderOf98) (priceRaised ++ [.run 0 .execute]) =
      some s' := (runFrom_append_eq_some _).mpr ⟨s, hrun, by simp [runFrom, hstep]⟩
  have hcomputed : (runFrom orderService.step (System.initial orderOf98)
      (priceRaised ++ [.run 0 .execute])).map (fun s => (s.runs[0]?).map fun r =>
        (r.input, r.object.trail)) =
        some (some (.refund refundOrderFive, [.started, .checkingOrder, .refunding "98.00"])) := by
    decide +kernel
  obtain ⟨r', reply, hr', hdid⟩ := hinserts.executed
  simp only [hrun', hr', Option.map_some, Option.some.injEq, Prod.mk.injEq] at hcomputed
  obtain ⟨q, q', hq, hq', hmove⟩ := moves_of_step hstep
  obtain rfl := Option.some.inj (hq.symm.trans hinserts.run)
  obtain rfl := Option.some.inj (hq'.symm.trans hr')
  obtain rfl : refundOrderFive = inp := by
    have hinput := hcomputed.1.symm.trans (hmove.later.input.trans hinserts.input)
    exact WorkflowInput.refund.inj hinput
  exact ⟨s', q', _, row, hrun', List.mem_of_getElem? hr', hcomputed.1, hdid, hinserts.inserted, hamount,
    hcomputed.2⟩

/-- A run on the automatic path has refunded 300.00 of an order that it was told was of 98.00. -/
theorem priceRaised_not_bound :
    ∃ s r record row, runFrom orderService.step (System.initial orderOf98)
        (priceRaised ++ [.run 0 .execute]) = some s ∧ r ∈ s.runs ∧ r.input = .refund refundOrderFive ∧
      r.Did (.executeRefund refundOrderFive) record ∧ Wrote record row ∧
      r.object.trail = [.started, .checkingOrder, .refunding "98.00"] ∧ row.amount.cents = 30000 ∧
      ¬ AmountBound refundOrderFive r row := by
  obtain ⟨s, r, record, row, hrun, hr, hinput, hdid, hwrote, hamount, htrail⟩ := priceRaised_runs
  refine ⟨s, r, record, row, hrun, hr, hinput, hdid, hwrote, htrail, hamount, fun hbound => ?_⟩
  have hle := hbound.automatic (by simp [htrail])
  omega

/-- And indeed the price was not held. -/
theorem amountBound_iff_priceHeld_priceRaised :
    ∃ s r record row, runFrom orderService.step (System.initial orderOf98)
        (priceRaised ++ [.run 0 .execute]) = some s ∧ r ∈ s.runs ∧
      r.Did (.executeRefund refundOrderFive) record ∧ Wrote record row ∧
      (AmountBound refundOrderFive r row ↔ PriceHeld refundOrderFive r record.before) ∧
      ¬ PriceHeld refundOrderFive r record.before := by
  obtain ⟨s, r, record, row, hrun, hr, hinput, hdid, hwrote, hamount, htrail⟩ := priceRaised_runs
  have hiff := amountBound_iff_priceHeld storeSound_orderOf98 hrun hr hinput
    hdid hwrote
  refine ⟨s, r, record, row, hrun, hr, hdid, hwrote, hiff, fun hheld => ?_⟩
  have hle := (hiff.mpr hheld).automatic (by simp [htrail])
  omega

end Bound

end RefundWorkflow

end Agentops
