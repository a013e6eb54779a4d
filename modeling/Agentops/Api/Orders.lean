import Agentops.Store.Noninterference
import Agentops.Workflow.Payable

/-!
# Orders that staff create for a customer

`scope_customer_id` lets a customer name itself in any case of letters, and staff name whomever they like. What
staff name is stored as it was typed, while every query compares it letter by letter: an order belongs to the
customer of a claim exactly if staff typed the claim.
-/

namespace Agentops

open Transaction DurableExecution LabelledRun

/-- `OrderCreate`, with the checks of its fields. -/
structure OrderCreate where
  customerId : String
  productSku : String
  quantity : Quantity
  named : customerId ≠ ""
  deriving DecidableEq, Repr

/-- Why no order is created; the error of a statement is raised on. -/
inductive CreateError
  | http (e : HttpException)
  | database (e : SqlError)
  deriving DecidableEq, Repr

/-- `create_order`. -/
def createOrder (upper : String → String) (user : CurrentUser) (orderInput : OrderCreate) (now : String)
    (db : Database) : Except CreateError OrderResponse × Database :=
  match scopeCustomerId upper user (some orderInput.customerId) with
  | .error e => (.error (.http e), db)
  | .ok none => (.error (.http ⟨400, "customer_id is required when ordering as staff"⟩), db)
  | .ok (some customerId) =>
    let create := createOrderRow customerId orderInput.productSku orderInput.quantity.value now
    match create.run db with
    | .error e => (.error (.database e), create.rolledBack db)
    | .ok (none, db') => (.error (.http ⟨404, "Product not found"⟩), db')
    | .ok (some row, db') => (.ok (orderFromRow row), db')

/-- The customer of the claim has the order: it is listed, and can be tracked and, as far as its status allows,
cancelled and, for every reason that can be sent to the database, refunded. -/
structure HasOrder (upper : String → String) (claim : String) (n : ℤ) (db : Database) : Prop where
  listed : ∀ (customer : CurrentUser) (requested : Option String) (limit : ℕ), customer.isStaff = false →
    customer.customerId = some claim → (∀ r, requested = some r → upper r = upper claim) →
    (db.orders.filter (·.customerId = claim)).length ≤ limit →
    ∃ rows, listOrders upper customer none requested limit db = .ok rows ∧ ∃ row ∈ rows, row.id = formatOrderId n
  tracked : ∃ row, (getOrderStatusRow n claim).run db = .ok (some row, db) ∧ row.id = n
  cancelled : ∀ o ∈ db.orders, o.id = n → o.status ∈ cancellableOrderStatuses →
    ∃ result db', (cancelOrderRow n claim).run db = .ok (result, db') ∧ result.cancelled = true
  refunded : ∀ o ∈ db.orders, o.id = n → o.status = .delivered → ∀ reason, storable reason = true →
    ∃ result db', (refundOrderRow n claim reason (refundIdempotencyKey n)).run db = .ok (some result, db') ∧
      result.refunded = true

/-- Staff who ask for the orders of one or of the other get the same rows. -/
def SameListing (upper : String → String) (r c : String) (db : Database) : Prop :=
  ∀ (staff : CurrentUser) (status : Option OrderStatus) (limit : ℕ), staff.isStaff = true →
    listOrders upper staff status (some r) limit db = listOrders upper staff status (some c) limit db

section Customer

variable {db : Database} {upper : String → String} {o : Order}

/-- A listing that is long enough has every order of the customer. -/
theorem mem_listOrderRows (h : db.Schema) (ho : o ∈ db.orders) {limit : ℕ}
    (hlimit : (db.orders.filter (·.customerId = o.customerId)).length ≤ limit) :
    ∃ row ∈ listOrderRows none limit (some o.customerId) db, row.id = o.id := by
  obtain ⟨p, -, -, hjoin⟩ := h.exists_joinProducts ho
  refine ⟨o.view p, ?_, rfl⟩
  unfold listOrderRows
  rw [List.take_of_length_le]
  · refine List.mem_mergeSort.mpr (List.mem_flatMap.mpr ⟨o, List.mem_filter.mpr ⟨ho, by simp⟩, ?_⟩)
    simp [hjoin]
  · have hlength : ∀ orders : List Order, (∀ q ∈ orders, q ∈ db.orders) →
        (orders.flatMap fun q => (db.joinProducts q).map q.view).length = orders.length := by
      intro orders hmem
      simpa using congrArg List.length (h.map_id_views hmem)
    rw [List.length_mergeSort, hlength _ fun q hq => (List.mem_filter.mp hq).1]
    simpa using hlimit

/-- A customer has the orders that are stored under its claim. -/
theorem ProgramTables.hasOrder (h : ProgramTables db) (ho : o ∈ db.orders) :
    HasOrder upper o.customerId o.id db := by
  have hfind := Database.findOrder_of_mem h.schema.ordersKey ho
  have hself : ∀ q ∈ db.orders, q.id = o.id → q = o := fun q hq hid => h.schema.ordersKey.eq_of_key_eq hq ho hid
  constructor
  · intro customer requested limit hcustomer hclaim hrequested hlimit
    have hscope : scopeCustomerId upper customer requested = .ok (some o.customerId) := by
      unfold scopeCustomerId
      cases requested with
      | none => simp [hcustomer, hclaim]
      | some r => simp [hcustomer, hclaim, hrequested r rfl]
    obtain ⟨row, hrow, hid⟩ := mem_listOrderRows h.schema ho hlimit
    refine ⟨_, by rw [listOrders, hscope]; rfl, orderFromRow row, List.mem_map_of_mem hrow, ?_⟩
    rw [orderFromRow, hid]
  · exact ⟨⟨o.id, o.status⟩, by rw [getOrderStatusRow_run, hfind]; rfl, rfl⟩
  · intro q hq hid hst
    obtain rfl := hself q hq hid
    obtain ⟨out, hrun, hout⟩ := cancelOrderRow_outcome db q.id q.customerId
    cases hout with
    | missing hmissing => exact absurd (hmissing.symm.trans hfind) (by simp)
    | refused x hx hrefused =>
      obtain rfl := Option.some.inj (hx.symm.trans hfind)
      exact absurd hst hrefused
    | done x hx _ => exact ⟨_, _, hrun, rfl⟩
  · intro q hq hid hst reason hreason
    obtain rfl := hself q hq hid
    have hnone : ∀ r ∈ db.refunds, r.orderId ≠ q.id := by
      intro r hr hrid
      exact absurd ((h.settled r hr q hq hrid.symm).symm.trans hst) (by simp)
    have hout := refundOrderRow_outcome h.schema.orderProduct q.id q.customerId reason (refundIdempotencyKey q.id)
    generalize hresult : (refundOrderRow q.id q.customerId reason (refundIdempotencyKey q.id)).run db = out at hout
    cases hout with
    | missing hmissing => exact absurd (hmissing.symm.trans hfind) (by simp)
    | alreadyRefunded _ r _ hr hrid => exact absurd hrid (hnone r hr)
    | notDelivered x hx _ hother =>
      obtain rfl := Option.some.inj (hx.symm.trans hfind)
      exact absurd hst hother
    | settled _ _ _ _ _ _ _ => exact ⟨_, _, rfl, rfl⟩
    | failed x e hx _ _ he =>
      obtain rfl := Option.some.inj (hx.symm.trans hfind)
      obtain ⟨row, hrow⟩ := h.exists_checkRefund hfind hnone hreason
      exact absurd (hrow.symm.trans he) (by simp)

/-- Nobody else can even track them. -/
theorem HasOrder.customerId_eq (hkey : KeyedTable.Unique Order.id db.orders) (ho : o ∈ db.orders) {claim : String}
    (h : HasOrder upper claim o.id db) : o.customerId = claim := by
  obtain ⟨row, hrun, -⟩ := h.tracked
  rw [getOrderStatusRow_run] at hrun
  cases hfind : db.findOrder o.id claim with
  | none => simp [hfind] at hrun
  | some q =>
    obtain ⟨hq, hid, hclaim⟩ := Database.findOrder_eq_some hfind
    rw [← hkey.eq_of_key_eq hq ho hid, hclaim]

end Customer

section Creation

variable {upper : String → String} {user staff : CurrentUser} {input : OrderCreate} {now : String} {db db' : Database}
  {order : OrderResponse}

/-- An order that is created is the next one, of the customer that the caller may act for, and is returned as it is
shown from then on. -/
theorem createOrder_eq_ok (h : createOrder upper user input now db = (.ok order, db')) :
    ∃ customerId row p, scopeCustomerId upper user (some input.customerId) = .ok (some customerId) ∧
      db.checkOrder customerId input.productSku input.quantity.value now = .ok row ∧
      db' = { db with orders := db.orders ++ [row], ordersSeq := row.id } ∧
      p ∈ db'.joinProducts row ∧ order = orderFromRow (row.view p) := by
  unfold createOrder at h
  cases hscope : scopeCustomerId upper user (some input.customerId) with
  | error e => simp [hscope] at h
  | ok scope =>
    cases scope with
    | none => simp [hscope] at h
    | some customerId =>
      have hout := createOrderRow_outcome db customerId input.productSku input.quantity.value now
      generalize hrun : (createOrderRow customerId input.productSku input.quantity.value now).run db = out at hout
      simp only [hscope, hrun] at h
      cases hout with
      | unknownProduct _ => simp at h
      | failed e _ => simp at h
      | created row view hrow =>
        cases view with
        | none => simp at h
        | some shown =>
          obtain ⟨rfl, rfl⟩ : orderFromRow shown = order ∧ _ = db' := by simpa using h
          obtain ⟨-, -, -, -, hnew, -⟩ := Database.checkOrder_eq_ok hrow
          have hshown := (createOrderRow_run hrow).symm.trans hrun
          simp only [Except.ok.injEq, Prod.mk.injEq, and_true] at hshown
          obtain ⟨q, hq, hview⟩ := List.mem_flatMap.mp (List.mem_of_mem_head? (Option.mem_def.mpr hshown))
          obtain ⟨p, hp, rfl⟩ := List.mem_map.mp hview
          obtain ⟨hq, hid⟩ := List.mem_filter.mp hq
          have hsame : q = row := by
            rcases List.mem_append.mp hq with hold | hlast
            · exact absurd (of_decide_eq_true hid ▸ List.mem_map_of_mem hold) hnew
            · exact List.mem_singleton.mp hlast
          subst hsame
          exact ⟨customerId, q, p, rfl, hrow, rfl, hp, rfl⟩

/-- What staff name is stored as it is. -/
theorem createOrder_staff (hstaff : staff.isStaff = true)
    (h : createOrder upper staff input now db = (.ok order, db')) : ∃ row : Order, row ∈ db'.orders ∧
      row.customerId = input.customerId ∧ order.id = formatOrderId row.id ∧
      db' = (createOrderRow input.customerId input.productSku input.quantity.value now).commit db := by
  obtain ⟨customerId, row, p, hscope, hrow, rfl, -, rfl⟩ := createOrder_eq_ok h
  obtain rfl : input.customerId = customerId := by simpa [scopeCustomerId, hstaff] using hscope
  obtain ⟨-, hcustomer, -⟩ := Database.checkOrder_eq_ok hrow
  exact ⟨row, by simp, hcustomer, rfl, by rw [Tx.commit, createOrderRow_run hrow]⟩

/-- In every state reached after staff have created the order, with any runs and changes before and after: the
customer of a claim has the order, and staff who ask for either id see the same, exactly if staff typed the claim. -/
theorem customer_id_names_customer_iff {claim : String} {events later : List OrderEvent} {s s' : OrderSystem}
    (hallowed : ∀ e ∈ events ++ later, e.Admissible Outside.KeepsPrices)
    (hrun : runFrom orderService.step (System.initial (initializeDatabase .empty)) events = some s)
    (hstaff : staff.isStaff = true) (_hsame : upper input.customerId = upper claim)
    (hcreate : createOrder upper staff input now s.db = (.ok order, db'))
    (hlater : runFrom orderService.step { s with db := db' } later = some s') :
    ∃ n, order.id = formatOrderId n ∧
      (HasOrder upper claim n s'.db ∧ SameListing upper input.customerId claim s'.db ↔ input.customerId = claim) := by
  obtain ⟨row, hrow, hcustomer, hid, rfl⟩ := createOrder_staff hstaff hcreate
  have hsound := Sound.of_run orderService_guarantee_payable programTables_seeded
    (fun x hx => hallowed x (List.mem_append_left _ hx)) hrun
  let created : OrderEvent :=
    .outside (.createOrder input.customerId input.productSku input.quantity.value now)
  have hcreated : runFrom orderService.step s [created] = some
      { s with db := (createOrderRow input.customerId input.productSku input.quantity.value now).commit s.db } := rfl
  have hmid := Sound.run orderService_guarantee_payable
    (by simp [created, Event.Admissible, Outside.KeepsPrices]) hcreated hsound
  obtain ⟨hend, hevolves⟩ := Sound.run orderService_guarantee_payable
    (fun x hx => hallowed x (List.mem_append_right _ hx)) hlater hmid.1
  obtain ⟨o, ho, hbecomes⟩ := hevolves.evolves.orders row hrow
  refine ⟨row.id, hid, ⟨fun h => ?_, fun heq => ?_⟩⟩
  · have hclaim := HasOrder.customerId_eq hend.db.schema.ordersKey ho (hbecomes.id ▸ h.1)
    rw [← hcustomer, ← hbecomes.customerId, hclaim]
  · have hhas : HasOrder upper o.customerId o.id s'.db := hend.db.hasOrder ho
    rw [hbecomes.id, hbecomes.customerId, hcustomer, heq] at hhas
    exact ⟨hhas, fun staff' status limit _ => by rw [heq]⟩

/-- A manager. -/
def manager : CurrentUser := ⟨"4d1f", "maria", none, [roleManager]⟩

/-- One laptop for the customer of this id. -/
def oneLaptop (customerId : String) (named : customerId ≠ "") : OrderCreate := ⟨customerId, "LAP-001", oneUnit, named⟩

/-- The order that comes of it as the first one after the seeded ones. -/
def oneLaptopOrder (customerId : String) : OrderResponse :=
  ⟨"ORD-121", customerId, "LAP-001", "Everyday Laptop 14", .laptop, 74900, 1, 74900, .pending, "2026-07-01"⟩

/-- The upper case of ASCII letters. -/
def asciiUpper (text : String) : String := String.ofList (text.toList.map Char.toUpper)

/-- An order that the manager creates for `CUS-001` is that customer's. -/
theorem customer_id_names_customer_iff_as_claimed : ∃ order db' n,
    createOrder asciiUpper manager (oneLaptop "CUS-001" (by decide)) "2026-07-01" (initializeDatabase .empty) =
      (.ok order, db') ∧ order.id = formatOrderId n ∧ HasOrder asciiUpper "CUS-001" n db' := by
  have hcreated : (createOrder asciiUpper manager (oneLaptop "CUS-001" (by decide)) "2026-07-01"
      (initializeDatabase .empty)).1 = .ok (oneLaptopOrder "CUS-001") := by
    rw [initializeDatabase_empty]
    decide +kernel
  generalize hcreate : createOrder asciiUpper manager (oneLaptop "CUS-001" (by decide)) "2026-07-01"
    (initializeDatabase .empty) = out at hcreated ⊢
  obtain ⟨result, db'⟩ := out
  obtain rfl : result = .ok (oneLaptopOrder "CUS-001") := hcreated
  have hrun : runFrom orderService.step (System.initial (initializeDatabase .empty)) ([] : List OrderEvent) =
      some (System.initial (initializeDatabase .empty)) := rfl
  have hlater : ∀ s : OrderSystem, runFrom orderService.step s ([] : List OrderEvent) = some s := fun _ => rfl
  have hdb : ∀ db, (System.initial db : OrderSystem).db = db := fun _ => rfl
  have hstored := hcreate
  rw [← hdb (initializeDatabase .empty)] at hstored
  obtain ⟨n, hid, hiff⟩ := customer_id_names_customer_iff (by simp) hrun (by decide) rfl hstored (hlater _)
  exact ⟨_, db', n, rfl, hid, (hiff.mpr rfl).1⟩

/-- An order that the manager creates for `cus-001`, which is `CUS-001` but for the case of its letters, is not
that customer's. -/
theorem customer_id_names_customer_not_in_any_case :
    let out := createOrder asciiUpper manager (oneLaptop "cus-001" (by decide)) "2026-07-01" (initializeDatabase .empty)
    asciiUpper "cus-001" = asciiUpper "CUS-001" ∧ out.1 = .ok (oneLaptopOrder "cus-001") ∧
      ¬ HasOrder asciiUpper "CUS-001" 121 out.2 := by
  rw [initializeDatabase_empty]
  refine ⟨by decide, by decide +kernel, fun h => ?_⟩
  obtain ⟨row, hrun, -⟩ := h.tracked
  have hnone : (createOrder asciiUpper manager (oneLaptop "cus-001" (by decide)) "2026-07-01"
      ⟨seedProducts, seedOrders, [], 120⟩).2.findOrder 121 "CUS-001" = none := by decide +kernel
  rw [getOrderStatusRow_run, hnone] at hrun
  simp at hrun

end Creation

end Agentops
