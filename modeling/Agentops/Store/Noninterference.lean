import Agentops.Store.Customers

/-!
# What a customer sees and changes

Two states that agree on the products and on the rows of a customer cannot be told apart by anything
that is done in that customer's name, and stay so, while the rows of everyone else remain as they are.
The lookups are determined by the agreement, and the outcomes of the order functions by the lookups.
-/

namespace Agentops

open Transaction StoreTables

section Lookups

variable {u : String} {s s' : StoreTables}

theorem StoreTables.AgreeOn.symm (h : s.AgreeOn u s') : s'.AgreeOn u s :=
  ⟨fun p => (h.products p).symm, fun o ho => (h.orders o ho).symm, fun r => (h.refunds r).symm,
    fun m hm => (h.memories m hm).symm⟩

/-- A lookup finds exactly the order with the number and the customer. -/
theorem Database.findOrder_eq_some_iff {db : Database} (hkey : KeyedTable.Unique Order.id db.orders)
    {n : ℤ} {c : String} {o : Order} :
    db.findOrder n c = some o ↔ o ∈ db.orders ∧ o.id = n ∧ o.customerId = c := by
  refine ⟨findOrder_eq_some, ?_⟩
  rintro ⟨ho, rfl, rfl⟩
  exact findOrder_of_mem hkey ho

/-- The customer's orders are found in both states. -/
theorem StoreTables.AgreeOn.findOrder (h : s.AgreeOn u s') (hs : s.db.Schema) (hs' : s'.db.Schema) (n : ℤ) :
    s.db.findOrder n u = s'.db.findOrder n u := by
  ext o
  rw [Database.findOrder_eq_some_iff hs.ordersKey, Database.findOrder_eq_some_iff hs'.ordersKey]
  constructor
  · rintro ⟨ho, hn, hc⟩
    exact ⟨(h.orders o hc).mp ho, hn, hc⟩
  · rintro ⟨ho, hn, hc⟩
    exact ⟨(h.orders o hc).mpr ho, hn, hc⟩

/-- An order is joined with one product. -/
theorem Database.Schema.exists_joinProducts {db : Database} (h : db.Schema) {o : Order} (ho : o ∈ db.orders) :
    ∃ p ∈ db.products, p.sku = o.productSku ∧ db.joinProducts o = [p] := by
  obtain ⟨p, hp, hsku⟩ := h.orderProduct o ho
  refine ⟨p, hp, hsku, ?_⟩
  have hmem : p ∈ db.joinProducts o := List.mem_filter.mpr ⟨hp, by simp [hsku]⟩
  have hone : (db.joinProducts o).length ≤ 1 :=
    h.productsKey.length_filter_le _ fun q _ q' _ hq hq' => by
      rw [of_decide_eq_true hq, of_decide_eq_true hq']
  obtain ⟨q, hq⟩ := List.length_eq_one_iff.mp (le_antisymm hone (List.length_pos_of_mem hmem))
  rw [hq] at hmem ⊢
  rw [List.mem_singleton.mp hmem]

/-- An order that is in both states is joined with the same product. -/
theorem StoreTables.AgreeOn.joinProducts (h : s.AgreeOn u s') (hs : s.db.Schema) (hs' : s'.db.Schema)
    {o : Order} (ho : o ∈ s.db.orders) (ho' : o ∈ s'.db.orders) :
    s.db.joinProducts o = s'.db.joinProducts o := by
  obtain ⟨p, hp, hsku, hjoin⟩ := hs.exists_joinProducts ho
  obtain ⟨p', hp', hsku', hjoin'⟩ := hs'.exists_joinProducts ho'
  rw [hjoin, hjoin', hs'.productsKey.eq_of_key_eq ((h.products p).mp hp) hp' (hsku.trans hsku'.symm)]

/-- The total of an order that is in both states is the same. -/
theorem StoreTables.AgreeOn.total (h : s.AgreeOn u s') (hs : s.db.Schema) (hs' : s'.db.Schema)
    {o : Order} (ho : o ∈ s.db.orders) (ho' : o ∈ s'.db.orders) : s.db.total o = s'.db.total o := by
  unfold Database.total
  rw [h.joinProducts hs hs' ho ho']

/-- A refund of the customer's order is in both states. -/
theorem StoreTables.AgreeOn.mem_refunds (h : s.AgreeOn u s') {o : Order} (ho : o ∈ s.db.orders)
    (hc : o.customerId = u) {r : Refund} (hr : r ∈ s.db.refunds) (hid : r.orderId = o.id) :
    r ∈ s'.db.refunds :=
  ((h.refunds r).mp ⟨hr, o, ho, hid.symm, hc⟩).1

end Lookups

section Outcomes

variable {u : String} {s s' : StoreTables}

/-- Cancelling has the same result in both states, and changes the same order or none. -/
theorem StoreTables.AgreeOn.cancel (h : s.AgreeOn u s') (hs : s.db.Schema) (hs' : s'.db.Schema) (n : ℤ) :
    ∃ result db db', (cancelOrderRow n u).run s.db = .ok (result, db) ∧
      (cancelOrderRow n u).run s'.db = .ok (result, db') ∧
      (db = s.db ∧ db' = s'.db ∨
        (∃ o, s.db.findOrder n u = some o) ∧ db = s.db.setOrderStatus n .cancelled ∧
          db' = s'.db.setOrderStatus n .cancelled) := by
  have hfind := h.findOrder hs hs' n
  obtain ⟨_, hrun, hout⟩ := cancelOrderRow_outcome s.db n u
  obtain ⟨_, hrun', hout'⟩ := cancelOrderRow_outcome s'.db n u
  cases hout with
  | missing hnone =>
    cases hout' with
    | missing _ => exact ⟨_, _, _, hrun, hrun', .inl ⟨rfl, rfl⟩⟩
    | _ o ho => simp [← hfind, hnone] at ho
  | refused o ho hst =>
    cases hout' with
    | refused o' ho' _ =>
      obtain rfl : o = o' := Option.some.inj (ho.symm.trans (hfind.trans ho'))
      exact ⟨_, _, _, hrun, hrun', .inl ⟨rfl, rfl⟩⟩
    | missing hnone => simp [hfind, hnone] at ho
    | done o' ho' hst' =>
      obtain rfl : o = o' := Option.some.inj (ho.symm.trans (hfind.trans ho'))
      exact absurd hst' hst
  | done o ho hst =>
    cases hout' with
    | done o' ho' _ =>
      obtain rfl : o = o' := Option.some.inj (ho.symm.trans (hfind.trans ho'))
      exact ⟨_, _, _, hrun, hrun', .inr ⟨⟨o, ho⟩, rfl, rfl⟩⟩
    | missing hnone => simp [hfind, hnone] at ho
    | refused o' ho' hst' =>
      obtain rfl : o = o' := Option.some.inj (ho.symm.trans (hfind.trans ho'))
      exact absurd hst hst'

/-- The first refund of an order that is there is checked for its amount alone. -/
theorem Database.checkRefund_congr {db db' : Database} {n : ℤ} {key : String} (amount : ℕ) (reason : String)
    (horder : n ∈ db.orders.map Order.id) (horder' : n ∈ db'.orders.map Order.id)
    (hnew : n ∉ db.refunds.map Refund.orderId) (hnew' : n ∉ db'.refunds.map Refund.orderId)
    (hkey : key ∉ db.refunds.map Refund.idempotencyKey)
    (hkey' : key ∉ db'.refunds.map Refund.idempotencyKey) :
    db.checkRefund n amount reason key = db'.checkRefund n amount reason key := by
  unfold checkRefund
  simp only [horder, horder', hnew, hnew', hkey, hkey', not_true_eq_false, if_false]

/-- A key that is derived from an order without a refund is new. -/
theorem Database.KeysDerived.notMem {db : Database} (h : db.KeysDerived) {n : ℤ}
    (hnone : ∀ r ∈ db.refunds, r.orderId ≠ n) :
    refundIdempotencyKey n ∉ db.refunds.map Refund.idempotencyKey := by
  intro hmem
  obtain ⟨r, hr, hkey⟩ := List.mem_map.mp hmem
  exact hnone r hr (refundIdempotencyKey_injective ((h r hr).symm.trans hkey))

section RefundOutcomes

variable {db : Database} {n : ℤ} {c reason key : String} {o : Order}
  {out : Except SqlError (Option RefundResult × Database)}

/-- Without an order of the customer nothing is refunded. -/
theorem RefundOutcome.of_missing (hout : RefundOutcome db n c reason key out)
    (hfind : db.findOrder n c = none) : out = .ok (none, db) := by
  cases hout with
  | missing _ => rfl
  | alreadyRefunded o' r' ho' => simp [hfind] at ho'
  | notDelivered o' ho' => simp [hfind] at ho'
  | settled o' amount ho' => simp [hfind] at ho'
  | failed o' e ho' => simp [hfind] at ho'

/-- An order with a refund is answered with it. -/
theorem RefundOutcome.of_refund (hout : RefundOutcome db n c reason key out) (hs : db.Schema)
    (hfind : db.findOrder n c = some o) {r : Refund} (hr : r ∈ db.refunds) (hid : r.orderId = n) :
    out = .ok (some ⟨n, .refunded, r.amount.cents, false, some "already_refunded"⟩, db) := by
  cases hout with
  | missing hmissing => simp [hfind] at hmissing
  | alreadyRefunded o' r' _ hr' hid' => rw [hs.refundsOrder.eq_of_key_eq hr hr' (hid.trans hid'.symm)]
  | notDelivered o' _ hnone => exact absurd hid (hnone r hr)
  | settled o' amount _ hnone => exact absurd hid (hnone r hr)
  | failed o' e _ hnone => exact absurd hid (hnone r hr)

/-- An order that is not delivered is refused. -/
theorem RefundOutcome.of_undelivered (hout : RefundOutcome db n c reason key out)
    (hfind : db.findOrder n c = some o) (hnone : ∀ r ∈ db.refunds, r.orderId ≠ n)
    (hst : o.status ≠ .delivered) :
    out = .ok (some ⟨n, o.status, db.total o, false, some "order_not_delivered"⟩, db) := by
  cases hout with
  | missing hmissing => simp [hfind] at hmissing
  | alreadyRefunded o' r' _ hr' hid' => exact absurd hid' (hnone r' hr')
  | notDelivered o' ho' => rw [Option.some.inj (hfind.symm.trans ho')]
  | settled o' amount ho' _ hst' => exact absurd (Option.some.inj (hfind.symm.trans ho') ▸ hst') hst
  | failed o' e ho' _ hst' => exact absurd (Option.some.inj (hfind.symm.trans ho') ▸ hst') hst

/-- A delivered order is settled if the row passes the checks, and otherwise the check fails. -/
theorem RefundOutcome.of_delivered (hout : RefundOutcome db n c reason key out)
    (hfind : db.findOrder n c = some o) (hnone : ∀ r ∈ db.refunds, r.orderId ≠ n)
    (hst : o.status = .delivered) :
    (∃ e, db.checkRefund n (db.total o) reason key = .error e ∧ out = .error e) ∨
      ∃ amount, db.checkRefund n (db.total o) reason key = .ok ⟨n, amount, reason, key⟩ ∧
        out = .ok (some ⟨n, .refunded, db.total o, true, none⟩, db.settle n amount reason key) := by
  cases hout with
  | missing hmissing => simp [hfind] at hmissing
  | alreadyRefunded o' r' _ hr' hid' => exact absurd hid' (hnone r' hr')
  | notDelivered o' ho' _ hst' => exact absurd hst (Option.some.inj (hfind.symm.trans ho') ▸ hst')
  | settled o' amount ho' _ _ _ _ hcheck =>
    obtain rfl := Option.some.inj (hfind.symm.trans ho')
    exact .inr ⟨amount, hcheck, rfl⟩
  | failed o' e ho' _ _ he =>
    obtain rfl := Option.some.inj (hfind.symm.trans ho')
    exact .inl ⟨e, he, rfl⟩

end RefundOutcomes

/-- A refund has the same result in both states, and settles the same order or none. -/
theorem StoreTables.AgreeOn.refund (h : s.AgreeOn u s') (hs : s.Sound) (hs' : s'.Sound) (n : ℤ)
    (reason : String) :
    (∃ e, (refundOrderRow n u reason (refundIdempotencyKey n)).run s.db = .error e ∧
      (refundOrderRow n u reason (refundIdempotencyKey n)).run s'.db = .error e) ∨
    ∃ result db db', (refundOrderRow n u reason (refundIdempotencyKey n)).run s.db = .ok (result, db) ∧
      (refundOrderRow n u reason (refundIdempotencyKey n)).run s'.db = .ok (result, db') ∧
      (db = s.db ∧ db' = s'.db ∨
        (∃ o, s.db.findOrder n u = some o) ∧ ∃ amount,
          db = s.db.settle n amount reason (refundIdempotencyKey n) ∧
          db' = s'.db.settle n amount reason (refundIdempotencyKey n)) := by
  have hfind := h.findOrder hs.schema hs'.schema n
  have hout := refundOrderRow_outcome hs.schema.orderProduct n u reason (refundIdempotencyKey n)
  have hout' := refundOrderRow_outcome hs'.schema.orderProduct n u reason (refundIdempotencyKey n)
  cases ho : s.db.findOrder n u with
  | none =>
    exact .inr ⟨_, _, _, hout.of_missing ho, hout'.of_missing (hfind ▸ ho), .inl ⟨rfl, rfl⟩⟩
  | some o =>
    obtain ⟨hmem, hid, hc⟩ := Database.findOrder_eq_some ho
    have hmem' : o ∈ s'.db.orders := (h.orders o hc).mp hmem
    have ho' : s'.db.findOrder n u = some o := hfind ▸ ho
    by_cases hnone : ∀ r ∈ s.db.refunds, r.orderId ≠ n
    · have hnone' : ∀ r ∈ s'.db.refunds, r.orderId ≠ n := fun r hr hr' =>
        hnone r (h.symm.mem_refunds hmem' hc hr (hr'.trans hid.symm)) hr'
      have htotal := h.total hs.schema hs'.schema hmem hmem'
      by_cases hst : o.status = .delivered
      · have hkey := hs.keys.notMem hnone
        have hkey' := hs'.keys.notMem hnone'
        have hcheck : s.db.checkRefund n (s.db.total o) reason (refundIdempotencyKey n) =
            s'.db.checkRefund n (s'.db.total o) reason (refundIdempotencyKey n) := by
          rw [htotal]
          refine Database.checkRefund_congr _ reason ?_ ?_ ?_ ?_ hkey hkey'
          · exact hid ▸ List.mem_map_of_mem hmem
          · exact hid ▸ List.mem_map_of_mem hmem'
          · simpa using hnone
          · simpa using hnone'
        rcases hout.of_delivered ho hnone hst with ⟨e, he, hrun⟩ | ⟨amount, hok, hrun⟩
        · rcases hout'.of_delivered ho' hnone' hst with ⟨e', he', hrun'⟩ | ⟨amount', hok', _⟩
          · obtain rfl : e = e' := Except.error.inj (he.symm.trans (hcheck.trans he'))
            exact .inl ⟨e, hrun, hrun'⟩
          · simp [hcheck, hok'] at he
        · rcases hout'.of_delivered ho' hnone' hst with ⟨e', he', _⟩ | ⟨amount', hok', hrun'⟩
          · simp [hcheck, he'] at hok
          · obtain rfl : amount = amount' :=
              (Refund.mk.inj (Except.ok.inj (hok.symm.trans (hcheck.trans hok')))).2.1
            exact .inr ⟨_, _, _, hrun, htotal ▸ hrun', .inr ⟨⟨o, rfl⟩, amount, rfl, rfl⟩⟩
      · exact .inr ⟨_, _, _, hout.of_undelivered ho hnone hst,
          htotal ▸ hout'.of_undelivered ho' hnone' hst, .inl ⟨rfl, rfl⟩⟩
    · obtain ⟨r, hr, hr'⟩ : ∃ r ∈ s.db.refunds, r.orderId = n := by simpa using hnone
      have hmemr' : r ∈ s'.db.refunds := h.mem_refunds hmem hc hr (hr'.trans hid.symm)
      exact .inr ⟨_, _, _, hout.of_refund hs.schema ho hr hr', hout'.of_refund hs'.schema ho' hmemr' hr',
        .inl ⟨rfl, rfl⟩⟩

end Outcomes

section Changes

variable {u : String} {s s' : StoreTables}

/-- A status change leaves refunds with their customers. -/
theorem Database.refundOf_setOrderStatus {db : Database} {n : ℤ} {st : OrderStatus} {r : Refund} :
    (db.setOrderStatus n st).RefundOf u r ↔ db.RefundOf u r := by
  constructor
  · rintro ⟨o', ho', hid, hc⟩
    obtain ⟨o, ho, rfl⟩ := KeyedTable.mem_update.mp ho'
    refine ⟨o, ho, ?_, ?_⟩
    · rw [← hid]
      split <;> rfl
    · rw [← hc]
      split <;> rfl
  · rintro ⟨o, ho, hid, hc⟩
    refine ⟨_, KeyedTable.mem_update.mpr ⟨o, ho, rfl⟩, ?_, ?_⟩
    · rw [← hid]
      split <;> rfl
    · rw [← hc]
      split <;> rfl

/-- The same status change keeps the agreement. -/
theorem StoreTables.AgreeOn.setOrderStatus (h : s.AgreeOn u s') (n : ℤ) (st : OrderStatus) :
    ({ s with db := s.db.setOrderStatus n st } : StoreTables).AgreeOn u
      { s' with db := s'.db.setOrderStatus n st } := by
  have hmem : ∀ {t t' : StoreTables}, t.AgreeOn u t' → ∀ o : Order, o.customerId = u →
      o ∈ (t.db.setOrderStatus n st).orders → o ∈ (t'.db.setOrderStatus n st).orders := by
    intro t t' hagree o hc ho
    obtain ⟨q, hq, rfl⟩ := KeyedTable.mem_update.mp ho
    have hqc : q.customerId = u := by
      rw [← hc]
      split <;> rfl
    exact KeyedTable.mem_update.mpr ⟨q, (hagree.orders q hqc).mp hq, rfl⟩
  refine ⟨h.products, fun o hc => ⟨hmem h o hc, hmem h.symm o hc⟩, fun r => ?_, h.memories⟩
  change r ∈ s.db.refunds ∧ _ ↔ r ∈ s'.db.refunds ∧ _
  rw [Database.refundOf_setOrderStatus, Database.refundOf_setOrderStatus]
  exact h.refunds r

/-- A status change of the customer's order leaves the orders of everyone else alone. -/
theorem Database.mem_setOrderStatus_of_ne {db : Database} (hkey : KeyedTable.Unique Order.id db.orders)
    {n : ℤ} {st : OrderStatus} {o : Order} (ho : db.findOrder n u = some o) {q : Order}
    (hq : q.customerId ≠ u) : q ∈ db.orders ↔ q ∈ (db.setOrderStatus n st).orders := by
  obtain ⟨hmem, hid, hc⟩ := findOrder_eq_some ho
  constructor
  · intro hqmem
    have hne : q.id ≠ n := fun hqn => hq (hkey.eq_of_key_eq hqmem hmem (hqn.trans hid.symm) ▸ hc)
    exact KeyedTable.mem_update.mpr ⟨q, hqmem, if_neg hne⟩
  · intro hqmem
    obtain ⟨q', hq', rfl⟩ := KeyedTable.mem_update.mp hqmem
    by_cases hn : q'.id = n
    · rw [if_pos hn] at hq
      exact absurd (hkey.eq_of_key_eq hq' hmem (hn.trans hid.symm) ▸ hc) hq
    · rw [if_neg hn]
      exact hq'

/-- The same settlement of the customer's order keeps the agreement. -/
theorem StoreTables.AgreeOn.settle (h : s.AgreeOn u s') {n : ℤ} {o : Order}
    (ho : s.db.findOrder n u = some o) (amount : Money) (reason key : String) :
    ({ s with db := s.db.settle n amount reason key } : StoreTables).AgreeOn u
      { s' with db := s'.db.settle n amount reason key } := by
  obtain ⟨hmem, hid, hc⟩ := Database.findOrder_eq_some ho
  let row : Refund := ⟨n, amount, reason, key⟩
  have hrow : s.db.RefundOf u row := ⟨o, hmem, hid, hc⟩
  have hrow' : s'.db.RefundOf u row := ⟨o, (h.orders o hc).mp hmem, hid, hc⟩
  have hinserted : ({ s with db := { s.db with refunds := s.db.refunds ++ [row] } } : StoreTables).AgreeOn u
      { s' with db := { s'.db with refunds := s'.db.refunds ++ [row] } } := by
    refine ⟨h.products, h.orders, fun r => ?_, h.memories⟩
    change (r ∈ s.db.refunds ++ [row] ∧ s.db.RefundOf u r) ↔ (r ∈ s'.db.refunds ++ [row] ∧ s'.db.RefundOf u r)
    have hr := h.refunds r
    simp only [List.mem_append, List.mem_singleton, or_and_right]
    refine or_congr hr ⟨?_, ?_⟩
    · rintro ⟨rfl, -⟩
      exact ⟨rfl, hrow'⟩
    · rintro ⟨rfl, -⟩
      exact ⟨rfl, hrow⟩
  exact hinserted.setOrderStatus n .refunded

/-- Doing nothing to the rows of everyone else. -/
theorem StoreTables.OthersKept.refl (u : String) (s : StoreTables) : s.OthersKept u s :=
  ⟨fun _ => Iff.rfl, fun _ _ => Iff.rfl, fun _ _ => Iff.rfl, fun _ _ => Iff.rfl⟩

/-- A status change of the customer's order keeps the rows of everyone else. -/
theorem StoreTables.othersKept_setOrderStatus (hs : s.db.Schema) {n : ℤ} {o : Order}
    (ho : s.db.findOrder n u = some o) (st : OrderStatus) :
    s.OthersKept u { s with db := s.db.setOrderStatus n st } :=
  ⟨fun _ => Iff.rfl, fun _ hq => Database.mem_setOrderStatus_of_ne hs.ordersKey ho hq, fun _ _ => Iff.rfl,
    fun _ _ => Iff.rfl⟩

/-- A settlement of the customer's order keeps the rows of everyone else. -/
theorem StoreTables.othersKept_settle (hs : s.db.Schema) {n : ℤ} {o : Order}
    (ho : s.db.findOrder n u = some o) (amount : Money) (reason key : String) :
    s.OthersKept u { s with db := s.db.settle n amount reason key } := by
  obtain ⟨hmem, hid, hc⟩ := Database.findOrder_eq_some ho
  refine ⟨fun _ => Iff.rfl, fun q hq => ?_, fun r hr => ?_, fun _ _ => Iff.rfl⟩
  · exact Database.mem_setOrderStatus_of_ne hs.ordersKey ho hq
  · change r ∈ s.db.refunds ↔ r ∈ s.db.refunds ++ [⟨n, amount, reason, key⟩]
    rw [List.mem_append, List.mem_singleton]
    refine (or_iff_left ?_).symm
    rintro rfl
    exact hr ⟨o, hmem, hid, hc⟩

end Changes

section Memories

variable {u : String} {s s' : StoreTables}

/-- The memory with a key of the customer is found in both states. -/
theorem StoreTables.AgreeOn.findMemory (h : s.AgreeOn u s') (hs : s.Sound) (hs' : s'.Sound)
    (memoryKey : String) :
    s.memories.find? (·.key = (u, memoryKey)) = s'.memories.find? (·.key = (u, memoryKey)) := by
  have hfound : ∀ {t : StoreTables}, t.Sound → ∀ m : UserMemory,
      t.memories.find? (·.key = (u, memoryKey)) = some m ↔ m ∈ t.memories ∧ m.key = (u, memoryKey) := by
    intro t ht m
    constructor
    · intro hm
      exact ⟨List.mem_of_find?_eq_some hm, by simpa using List.find?_some hm⟩
    · rintro ⟨hm, hkey⟩
      exact hkey ▸ ht.memories.find?_eq_some hm
  ext m
  rw [hfound hs, hfound hs']
  constructor
  · rintro ⟨hm, hkey⟩
    exact ⟨(h.memories m (congrArg Prod.fst hkey)).mp hm, hkey⟩
  · rintro ⟨hm, hkey⟩
    exact ⟨(h.memories m (congrArg Prod.fst hkey)).mpr hm, hkey⟩

/-- Saving a memory answers the same row in both states and keeps the agreement. -/
theorem StoreTables.AgreeOn.saveMemory (h : s.AgreeOn u s') (hs : s.Sound) (hs' : s'.Sound)
    (memoryKey memoryValue now : String) :
    (saveUserMemory u memoryKey memoryValue now s.memories).1 =
        (saveUserMemory u memoryKey memoryValue now s'.memories).1 ∧
      ({ s with memories := (saveUserMemory u memoryKey memoryValue now s.memories).2 } :
        StoreTables).AgreeOn u
          { s' with memories := (saveUserMemory u memoryKey memoryValue now s'.memories).2 } := by
  have hfind := h.findMemory hs hs' memoryKey
  unfold saveUserMemory
  rw [← hfind]
  cases s.memories.find? (·.key = (u, memoryKey)) with
  | none =>
    refine ⟨rfl, h.products, h.orders, h.refunds, fun m hm => ?_⟩
    simp only [List.mem_append, h.memories m hm]
  | some found =>
    refine ⟨rfl, h.products, h.orders, h.refunds, fun m hm => ?_⟩
    simp only [KeyedTable.mem_update]
    have howner : ∀ q : UserMemory, (if q.key = (u, memoryKey) then
        { q with memoryValue := memoryValue, updatedAt := now } else q) = m → q.userId = u := by
      rintro q rfl
      rw [← hm]
      split <;> rfl
    constructor
    · rintro ⟨q, hq, hchanged⟩
      exact ⟨q, (h.memories q (howner q hchanged)).mp hq, hchanged⟩
    · rintro ⟨q, hq, hchanged⟩
      exact ⟨q, (h.memories q (howner q hchanged)).mpr hq, hchanged⟩

/-- Saving a memory keeps the rows of everyone else. -/
theorem StoreTables.othersKept_saveMemory (s : StoreTables) (memoryKey memoryValue now : String) :
    s.OthersKept u { s with memories := (saveUserMemory u memoryKey memoryValue now s.memories).2 } := by
  refine ⟨fun _ => Iff.rfl, fun _ _ => Iff.rfl, fun _ _ => Iff.rfl, fun m hm => ?_⟩
  unfold saveUserMemory
  cases s.memories.find? (·.key = (u, memoryKey)) with
  | none =>
    simp only [List.mem_append, List.mem_singleton]
    refine (or_iff_left ?_).symm
    rintro rfl
    exact hm rfl
  | some found =>
    simp only [KeyedTable.mem_update]
    constructor
    · intro hmem
      exact ⟨m, hmem, if_neg fun hkey => hm (congrArg Prod.fst hkey)⟩
    · rintro ⟨q, hq, rfl⟩
      by_cases hkey : q.key = (u, memoryKey)
      · rw [if_pos hkey] at hm
        exact absurd (congrArg Prod.fst hkey) hm
      · rwa [if_neg hkey]

/-- Among the memories of one customer a key is there once. -/
theorem unique_memoryKey {memories : List UserMemory} (h : KeyedTable.Unique UserMemory.key memories) (u : String) :
    KeyedTable.Unique UserMemory.memoryKey (memories.filter (·.userId = u)) := by
  refine List.Nodup.map_on (fun a ha b hb hab => ?_) ((List.Nodup.of_map _ h).filter _)
  obtain ⟨ha, hau⟩ := List.mem_filter.mp ha
  obtain ⟨hb, hbu⟩ := List.mem_filter.mp hb
  have howner : a.userId = b.userId := (of_decide_eq_true hau).trans (of_decide_eq_true hbu).symm
  exact h.eq_of_key_eq ha hb (Prod.ext howner hab)

/-- The customer's memories are listed alike in both states. -/
theorem StoreTables.AgreeOn.getMemories (h : s.AgreeOn u s') (hs : s.Sound) (hs' : s'.Sound)
    (collation : Collation) :
    getUserMemories collation u s.memories = getUserMemories collation u s'.memories := by
  have hunique := unique_memoryKey hs.memories u
  have hunique' := unique_memoryKey hs'.memories u
  unfold getUserMemories
  refine congrArg (List.map _) (hunique.mergeSort_eq _ hunique' (fun m => ?_) collation.trans
    collation.total collation.antisymm)
  simp only [List.mem_filter, decide_eq_true_eq]
  exact and_congr_left fun hm => h.memories m hm

end Memories

section Listing

variable {u : String} {s s' : StoreTables}

/-- The rows of a listing before they are sorted. -/
def listedRows (status : Option OrderStatus) (u : String) (db : Database) : List OrderView :=
  (db.orders.filter fun o => status.all (o.status = ·) ∧ (some u).all (o.customerId = ·)).flatMap
    fun o => (db.joinProducts o).map o.view

/-- Every order has one row in the join with its product. -/
theorem Database.Schema.map_id_views {db : Database} (hs : db.Schema) {orders : List Order}
    (h : ∀ o ∈ orders, o ∈ db.orders) :
    (orders.flatMap fun o => (db.joinProducts o).map o.view).map OrderView.id = orders.map Order.id := by
  induction orders with
  | nil => rfl
  | cons o rest ih =>
    obtain ⟨p, -, -, hjoin⟩ := hs.exists_joinProducts (h o List.mem_cons_self)
    have hrest := ih fun q hq => h q (List.mem_cons_of_mem o hq)
    simp only [List.flatMap_cons, List.map_append, List.map_cons, hjoin, List.map_nil, hrest]
    rfl

/-- A listing has each order once. -/
theorem unique_listedRows {db : Database} (hs : db.Schema) (status : Option OrderStatus) (u : String) :
    KeyedTable.Unique OrderView.id (listedRows status u db) := by
  unfold KeyedTable.Unique listedRows
  rw [hs.map_id_views fun o ho => (List.mem_filter.mp ho).1]
  exact (List.filter_sublist.map _).nodup hs.ordersKey

/-- The customer's orders are listed alike in both states. -/
theorem StoreTables.AgreeOn.listOrderRows (h : s.AgreeOn u s') (hs : s.db.Schema) (hs' : s'.db.Schema)
    (status : Option OrderStatus) (limit : ℕ) :
    listOrderRows status limit (some u) s.db = listOrderRows status limit (some u) s'.db := by
  have hmem : ∀ {t t' : StoreTables}, t.AgreeOn u t' → t.db.Schema → t'.db.Schema → ∀ v,
      v ∈ listedRows status u t.db → v ∈ listedRows status u t'.db := by
    intro t t' hagree ht ht' v hv
    obtain ⟨o, ho, hview⟩ := List.mem_flatMap.mp hv
    obtain ⟨ho, hcond⟩ := List.mem_filter.mp ho
    have hc : o.customerId = u := by simpa using (of_decide_eq_true hcond).2
    have ho' := (hagree.orders o hc).mp ho
    refine List.mem_flatMap.mpr ⟨o, List.mem_filter.mpr ⟨ho', hcond⟩, ?_⟩
    rwa [← hagree.joinProducts ht ht' ho ho']
  refine congrArg (List.take limit) ?_
  refine (unique_listedRows hs status u).mergeSort_eq (fun a b => decide (a ≤ b))
    (unique_listedRows hs' status u) (fun v => ⟨hmem h hs hs' v, hmem h.symm hs' hs v⟩) ?_ ?_ ?_
  · intro a b c hab hbc
    simp only [decide_eq_true_eq] at hab hbc ⊢
    omega
  · intro a b
    simp only [decide_eq_true_eq]
    omega
  · intro a b hab hba
    simp only [decide_eq_true_eq] at hab hba
    omega

end Listing

section Operations

variable {u : String} {s s' : StoreTables} (collation : Collation) (upper : String → String) (op : CustomerOp)

/-- Saving a memory leaves orders and refunds alone. -/
theorem CustomerOp.db_saveMemory (key value now : String) :
    ((CustomerOp.saveMemory key value now).perform collation upper u s).2.db = s.db := by
  by_cases htexts : [u, key, value].all storable = true
  · simp only [CustomerOp.perform, if_pos htexts]
  · simp only [CustomerOp.perform, if_neg htexts]

/-- So does reading the memories. -/
theorem CustomerOp.db_getMemories : (CustomerOp.getMemories.perform collation upper u s).2.db = s.db := by
  by_cases hu : storable u = true
  · simp only [CustomerOp.perform, if_pos hu]
  · simp only [CustomerOp.perform, if_neg hu]

/-- What is done in the customer's name has the same result in both states and keeps the agreement. -/
theorem StoreTables.AgreeOn.perform (h : s.AgreeOn u s') (hs : s.Sound) (hs' : s'.Sound)
    (hop : op.ActsFor u) :
    (op.perform collation upper u s).1 = (op.perform collation upper u s').1 ∧
      (op.perform collation upper u s).2.AgreeOn u (op.perform collation upper u s').2 := by
  cases op with
  | getOrderStatus n =>
    have hfind := h.findOrder hs.schema hs'.schema n
    simp only [CustomerOp.perform, transact, getOrderStatusRow_run, hfind]
    exact ⟨trivial, h⟩
  | cancelOrder n =>
    obtain ⟨result, db, db', hrun, hrun', hchange⟩ := h.cancel hs.schema hs'.schema n
    simp only [CustomerOp.perform, transact, hrun, hrun', true_and]
    rcases hchange with ⟨rfl, rfl⟩ | ⟨-, rfl, rfl⟩
    · exact h
    · exact h.setOrderStatus n .cancelled
  | getRefundOrder n =>
    have hfind := h.findOrder hs.schema hs'.schema n
    have htotal : (s.db.findOrder n u).map (fun o => (⟨o.id, o.status, s.db.total o⟩ : RefundOrderRow)) =
        (s'.db.findOrder n u).map fun o => ⟨o.id, o.status, s'.db.total o⟩ := by
      rw [← hfind]
      refine Option.map_congr fun o ho => ?_
      obtain ⟨hmem, -, hc⟩ := Database.findOrder_eq_some ho
      rw [h.total hs.schema hs'.schema hmem ((h.orders o hc).mp hmem)]
    simp only [CustomerOp.perform, transact, getRefundOrderRow_run hs.schema.orderProduct,
      getRefundOrderRow_run hs'.schema.orderProduct, htotal]
    exact ⟨trivial, h⟩
  | refundOrder n reason =>
    rcases h.refund hs hs' n reason with ⟨e, hrun, hrun'⟩ | ⟨result, db, db', hrun, hrun', hchange⟩
    · simp only [CustomerOp.perform, transact, hrun, hrun', refundOrderRow_rolledBack, true_and]
      exact h
    · simp only [CustomerOp.perform, transact, hrun, hrun', true_and]
      rcases hchange with ⟨rfl, rfl⟩ | ⟨⟨o, ho⟩, amount, rfl, rfl⟩
      · exact h
      · exact h.settle ho amount reason _
  | getMemories =>
    by_cases hu : storable u = true
    · simp only [CustomerOp.perform, if_pos hu]
      exact ⟨congrArg CustomerReply.memories (h.getMemories hs hs' collation), h⟩
    · simp only [CustomerOp.perform, if_neg hu]
      exact ⟨trivial, h⟩
  | saveMemory key value now =>
    by_cases htexts : [u, key, value].all storable = true
    · simp only [CustomerOp.perform, if_pos htexts]
      obtain ⟨hrow, hagree⟩ := h.saveMemory hs hs' key value now
      exact ⟨congrArg CustomerReply.memory hrow, hagree⟩
    · simp only [CustomerOp.perform, if_neg htexts]
      exact ⟨trivial, h⟩
  | listOrders user status requested limit =>
    obtain ⟨hstaff, hclaim⟩ := hop
    rcases scopeCustomerId_customer upper hstaff hclaim requested with hscope | hscope
    · simp only [CustomerOp.perform, Agentops.listOrders, hscope, Except.map,
        h.listOrderRows hs.schema hs'.schema]
      exact ⟨trivial, h⟩
    · simp only [CustomerOp.perform, Agentops.listOrders, hscope, Except.map]
      exact ⟨trivial, h⟩

/-- What is done in the customer's name keeps the rows of everyone else. -/
theorem StoreTables.othersKept_perform (hs : s.db.Schema) :
    s.OthersKept u (op.perform collation upper u s).2 := by
  cases op with
  | getOrderStatus n =>
    simp only [CustomerOp.perform, transact, getOrderStatusRow_run]
    exact .refl u s
  | cancelOrder n =>
    obtain ⟨_, hrun, hout⟩ := cancelOrderRow_outcome s.db n u
    simp only [CustomerOp.perform, transact, hrun]
    cases hout with
    | missing _ => exact .refl u s
    | refused o _ _ => exact .refl u s
    | done o ho _ => exact othersKept_setOrderStatus hs ho .cancelled
  | getRefundOrder n =>
    simp only [CustomerOp.perform, transact, getRefundOrderRow_run hs.orderProduct]
    exact .refl u s
  | refundOrder n reason =>
    have hout := refundOrderRow_outcome hs.orderProduct n u reason (refundIdempotencyKey n)
    simp only [CustomerOp.perform, transact]
    generalize (refundOrderRow n u reason (refundIdempotencyKey n)).run s.db = out at hout ⊢
    cases hout with
    | missing _ => exact .refl u s
    | alreadyRefunded o r _ _ _ => exact .refl u s
    | notDelivered o _ _ _ => exact .refl u s
    | settled o amount ho _ _ _ _ => exact othersKept_settle hs ho amount reason _
    | failed o e _ _ _ _ =>
      simp only [refundOrderRow_rolledBack]
      exact .refl u s
  | getMemories =>
    simp only [CustomerOp.perform]
    split <;> exact .refl u s
  | saveMemory key value now =>
    by_cases htexts : [u, key, value].all storable = true
    · simp only [CustomerOp.perform, if_pos htexts]
      exact s.othersKept_saveMemory key value now
    · simp only [CustomerOp.perform, if_neg htexts]
      exact .refl u s
  | listOrders user status requested limit =>
    simp only [CustomerOp.perform]
    split <;> exact .refl u s

/-- Without the rows of anyone else the tables are still sound. -/
theorem StoreTables.Sound.onlyOf (hs : s.Sound) (u : String) : (s.onlyOf u).Sound := by
  refine ⟨⟨hs.schema.productsKey, ?_, ?_, ?_, ?_, ?_⟩, ?_, ?_⟩
  · exact (List.filter_sublist.map _).nodup hs.schema.ordersKey
  · exact (List.filter_sublist.map _).nodup hs.schema.refundsOrder
  · exact (List.filter_sublist.map _).nodup hs.schema.refundsIdempotency
  · exact fun o ho => hs.schema.orderProduct o (List.mem_filter.mp ho).1
  · intro r hr
    obtain ⟨-, hof⟩ := List.mem_filter.mp hr
    obtain ⟨o, ho, hid, hc⟩ := of_decide_eq_true hof
    exact ⟨o, List.mem_filter.mpr ⟨ho, decide_eq_true hc⟩, hid⟩
  · exact fun r hr => hs.keys r (List.mem_filter.mp hr).1
  · exact (List.filter_sublist.map _).nodup hs.memories

/-- The customer's own rows are all there without those of anyone else. -/
theorem StoreTables.agreeOn_onlyOf (u : String) (s : StoreTables) : s.AgreeOn u (s.onlyOf u) := by
  refine ⟨fun _ => Iff.rfl, fun o hc => ?_, fun r => ?_, fun m hm => ?_⟩
  · simp [onlyOf, hc]
  · have hof : (s.onlyOf u).db.RefundOf u r ↔ s.db.RefundOf u r := by
      simp only [Database.RefundOf, onlyOf, List.mem_filter, decide_eq_true_eq]
      constructor
      · rintro ⟨o, ⟨ho, -⟩, hid, hc⟩
        exact ⟨o, ho, hid, hc⟩
      · rintro ⟨o, ho, hid, hc⟩
        exact ⟨o, ⟨ho, hc⟩, hid, hc⟩
    rw [hof]
    simp [onlyOf]
  · simp [onlyOf, hm]

/-- What is done in the name of a customer has the same result in any two states that agree on the
products and on the customer's rows, leaves the customer's rows equal in both and the rows of everyone
else as they are. In particular it has the result that it would have if nobody else had any rows, so
that an order of someone else is answered like one that is missing. -/
theorem customer_noninterference (hs : s.Sound) (hs' : s'.Sound) (hop : op.ActsFor u)
    (h : s.AgreeOn u s') :
    (op.perform collation upper u s).1 = (op.perform collation upper u s').1 ∧
      (op.perform collation upper u s).2.AgreeOn u (op.perform collation upper u s').2 ∧
      s.OthersKept u (op.perform collation upper u s).2 ∧
      s'.OthersKept u (op.perform collation upper u s').2 ∧
      (op.perform collation upper u s).1 = (op.perform collation upper u (s.onlyOf u)).1 := by
  obtain ⟨hresult, hagree⟩ := h.perform collation upper op hs hs' hop
  refine ⟨hresult, hagree, s.othersKept_perform collation upper op hs.schema,
    s'.othersKept_perform collation upper op hs'.schema, ?_⟩
  exact ((s.agreeOn_onlyOf u).perform collation upper op hs (hs.onlyOf u) hop).1

end Operations

/-- Texts in the order of their code points. -/
def codePointCollation : Collation where
  le a b := decide (a ≤ b)
  trans _ _ _ h h' := decide_eq_true (String.le_trans (of_decide_eq_true h) (of_decide_eq_true h'))
  total a b := (String.le_total a b).imp decide_eq_true decide_eq_true
  antisymm _ _ h h' := String.le_antisymm (of_decide_eq_true h) (of_decide_eq_true h')

/-- Customer CUS-999 is told the same about order 5, which is someone else's, as if it was missing. -/
theorem customer_noninterference_foreignRefund :
    let s : StoreTables :=
      ⟨oneOrder price98 oneUnit .delivered, [⟨"CUS-005", "contact_method", "email", "10:00", "10:00"⟩]⟩
    let op := CustomerOp.refundOrder 5 "mine"
    (op.perform codePointCollation String.toUpper "CUS-999" s).1 = .refund none ∧
      (op.perform codePointCollation String.toUpper "CUS-999" (s.onlyOf "CUS-999")).1 = .refund none ∧
      s.OthersKept "CUS-999" (op.perform codePointCollation String.toUpper "CUS-999" s).2 := by
  intro s op
  have hs : s.Sound :=
    ⟨(storeInvariant_oneOrder _ _ _).schema, by simp [Database.KeysDerived, s, oneOrder],
      by simp [KeyedTable.Unique, s]⟩
  have hreply : (op.perform codePointCollation String.toUpper "CUS-999" s).1 = .refund none := by
    decide +kernel
  obtain ⟨hsame, -, hothers, -⟩ := customer_noninterference codePointCollation String.toUpper op hs
    (hs.onlyOf "CUS-999") trivial (s.agreeOn_onlyOf "CUS-999")
  exact ⟨hreply, hsame ▸ hreply, hothers⟩

end Agentops
