import Agentops.Foundations.Serialisability
import Agentops.Store.Outcomes

/-!
# What the row locks of the order transactions protect

The lock on an `orders` row protects its status and whether the order has a refunds row; the
entry that an uncommitted `INSERT` occupies in the unique index protects the rows with that
idempotency key. The columns of an order other than its status are never changed, so two
transactions may read them side by side. `cancel_order_row` and `refund_order_row` take the
row lock in their first statement and read or write nothing it does not protect.
-/

namespace Agentops

open Transaction

/-- Two rows of one order that agree on the status if its row is locked. -/
structure Order.Agrees (keys : List LockKey) (o o' : Order) : Prop where
  id : o'.id = o.id
  customerId : o'.customerId = o.customerId
  productSku : o'.productSku = o.productSku
  quantity : o'.quantity = o.quantity
  createdAt : o'.createdAt = o.createdAt
  status : .orderRow o.id ∈ keys → o'.status = o.status

/-- An order whose row is locked is the same. -/
theorem Order.Agrees.eq {keys : List LockKey} {o o' : Order} (h : o.Agrees keys o')
    (hlocked : .orderRow o.id ∈ keys) : o' = o := by
  obtain ⟨hid, hcustomer, hsku, hquantity, hcreated, hstatus⟩ := h
  cases o
  cases o'
  simp_all

/-- The keys that make a session the only writer of what a row change touches. -/
def RowChange.Guarded : RowChange → List LockKey → Prop
  | .insertRefund row, held =>
    .orderRow row.orderId ∈ held ∧ .refundIdempotencyKey row.idempotencyKey ∈ held
  | .setOrderStatus n _, held => .orderRow n ∈ held
  | .insertOrder _, _ => False

namespace Database

/-- Two databases that agree on everything the keys protect and on everything nobody changes. -/
structure Agree (keys : List LockKey) (db db' : Database) : Prop where
  products : db'.products = db.products
  orders : List.Forall₂ (Order.Agrees keys) db.orders db'.orders
  refundsOrder : ∀ n : ℤ, .orderRow n ∈ keys →
    db'.refunds.filter (fun r => r.orderId = n) = db.refunds.filter fun r => r.orderId = n
  refundsKey : ∀ key : String, .refundIdempotencyKey key ∈ keys →
    db'.refunds.filter (fun r => r.idempotencyKey = key) =
      db.refunds.filter fun r => r.idempotencyKey = key

namespace Agree

variable {keys : List LockKey} {db db' : Database}

/-- Tables agree with themselves. -/
theorem refl (keys : List LockKey) (db : Database) : Agree keys db db :=
  ⟨rfl, List.forall₂_same.mpr fun _ _ => ⟨rfl, rfl, rfl, rfl, rfl, fun _ => rfl⟩,
    fun _ _ => rfl, fun _ _ => rfl⟩

/-- Agreement passes from one pair of rows to the next. -/
theorem forall₂_trans {first second third : List Order}
    (h : List.Forall₂ (Order.Agrees keys) first second)
    (h' : List.Forall₂ (Order.Agrees keys) second third) :
    List.Forall₂ (Order.Agrees keys) first third := by
  induction h generalizing third with
  | nil => exact h'
  | @cons o o' _ _ hhead _ ih =>
    cases h' with
    | cons hhead' htail' =>
      refine .cons ?_ (ih htail')
      exact ⟨hhead'.id.trans hhead.id, hhead'.customerId.trans hhead.customerId,
        hhead'.productSku.trans hhead.productSku, hhead'.quantity.trans hhead.quantity,
        hhead'.createdAt.trans hhead.createdAt,
        fun hk => (hhead'.status (hhead.id ▸ hk)).trans (hhead.status hk)⟩

/-- Agreement goes from step to step. -/
theorem trans {db'' : Database} (h : Agree keys db db') (h' : Agree keys db' db'') :
    Agree keys db db'' where
  products := h'.products.trans h.products
  orders := forall₂_trans h.orders h'.orders
  refundsOrder n hk := (h'.refundsOrder n hk).trans (h.refundsOrder n hk)
  refundsKey key hk := (h'.refundsKey key hk).trans (h.refundsKey key hk)

/-- Fewer keys ask for less agreement. -/
theorem anti {more : List LockKey} (hsub : keys ⊆ more) (h : Agree more db db') :
    Agree keys db db' where
  products := h.products
  orders := h.orders.imp fun _ _ ho =>
    ⟨ho.id, ho.customerId, ho.productSku, ho.quantity, ho.createdAt, fun hk => ho.status (hsub hk)⟩
  refundsOrder n hk := h.refundsOrder n (hsub hk)
  refundsKey key hk := h.refundsKey key (hsub hk)

/-- The same row change on both sides keeps agreement. -/
theorem apply (w : RowChange) (h : Agree keys db db') : Agree keys (w.apply db) (w.apply db') := by
  cases w with
  | insertRefund row =>
    refine ⟨h.products, h.orders, fun n hk => ?_, fun key hk => ?_⟩
    · simp only [RowChange.apply, List.filter_append, h.refundsOrder n hk]
    · simp only [RowChange.apply, List.filter_append, h.refundsKey key hk]
  | setOrderStatus n st =>
    refine ⟨h.products, ?_, h.refundsOrder, h.refundsKey⟩
    refine List.forall₂_map_left_iff.mpr (List.forall₂_map_right_iff.mpr (h.orders.imp ?_))
    intro o o' ho
    rw [ho.id]
    split
    · exact ⟨ho.id, ho.customerId, ho.productSku, ho.quantity, ho.createdAt, fun _ => rfl⟩
    · exact ho
  | insertOrder row =>
    refine ⟨h.products, ?_, h.refundsOrder, h.refundsKey⟩
    exact List.rel_append h.orders (.cons ⟨rfl, rfl, rfl, rfl, rfl, fun _ => rfl⟩ .nil)

end Agree

/-- A row change under keys that another session holds leaves agreement on its own keys alone. -/
theorem agree_frame {keys held : List LockKey} {w : RowChange} (db : Database)
    (hguard : w.Guarded held) (hdisjoint : keys.Disjoint held) : Agree keys db (w.apply db) := by
  cases w with
  | insertRefund row =>
    obtain ⟨horder, hkey⟩ := hguard
    refine ⟨rfl, (Agree.refl keys db).orders, fun n hk => ?_, fun key hk => ?_⟩
    · have hne : row.orderId ≠ n := fun h => hdisjoint hk (h ▸ horder)
      simp [RowChange.apply, hne]
    · have hne : row.idempotencyKey ≠ key := fun h => hdisjoint hk (h ▸ hkey)
      simp [RowChange.apply, hne]
  | setOrderStatus n st =>
    refine ⟨rfl, ?_, fun _ _ => rfl, fun _ _ => rfl⟩
    refine List.forall₂_map_right_iff.mpr (List.forall₂_same.mpr fun o _ => ?_)
    by_cases hid : o.id = n
    · rw [if_pos hid]
      exact ⟨rfl, rfl, rfl, rfl, rfl, fun hk => absurd (hid ▸ hguard) (hdisjoint hk)⟩
    · rw [if_neg hid]
      exact ⟨rfl, rfl, rfl, rfl, rfl, fun _ => rfl⟩
  | insertOrder row => exact absurd hguard id

/-- The joined rows of a lookup have the number asked for. -/
theorem id_of_mem_refundOrderRows {db : Database} {n : ℤ} {c : String} {row : RefundOrderRow}
    (h : row ∈ db.refundOrderRows n c) : row.id = n := by
  obtain ⟨o, ho, hrow⟩ := List.mem_flatMap.mp h
  obtain ⟨p, -, rfl⟩ := List.mem_map.mp hrow
  have hid := (List.mem_filter.mp ho).2
  simp only [decide_eq_true_eq] at hid
  exact hid.1

namespace Agree

variable {keys : List LockKey} {db db' : Database}

/-- The rows that one lookup selects correspond. -/
theorem matchingOrders (h : Agree keys db db') (n : ℤ) (c : String) :
    List.Forall₂ (Order.Agrees keys) (db.matchingOrders n c) (db'.matchingOrders n c) := by
  refine List.rel_filter ?_ h.orders
  intro o o' ho
  simp [ho.id, ho.customerId]

/-- Corresponding rows join with the same products. -/
theorem joinProducts (h : Agree keys db db') {o o' : Order} (ho : o.Agrees keys o') :
    db'.joinProducts o' = db.joinProducts o := by
  simp [Database.joinProducts, h.products, ho.productSku]

/-- A lookup that locks its rows reads the same rows. -/
theorem matchingOrders_eq (h : Agree keys db db') {n : ℤ} {c : String}
    (hlocks : (db.matchingOrders n c).map (fun o => LockKey.orderRow o.id) ⊆ keys) :
    db'.matchingOrders n c = db.matchingOrders n c := by
  have hrows := h.matchingOrders n c
  generalize db.matchingOrders n c = rows at hrows hlocks
  generalize db'.matchingOrders n c = rows' at hrows
  induction hrows with
  | nil => rfl
  | cons ho _ ih =>
    simp only [List.map_cons, List.cons_subset] at hlocks
    rw [ho.eq hlocks.1, ih hlocks.2]

/-- A joined lookup that locks its order rows reads the same rows. -/
theorem refundOrderRows_eq (h : Agree keys db db') {n : ℤ} {c : String}
    (hlocks : (db.refundOrderRows n c).map (fun row => LockKey.orderRow row.id) ⊆ keys) :
    db'.refundOrderRows n c = db.refundOrderRows n c := by
  have hrows := h.matchingOrders n c
  unfold Database.refundOrderRows at hlocks ⊢
  generalize db.matchingOrders n c = rows at hrows hlocks
  generalize db'.matchingOrders n c = rows' at hrows
  induction hrows with
  | nil => rfl
  | @cons o o' _ _ ho _ ih =>
    simp only [List.flatMap_cons, List.map_append, List.append_subset] at hlocks ⊢
    rw [ih hlocks.2, h.joinProducts ho]
    congr 1
    refine List.map_congr_left fun p hp => ?_
    -- a joined product means that the order row was locked
    have hlocked : LockKey.orderRow o.id ∈ keys :=
      hlocks.1 (List.mem_map.mpr ⟨_, List.mem_map_of_mem hp, rfl⟩)
    rw [ho.eq hlocked]

/-- The order numbers are the same. -/
theorem map_id (h : Agree keys db db') : db'.orders.map Order.id = db.orders.map Order.id := by
  have horders := h.orders
  generalize db.orders = rows at horders
  generalize db'.orders = rows' at horders
  induction horders with
  | nil => rfl
  | cons ho _ ih => rw [List.map_cons, List.map_cons, ho.id, ih]

/-- An `INSERT` whose order row and index entry are protected is checked in the same way. -/
theorem checkRefund (h : Agree keys db db') {n : ℤ} {key : String} (horder : .orderRow n ∈ keys)
    (hkey : .refundIdempotencyKey key ∈ keys) (amount : ℕ) (reason : String) :
    db'.checkRefund n amount reason key = db.checkRefund n amount reason key := by
  have hmem : ∀ {α : Type} [DecidableEq α] (f : Refund → α) (a : α) (rows : List Refund),
      a ∈ rows.map f ↔ rows.filter (fun r => f r = a) ≠ [] := by
    intro α _ f a rows
    simp
  unfold Database.checkRefund
  simp only [hmem, h.refundsOrder n horder, h.refundsKey key hkey, h.map_id]

end Agree

end Database

/-- The statements that are answered from what the keys protect. The reads that take no lock
and the insertion of an order are never covered. -/
def Sql.Covered : Sql → List LockKey → Prop
  | .selectOrderForUpdate _ _, _ => True
  | .selectRefundOrderForUpdate _ _, _ => True
  | .selectRefundAmount n, keys => .orderRow n ∈ keys
  | .insertRefund n _ _ key, keys => .orderRow n ∈ keys ∧ .refundIdempotencyKey key ∈ keys
  | .updateOrderStatus n _, keys => .orderRow n ∈ keys
  | .selectProduct _, _ => True
  | _, _ => False

/-- A covered statement has the same answer, writes and locks on databases that agree. -/
theorem Sql.execute_congr (s : Sql) {keys : List LockKey} {db db' : Database}
    (hlocks : s.locks db ⊆ keys) (hcovered : s.Covered keys) (h : Database.Agree keys db db') :
    s.execute db' = s.execute db ∧ s.locks db' = s.locks db := by
  cases s with
  | selectOrderForUpdate n c =>
    have hrows := h.matchingOrders_eq hlocks
    refine ⟨?_, by simp only [Sql.locks, hrows]⟩
    simp only [Sql.execute, Database.findOrder]
    exact congrArg (fun rows : List Order => Except.ok (rows.head?.map _, [])) hrows
  | selectRefundOrderForUpdate n c =>
    have hrows := h.refundOrderRows_eq hlocks
    exact ⟨by simp only [Sql.execute, hrows], by simp only [Sql.locks, hrows]⟩
  | selectRefundAmount n => exact ⟨by simp only [Sql.execute, h.refundsOrder n hcovered], rfl⟩
  | insertRefund n amount reason key =>
    exact ⟨by simp only [Sql.execute, h.checkRefund hcovered.1 hcovered.2], rfl⟩
  | updateOrderStatus n st =>
    refine ⟨rfl, ?_⟩
    have hids : ∀ rows : List Order, (rows.filter fun o => o.id = n).map (fun o => LockKey.orderRow o.id)
        = ((rows.map Order.id).filter fun id => id = n).map LockKey.orderRow := by
      intro rows
      simp [List.filter_map, Function.comp_def]
    simp only [Sql.locks, hids, h.map_id]
  | selectProduct sku => exact ⟨by simp only [Sql.execute, h.products], rfl⟩
  | selectOrder n c => exact absurd hcovered id
  | selectRefundOrder n c => exact absurd hcovered id
  | insertOrder c sku quantity now => exact absurd hcovered id
  | selectOrderView id => exact absurd hcovered (fun h => h)

/-- What a covered statement writes is protected by the same keys. -/
theorem Sql.writes_guarded (s : Sql) {keys : List LockKey} {db : Database} {x : s.Answer}
    {writes : List RowChange} (hcovered : s.Covered keys) (hx : s.execute db = .ok (x, writes)) :
    ∀ w ∈ writes, w.Guarded keys := by
  cases s with
  | insertRefund n amount reason key =>
    cases hrow : db.checkRefund n amount reason key with
    | error e => simp [Sql.execute, hrow, Except.map] at hx
    | ok row =>
      obtain ⟨hid, -, -, hkey, -, -⟩ := Database.checkRefund_eq_ok hrow
      simp only [Sql.execute, hrow, Except.map, Except.ok.injEq, Prod.mk.injEq] at hx
      obtain ⟨-, rfl⟩ := hx
      simp only [List.mem_singleton, forall_eq]
      exact ⟨hid ▸ hcovered.1, hkey ▸ hcovered.2⟩
  | updateOrderStatus n st =>
    simp only [Sql.execute, Except.ok.injEq, Prod.mk.injEq] at hx
    obtain ⟨-, rfl⟩ := hx
    simp only [List.mem_singleton, forall_eq]
    exact hcovered
  | insertOrder c sku quantity now => exact absurd hcovered id
  | selectOrder n c => exact absurd hcovered id
  | selectRefundOrder n c => exact absurd hcovered id
  | selectOrderView id => exact absurd hcovered (fun h => h)
  | selectOrderForUpdate n c => simp_all [Sql.execute]
  | selectRefundOrderForUpdate n c => simp_all [Sql.execute]
  | selectRefundAmount n => simp_all [Sql.execute]
  | selectProduct sku => simp_all [Sql.execute]

/-- The locking discipline of the order transactions. -/
def orderLocking : Discipline postgres where
  Agree := Database.Agree
  Covered := Sql.Covered
  Guarded := RowChange.Guarded
  agree_refl := .refl
  agree_trans _ _ _ _ := .trans
  agree_anti _ _ _ _ := .anti
  agree_apply _ w _ _ := .apply w
  agree_frame _ _ _ db := Database.agree_frame db
  execute_congr s _ _ _ := s.execute_congr
  writes_guarded s _ _ _ _ := s.writes_guarded
  guarded_mono w keys more hsub hguard := by
    cases w with
    | insertRefund row => exact ⟨hsub hguard.1, hsub hguard.2⟩
    | setOrderStatus n st => exact hsub hguard
    | insertOrder row => exact hguard

/-- `cancel_order_row` locks the order row before it relies on the status. -/
theorem follows_cancelOrderRow (n : ℤ) (c : String) : orderLocking.Follows (cancelOrderRow n c) [] := by
  simp only [cancelOrderRow, Tx.execute, Program.ofStatement_bind, Program.pure_eq]
  intro db
  refine ⟨trivial, fun x writes hx => ?_⟩
  simp only [postgres, Sql.execute, Except.ok.injEq, Prod.mk.injEq] at hx
  obtain ⟨rfl, -⟩ := hx
  cases hfind : db.findOrder n c with
  | none => trivial
  | some o =>
    obtain ⟨ho, hid, hc⟩ := Database.findOrder_eq_some hfind
    have hlocked : LockKey.orderRow n ∈ (db.matchingOrders n c).map fun o => LockKey.orderRow o.id :=
      List.mem_map.mpr ⟨o, List.mem_filter.mpr ⟨ho, by simp [hid, hc]⟩, by rw [hid]⟩
    simp only [Option.map_some]
    split
    · trivial
    · exact fun db' => ⟨List.mem_append_left _ hlocked, fun _ _ _ => trivial⟩

/-- `refund_order_row` locks the order row before it reads or writes `refunds`. -/
theorem follows_refundOrderRow (n : ℤ) (c reason key : String) :
    orderLocking.Follows (refundOrderRow n c reason key) [] := by
  simp only [refundOrderRow, Tx.execute, Program.ofStatement_bind, Program.pure_eq]
  intro db
  refine ⟨trivial, fun x writes hx => ?_⟩
  simp only [postgres, Sql.execute, Except.ok.injEq, Prod.mk.injEq] at hx
  obtain ⟨rfl, -⟩ := hx
  cases hrow : (db.refundOrderRows n c).head? with
  | none => trivial
  | some row =>
    have hmem := List.mem_of_mem_head? (Option.mem_def.mpr hrow)
    have hlocked : LockKey.orderRow n ∈ (db.refundOrderRows n c).map fun row => LockKey.orderRow row.id :=
      List.mem_map.mpr ⟨row, hmem, by rw [Database.id_of_mem_refundOrderRows hmem]⟩
    -- every later statement is covered by the row lock of the first one
    refine fun db₁ => ⟨List.mem_append_left _ hlocked, fun existing _ _ => ?_⟩
    cases existing with
    | some amount => trivial
    | none =>
      simp only
      split
      · trivial
      · refine fun db₂ => ⟨⟨?_, ?_⟩, fun _ _ _ db₃ => ⟨?_, fun _ _ _ => trivial⟩⟩
        · exact List.mem_append_left _ (List.mem_append_left _ hlocked)
        · exact List.mem_append_right _ (by simp [postgres, Sql.locks])
        · exact List.mem_append_left _ (List.mem_append_left _ (List.mem_append_left _ hlocked))

end Agentops
