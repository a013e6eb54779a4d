import Agentops.Store.Locking
import Agentops.Store.WholeRuns

/-!
# Concurrent cancellations and refunds

Any number of `cancel_order_row` and `refund_order_row` transactions, interleaved statement by
statement, give the tables and the results of performing the committed ones in commit order.
A refund's `INSERT` finds no other row of its order, because the row lock is held since before
`refunds` was read. That it finds no other row with its idempotency key needs the keys already
in the table to be the ones derived from their own orders.
-/

namespace Agentops

open Transaction LabelledRun

/-- A call of one of the two order transactions, with the key that `execute_refund_activity`
passes. -/
inductive OrderRequest
  | cancel (orderNumber : ℤ) (customerId : String)
  | refund (orderNumber : ℤ) (customerId reason : String)
  deriving DecidableEq, Repr

/-- What a caller receives. -/
inductive OrderReply
  | cancellation (result : CancellationResult)
  | refund (result : Option RefundResult)
  deriving DecidableEq, Repr

def OrderRequest.tx : OrderRequest → Tx OrderReply
  | .cancel n c => (cancelOrderRow n c).map .cancellation
  | .refund n c reason => (refundOrderRow n c reason (refundIdempotencyKey n)).map .refund

/-- Every call keeps the locking discipline. -/
theorem OrderRequest.follows (request : OrderRequest) : orderLocking.Follows request.tx [] := by
  cases request with
  | cancel n c => exact (follows_cancelOrderRow n c).map _ _
  | refund n c reason => exact (follows_refundOrderRow n c reason _).map _ _

section Keys

variable {db db' : Database}

/-- A refund with a derived key keeps all keys derived. -/
theorem RefundOutcome.keysDerived {n : ℤ} {c reason : String} {result : Option RefundResult}
    (hout : RefundOutcome db n c reason (refundIdempotencyKey n) (.ok (result, db')))
    (h : db.KeysDerived) : db'.KeysDerived := by
  cases hout with
  | missing _ => exact h
  | alreadyRefunded o r _ _ _ => exact h
  | notDelivered o _ _ _ => exact h
  | settled o amount _ _ _ _ _ =>
    intro r hr
    rcases List.mem_append.mp hr with hold | hnew
    · exact h r hold
    · obtain rfl := List.mem_singleton.mp hnew
      rfl

/-- A cancellation inserts no refunds row. -/
theorem CancelOutcome.refunds {n : ℤ} {c : String} {out : CancellationResult × Database}
    (hout : CancelOutcome db n c out) : out.2.refunds = db.refunds := by
  cases hout <;> rfl

/-- What one call, performed alone, keeps. -/
theorem OrderRequest.run_keeps (request : OrderRequest) {reply : OrderReply}
    (hsound : StoreSound db) (hrun : request.tx.run db = .ok (reply, db')) :
    StoreSound db' ∧ (db.KeysDerived → db'.KeysDerived) := by
  cases request with
  | cancel n c =>
    obtain ⟨out, hout, hcase⟩ := cancelOrderRow_outcome db n c
    simp only [OrderRequest.tx, Tx.run, Engine.run_map, hout, Except.map] at hrun
    obtain ⟨-, rfl⟩ := Prod.mk.inj (Except.ok.inj hrun)
    refine ⟨(hcase.safe hsound).sound, fun hkeys => ?_⟩
    unfold Database.KeysDerived
    rw [hcase.refunds]
    exact hkeys
  | refund n c reason =>
    have hcase := refundOrderRow_outcome hsound.schema.orderProduct n c reason (refundIdempotencyKey n)
    simp only [OrderRequest.tx, Tx.run, Engine.run_map] at hrun
    cases hout : postgres.run (refundOrderRow n c reason (refundIdempotencyKey n)) db with
    | error e => simp [hout, Except.map] at hrun
    | ok out =>
      simp only [hout, Except.map] at hrun
      obtain ⟨-, rfl⟩ := Prod.mk.inj (Except.ok.inj hrun)
      simp only [Tx.run, hout] at hcase
      exact ⟨(hcase.safe hsound).sound, hcase.keysDerived⟩

end Keys

/-- The `INSERT INTO refunds`, wherever it is about to be answered, meets no row of its order;
with derived keys in the table it meets no row with its key either. -/
def InsertIsNew (db₀ : Database) : Sql → Database → Prop
  | .insertRefund n amount reason key, db =>
    db.checkRefund n amount reason key ≠ .error (.uniqueViolation "refunds_order_id_key") ∧
      (db₀.KeysDerived →
        db.checkRefund n amount reason key ≠ .error (.uniqueViolation "refunds_idempotency_key_key"))
  | _, _ => True

/-- Along a call performed alone, the `INSERT` is new. -/
theorem OrderRequest.along_insertIsNew (request : OrderRequest) {db₀ db : Database}
    (hkeys : db₀.KeysDerived → db.KeysDerived) : postgres.Along (InsertIsNew db₀) request.tx db := by
  cases request with
  | cancel n c =>
    refine Engine.Along.map _ ?_
    simp only [cancelOrderRow, Tx.execute, Program.ofStatement_bind, Program.pure_eq]
    refine ⟨trivial, fun x writes hx => ?_⟩
    cases x with
    | none => trivial
    | some order =>
      simp only
      split
      · trivial
      · exact ⟨trivial, fun _ _ _ => trivial⟩
  | refund n c reason =>
    refine Engine.Along.map _ ?_
    simp only [refundOrderRow, Tx.execute, Program.ofStatement_bind, Program.pure_eq]
    refine ⟨trivial, fun x writes hx => ?_⟩
    simp only [postgres, Sql.execute, Except.ok.injEq, Prod.mk.injEq] at hx
    obtain ⟨-, rfl⟩ := hx
    cases x with
    | none => trivial
    | some order =>
      refine ⟨trivial, fun existing writes hx => ?_⟩
      simp only [postgres, Sql.execute, Except.ok.injEq, Prod.mk.injEq] at hx
      obtain ⟨rfl, rfl⟩ := hx
      cases hrow : (db.refunds.filter fun r => r.orderId = n).head? with
      | some r => simp [Engine.applyAll, hrow, Engine.Along]
      | none =>
        have hnone : ∀ r ∈ db.refunds, r.orderId ≠ n := by simpa using hrow
        simp only [Engine.applyAll_nil, hrow, Option.map_none]
        split
        · trivial
        · refine ⟨⟨fun herror => ?_, fun hderived herror => ?_⟩,
            fun _ _ _ => ⟨trivial, fun _ _ _ => trivial⟩⟩
          · obtain ⟨r, hr, hid⟩ := (Database.checkRefund_eq_error herror).1 rfl
            exact hnone r hr hid
          · obtain ⟨r, hr, hkey⟩ := (Database.checkRefund_eq_error herror).2 rfl
            exact hnone r hr (refundIdempotencyKey_injective ((hkeys hderived r hr).symm.trans hkey))

/-- The database with every concurrent call. -/
abbrev OrderWorld := World Sql Sql.Answer Database RowChange LockKey OrderReply

/-- Before any statement of the calls. -/
def OrderWorld.initial (requests : List OrderRequest) (db : Database) : OrderWorld :=
  World.initial (requests.map OrderRequest.tx) db

/-- The committed calls, in the order of the history, give these tables and results when they
are performed one after the other. -/
structure SerialHistory (requests : List OrderRequest) (db : Database) (w : OrderWorld)
    (history : List (ℕ × OrderReply)) : Prop where
  once : (history.map Prod.fst).Nodup
  results : ∀ (i : ℕ) (reply : OrderReply),
    (i, reply) ∈ history ↔ w.sessions[i]? = some (.committed reply)
  serial : postgres.serialRun (requests.map OrderRequest.tx) (history.map Prod.fst) db =
    some (history, w.database)

/-- From every state of the store invariant, every interleaving of calls is serialisable, and
no `INSERT INTO refunds` breaks a unique column: never that of the order, and not that of the
idempotency key if the keys in the table are derived ones. -/
theorem orderTransactions_serialisable (requests : List OrderRequest) (db : Database)
    (hinv : StoreInvariant db) (labels : List Label) (w : OrderWorld)
    (hrun : runFrom postgres.step (OrderWorld.initial requests db) labels = some w) :
    (∃ history, SerialHistory requests db w history) ∧
      ∀ (i : ℕ) (n : ℤ) (amount : ℕ) (reason key : String) (next : Unit → Tx OrderReply)
        (writes : List RowChange) (held : List LockKey),
        w.sessions[i]? = some (.active (.perform (.insertRefund n amount reason key) next) writes held) →
          InsertIsNew db (.insertRefund n amount reason key) (postgres.applyAll writes w.database) := by
  have hfollows : ∀ p ∈ requests.map OrderRequest.tx, orderLocking.Follows p [] := by
    intro p hp
    obtain ⟨request, -, rfl⟩ := List.mem_map.mp hp
    exact request.follows
  obtain ⟨history, h⟩ := Engine.exists_interleaved orderLocking hfollows hrun
  refine ⟨⟨history, h.once, h.results, h.serial⟩, ?_⟩
  intro i n amount reason key next writes held hi
  -- the invariant of the serial run that the along rule carries to the statement
  refine h.along (fun d => StoreSound d ∧ (db.KeysDerived → d.KeysDerived)) ?_ ?_
    ⟨hinv.toStoreSound, id⟩ hi
  · intro p hp d reply d' hd hrun
    obtain ⟨request, -, rfl⟩ := List.mem_map.mp hp
    obtain ⟨hsound, hkeys⟩ := request.run_keeps hd.1 hrun
    exact ⟨hsound, fun hderived => hkeys (hd.2 hderived)⟩
  · intro p hp d hd
    obtain ⟨request, -, rfl⟩ := List.mem_map.mp hp
    exact request.along_insertIsNew hd.2

/-- A delivered order 5 of two chargers. -/
def twoChargers : Database := oneOrder price98 ⟨2, by decide, by decide⟩ .delivered

/-- A refund of order 5, its owner's cancellation waiting for the row lock meanwhile. -/
def refundThenCancel : List Label :=
  [.advance 0, .advance 0, .advance 0, .advance 0, .commit 0, .advance 1, .commit 1]

/-- The refund commits first and the cancellation is told so. -/
theorem orderTransactions_serialisable_order_five :
    ∃ w : OrderWorld, runFrom postgres.step
        (OrderWorld.initial [.refund 5 "CUS-005" "damaged", .cancel 5 "CUS-005"] twoChargers)
        refundThenCancel = some w ∧
      ∃ history, SerialHistory [.refund 5 "CUS-005" "damaged", .cancel 5 "CUS-005"] twoChargers w
        history :=
  ⟨_, rfl, (orderTransactions_serialisable _ _ (storeInvariant_oneOrder _ _ _) refundThenCancel _ rfl).1⟩

/-- The seeded tables after order 5 was refunded with the key of order 19. -/
def keyTaken : Database :=
  (refundOrderRow 5 "CUS-005" "damaged" (refundIdempotencyKey 19)).commit (initializeDatabase .empty)

/-- The store invariant alone does not protect the idempotency keys: from a state that a run of
the store reaches, the `INSERT` of a single refund breaks the unique column. -/
theorem orderTransactions_key_violation :
    runFrom storeStep (initializeDatabase .empty)
        [.refund 5 "CUS-005" "damaged" (refundIdempotencyKey 19)] = some keyTaken ∧
      StoreInvariant keyTaken ∧
      ∃ (w : OrderWorld) (next : Unit → Tx OrderReply) (held : List LockKey),
        runFrom postgres.step (OrderWorld.initial [.refund 19 "CUS-019" "damaged"] keyTaken)
          [.advance 0, .advance 0] = some w ∧
        w.sessions[0]? = some (.active (.perform
          (.insertRefund 19 74900 "damaged" (refundIdempotencyKey 19)) next) [] held) ∧
        postgres.execute (.insertRefund 19 74900 "damaged" (refundIdempotencyKey 19)) w.database =
          .error (.uniqueViolation "refunds_idempotency_key_key") := by
  have hseeded : keyTaken = (refundOrderRow 5 "CUS-005" "damaged" (refundIdempotencyKey 19)).commit
      ⟨seedProducts, seedOrders, [], 120⟩ := by rw [keyTaken, initializeDatabase_empty]
  have horder : Sql.execute (.selectRefundOrderForUpdate 19 "CUS-019") keyTaken =
      .ok (some ⟨19, .delivered, 74900⟩, []) := by
    rw [hseeded]
    decide +kernel
  have hamount : Sql.execute (.selectRefundAmount 19) keyTaken = .ok (none, []) := by
    rw [hseeded]
    decide +kernel
  have hcheck : keyTaken.checkRefund 19 74900 "damaged" (refundIdempotencyKey 19) =
      .error (.uniqueViolation "refunds_idempotency_key_key") := by
    rw [hseeded]
    decide +kernel
  have hinsert : postgres.execute (.insertRefund 19 74900 "damaged" (refundIdempotencyKey 19))
      keyTaken = .error (.uniqueViolation "refunds_idempotency_key_key") := by
    simp only [postgres, Sql.execute, hcheck, Except.map]
  have hreached : runFrom storeStep (initializeDatabase .empty)
      [.refund 5 "CUS-005" "damaged" (refundIdempotencyKey 19)] = some keyTaken := rfl
  have hinv : StoreInvariant keyTaken := storeRun_keeps storeInvariant_seeded hreached
  -- two statements of the one session bring it to its `INSERT`
  have hrun : ∃ next held, runFrom postgres.step
      (OrderWorld.initial [.refund 19 "CUS-019" "damaged"] keyTaken) [.advance 0, .advance 0] =
        some ⟨keyTaken, [.active (.perform
          (.insertRefund 19 74900 "damaged" (refundIdempotencyKey 19)) next) [] held]⟩ := by
    refine ⟨?next, Sql.locks (.selectRefundOrderForUpdate 19 "CUS-019") keyTaken ++
      Sql.locks (.selectRefundAmount 19) keyTaken, ?run⟩
    case run =>
    simp [runFrom, Engine.step, OrderWorld.initial, World.initial, OrderRequest.tx, refundOrderRow,
      Tx.execute, Program.map, postgres, horder, hamount]
    rfl
  obtain ⟨next, held, hrun⟩ := hrun
  refine ⟨hreached, hinv, _, next, held, hrun, ?_, ?_⟩
  · rfl
  · rw [← hinsert]

end Agentops
