import Agentops.Foundations.Numbering
import Agentops.Store.WholeRuns

/-!
# Order numbers while processes start

The statements of `create_order_row` and of `initialize_database` one by one, in any order over any number of
replicas. The sequence behind `orders.id` is no part of a transaction: a number is drawn at once, and at once
the sequence is set to the greatest number that a starting process has read, which by then may be behind a
number that is held by a transaction under way or was used since.
-/

namespace Agentops

open Transaction LabelledRun Numbering

/-- How far a call of `create_order_row` has come. `lost` is a transaction that failed anywhere else. -/
inductive CreateStage
  | begun
  | productFound
  | drawn (id : ℤ)
  | inserted (row : Order)
  | notFound
  | created (id : ℤ)
  | failed (e : SqlError)
  | lost
  deriving DecidableEq, Repr

/-- The transaction is under way. -/
def CreateStage.isOpen : CreateStage → Bool
  | .begun | .productFound | .drawn _ | .inserted _ => true
  | .notFound | .created _ | .failed _ | .lost => false

/-- One call of `create_order_row`. -/
structure CreateCall where
  customerId : String
  productSku : String
  quantity : ℤ
  now : String
  stage : CreateStage
  deriving DecidableEq, Repr

/-- The number that a transaction under way has drawn. -/
def CreateCall.number? (call : CreateCall) : Option ℤ :=
  match call.stage with
  | .drawn id => some id
  | .inserted row => some row.id
  | _ => none

/-- The row that a transaction under way has inserted. -/
def CreateCall.row? (call : CreateCall) : Option Order :=
  match call.stage with
  | .inserted row => some row
  | _ => none

/-- How far a call of `initialize_database` has come, with the rows it has inserted and the greatest number
it has read. -/
inductive StartStage
  | begun
  | seeded (products : List Product) (orders : List Order)
  | measured (products : List Product) (orders : List Order) (top : Option ℤ)
  | reset (products : List Product) (orders : List Order)
  | committed
  | lost
  deriving DecidableEq, Repr

/-- The orders that a transaction under way has inserted. -/
def StartStage.rows : StartStage → List Order
  | .seeded _ orders | .measured _ orders _ | .reset _ orders => orders
  | .begun | .committed | .lost => []

/-- What the sequence is about to be set to. -/
def StartStage.top? : StartStage → Option ℤ
  | .measured _ _ top => top
  | _ => none

/-- The committed rows with the present sequence, the calls of replicas, and the processes that start. -/
structure OrderStore where
  db : Database
  creates : List CreateCall
  starts : List StartStage
  deriving DecidableEq, Repr

/-- One statement of `create_order_row`, its commit, or its failure for any other reason. -/
inductive CreateEvent
  | select | draw | insert | commit | lose
  deriving DecidableEq, Repr

/-- One statement of `initialize_database`, its commit, or its failure. The greatest number is read when the
statement with `setval` begins, and the sequence is set when it ends. -/
inductive StartEvent
  | seed | measure | reset | commit | lose
  deriving DecidableEq, Repr

inductive OrderStoreEvent
  | call (customerId productSku : String) (quantity : ℤ) (now : String)
  | create (i : ℕ) (e : CreateEvent)
  | start
  | startup (j : ℕ) (e : StartEvent)
  deriving DecidableEq, Repr

namespace OrderStore

/-- A database, and nothing under way. -/
def initial (db : Database) : OrderStore := ⟨db, [], []⟩

/-- The orders that transactions under way have inserted. -/
def uncommitted (s : OrderStore) : List Order :=
  s.creates.filterMap CreateCall.row? ++ s.starts.flatMap StartStage.rows

/-- The numbers of orders, and those that transactions under way have drawn. -/
def numbers (s : OrderStore) : List ℤ := s.db.orders.map Order.id ++ s.creates.filterMap CreateCall.number?

/-- One statement of a call. An insertion draws a number unless its parameters are refused; an insertion of a
number that another transaction under way has inserted waits for its end. -/
def stepCreate (s : OrderStore) (call : CreateCall) : CreateEvent → Option (Database × CreateStage)
  | .select =>
    match call.stage with
    | .begun =>
      some (s.db, if call.productSku ∈ s.db.products.map Product.sku then .productFound else .notFound)
    | _ => none
  | .draw =>
    match call.stage with
    | .productFound =>
      match insertOrderRefusal call.customerId call.quantity with
      | some e => some (s.db, .failed e)
      | none => some ({ s.db with ordersSeq := s.db.ordersSeq + 1 }, .drawn (s.db.ordersSeq + 1))
    | _ => none
  | .insert =>
    match call.stage with
    | .drawn id =>
      match s.db.checkNumbered id call.customerId call.productSku call.quantity call.now with
      | .error e => some (s.db, .failed e)
      | .ok row => if id ∈ s.uncommitted.map Order.id then none else some (s.db, .inserted row)
    | _ => none
  | .commit =>
    match call.stage with
    | .inserted row => some ({ s.db with orders := s.db.orders ++ [row] }, .created row.id)
    | _ => none
  | .lose => if call.stage.isOpen then some (s.db, .lost) else none

/-- One statement of a start. A seeded row waits for the end of a transaction under way that has inserted its
number. -/
def stepStart (s : OrderStore) (stage : StartStage) : StartEvent → Option (Database × StartStage)
  | .seed =>
    match stage with
    | .begun =>
      let after := s.db.seed seedProducts seedOrders
      let orders := after.orders.drop s.db.orders.length
      if ∃ o ∈ orders, o.id ∈ s.uncommitted.map Order.id then none
      else some (s.db, .seeded (after.products.drop s.db.products.length) orders)
    | _ => none
  | .measure =>
    match stage with
    | .seeded products orders =>
      some (s.db, .measured products orders ((s.db.orders ++ orders).map Order.id).max?)
    | _ => none
  | .reset =>
    match stage with
    | .measured products orders top =>
      some ({ s.db with ordersSeq := top.getD s.db.ordersSeq }, .reset products orders)
    | _ => none
  | .commit =>
    match stage with
    | .reset products orders =>
      some ({ s.db with products := s.db.products ++ products, orders := s.db.orders ++ orders }, .committed)
    | _ => none
  | .lose =>
    match stage with
    | .committed | .lost => none
    | _ => some (s.db, .lost)

/-- One event of the store. -/
def step (s : OrderStore) : OrderStoreEvent → Option OrderStore
  | .call c sku quantity now => some { s with creates := s.creates ++ [⟨c, sku, quantity, now, .begun⟩] }
  | .create i e =>
    match s.creates[i]? with
    | none => none
    | some call => (s.stepCreate call e).map fun out =>
        { s with db := out.1, creates := s.creates.set i { call with stage := out.2 } }
  | .start => some { s with starts := s.starts ++ [.begun] }
  | .startup j e =>
    match s.starts[j]? with
    | none => none
    | some stage => (s.stepStart stage e).map fun out =>
        { s with db := out.1, starts := s.starts.set j out.2 }

/-- A start sets the sequence to a number that is not behind the number of any order or of any transaction
under way. -/
def ResetsAhead (s : OrderStore) : OrderStoreEvent → Prop
  | .startup j .reset => ∀ top ∈ (s.starts[j]?).bind StartStage.top?, ∀ id ∈ s.numbers, id ≤ top
  | _ => True

instance (s : OrderStore) : (e : OrderStoreEvent) → Decidable (s.ResetsAhead e)
  | .startup j .reset =>
    inferInstanceAs (Decidable (∀ top ∈ (s.starts[j]?).bind StartStage.top?, ∀ id ∈ s.numbers, id ≤ top))
  | .startup _ .seed | .startup _ .measure | .startup _ .commit | .startup _ .lose => .isTrue trivial
  | .call _ _ _ _ | .create _ _ | .start => .isTrue trivial

section Moves

variable {s s' : OrderStore} {call : CreateCall}

/-- What a statement of a call does to the tables and to the call. -/
inductive CreateMoves (s : OrderStore) (call : CreateCall) : Database → CreateStage → Prop
  | selected (stage : CreateStage) (h : call.stage = .begun) (hstage : stage = .productFound ∨ stage = .notFound) :
      CreateMoves s call s.db stage
  | refusedBefore (e : SqlError) (h : call.stage = .productFound)
      (hrefusal : insertOrderRefusal call.customerId call.quantity = some e) : CreateMoves s call s.db (.failed e)
  | drew (h : call.stage = .productFound) :
      CreateMoves s call { s.db with ordersSeq := s.db.ordersSeq + 1 } (.drawn (s.db.ordersSeq + 1))
  | refused (id : ℤ) (e : SqlError) (h : call.stage = .drawn id)
      (hcheck : s.db.checkNumbered id call.customerId call.productSku call.quantity call.now = .error e) :
      CreateMoves s call s.db (.failed e)
  | wrote (id : ℤ) (row : Order) (h : call.stage = .drawn id) (hrow : row.id = id) :
      CreateMoves s call s.db (.inserted row)
  | committed (row : Order) (h : call.stage = .inserted row) :
      CreateMoves s call { s.db with orders := s.db.orders ++ [row] } (.created row.id)
  | lost : CreateMoves s call s.db .lost

/-- A number that no order has breaks no primary key. -/
theorem checkNumbered_ne_uniqueViolation {db : Database} {id quantity : ℤ} {c sku now : String}
    (h : id ∉ db.orders.map Order.id) :
    db.checkNumbered id c sku quantity now ≠ .error (.uniqueViolation "orders_pkey") := by
  unfold Database.checkNumbered
  cases Quantity.ofInt? quantity with
  | none => simp
  | some q =>
    simp only
    rw [if_neg h]
    split <;> simp

/-- Every statement of a call does one of these. -/
theorem stepCreate_moves {e : CreateEvent} {db : Database} {stage : CreateStage}
    (h : s.stepCreate call e = some (db, stage)) : CreateMoves s call db stage := by
  cases e with
  | select =>
    cases hstage : call.stage with
    | begun =>
      simp only [stepCreate, hstage, Option.some.injEq, Prod.mk.injEq] at h
      obtain ⟨rfl, rfl⟩ := h
      exact .selected _ hstage (by split <;> simp)
    | _ => simp [stepCreate, hstage] at h
  | draw =>
    cases hstage : call.stage with
    | productFound =>
      cases hrefusal : insertOrderRefusal call.customerId call.quantity with
      | none =>
        simp only [stepCreate, hstage, hrefusal, Option.some.injEq, Prod.mk.injEq] at h
        obtain ⟨rfl, rfl⟩ := h
        exact .drew hstage
      | some e =>
        simp only [stepCreate, hstage, hrefusal, Option.some.injEq, Prod.mk.injEq] at h
        obtain ⟨rfl, rfl⟩ := h
        exact .refusedBefore e hstage hrefusal
    | _ => simp [stepCreate, hstage] at h
  | insert =>
    cases hstage : call.stage with
    | drawn id =>
      cases hcheck : s.db.checkNumbered id call.customerId call.productSku call.quantity call.now with
      | error e =>
        simp only [stepCreate, hstage, hcheck, Option.some.injEq, Prod.mk.injEq] at h
        obtain ⟨rfl, rfl⟩ := h
        exact .refused id e hstage hcheck
      | ok row =>
        simp only [stepCreate, hstage, hcheck, Option.ite_none_left_eq_some, Option.some.injEq,
          Prod.mk.injEq] at h
        obtain ⟨-, rfl, rfl⟩ := h
        exact .wrote id row hstage (Database.checkNumbered_eq_ok hcheck).1
    | _ => simp [stepCreate, hstage] at h
  | commit =>
    cases hstage : call.stage with
    | inserted row =>
      simp only [stepCreate, hstage, Option.some.injEq, Prod.mk.injEq] at h
      obtain ⟨rfl, rfl⟩ := h
      exact .committed row hstage
    | _ => simp [stepCreate, hstage] at h
  | lose =>
    simp only [stepCreate, Option.ite_none_right_eq_some, Option.some.injEq, Prod.mk.injEq] at h
    obtain ⟨-, rfl, rfl⟩ := h
    exact .lost

/-- What a statement of a start does to the tables and to the start. -/
inductive StartMoves (s : OrderStore) (stage : StartStage) : StartEvent → Database → StartStage → Prop
  | seeded (products : List Product) :
      StartMoves s stage .seed s.db
        (.seeded products ((s.db.seed seedProducts seedOrders).orders.drop s.db.orders.length))
  | measured (products : List Product) (orders : List Order) (top : Option ℤ) (h : stage = .seeded products orders) :
      StartMoves s stage .measure s.db (.measured products orders top)
  | reset (products : List Product) (orders : List Order) (top : Option ℤ) (h : stage = .measured products orders top) :
      StartMoves s stage .reset { s.db with ordersSeq := top.getD s.db.ordersSeq } (.reset products orders)
  | committed (products : List Product) (orders : List Order) (h : stage = .reset products orders) :
      StartMoves s stage .commit
        { s.db with products := s.db.products ++ products, orders := s.db.orders ++ orders } .committed
  | lost : StartMoves s stage .lose s.db .lost

/-- Every statement of a start does one of these. -/
theorem stepStart_moves {stage stage' : StartStage} {e : StartEvent} {db : Database}
    (h : s.stepStart stage e = some (db, stage')) : StartMoves s stage e db stage' := by
  cases e with
  | seed =>
    cases stage with
    | begun =>
      simp only [stepStart, Option.ite_none_left_eq_some, Option.some.injEq, Prod.mk.injEq] at h
      obtain ⟨-, rfl, rfl⟩ := h
      exact .seeded _
    | _ => simp [stepStart] at h
  | measure =>
    cases stage with
    | seeded products orders =>
      obtain ⟨rfl, rfl⟩ := Prod.mk.inj (Option.some.inj h)
      exact .measured _ _ _ rfl
    | _ => simp [stepStart] at h
  | reset =>
    cases stage with
    | measured products orders top =>
      obtain ⟨rfl, rfl⟩ := Prod.mk.inj (Option.some.inj h)
      exact .reset _ _ _ rfl
    | _ => simp [stepStart] at h
  | commit =>
    cases stage with
    | reset products orders =>
      obtain ⟨rfl, rfl⟩ := Prod.mk.inj (Option.some.inj h)
      exact .committed _ _ rfl
    | _ => simp [stepStart] at h
  | lose =>
    cases stage with
    | committed => simp [stepStart] at h
    | lost => simp [stepStart] at h
    | _ =>
      obtain ⟨rfl, rfl⟩ := Prod.mk.inj (Option.some.inj h)
      exact .lost

end Moves

/-- Numbers are used once and the sequence is not behind any; the seeded orders are there, so that starts insert
none; and no call has failed on the primary key. -/
structure Numbered (s : OrderStore) : Prop where
  ahead : Ahead s.db.ordersSeq s.numbers
  seeded : ∀ o ∈ seedOrders, o.id ∈ s.db.orders.map Order.id
  starts : ∀ stage ∈ s.starts, stage.rows = []
  noViolation : ∀ call ∈ s.creates, call.stage ≠ .failed (.uniqueViolation "orders_pkey")

section Kept

variable {s s' : OrderStore}

/-- The numbers of a store, with those of one call in front; the others change only with the tables. -/
theorem exists_other_numbers {i : ℕ} {call : CreateCall} (hcall : s.creates[i]? = some call) :
    ∃ others, s.numbers.Perm (call.number?.toList ++ others) ∧ (∀ id ∈ s.db.orders.map Order.id, id ∈ others) ∧
      ∀ (db : Database) (call' : CreateCall) (starts : List StartStage) (new : List ℤ),
        db.orders.map Order.id = s.db.orders.map Order.id ++ new →
        (⟨db, s.creates.set i call', starts⟩ : OrderStore).numbers.Perm (call'.number?.toList ++ (new ++ others)) := by
  obtain ⟨held, hbefore, hafter⟩ := exists_others (f := CreateCall.number?) hcall
  refine ⟨s.db.orders.map Order.id ++ held, ?_, fun id hid => List.mem_append_left _ hid,
    fun db call' starts new hnew => ?_⟩
  · exact (hbefore.append_left _).trans (List.perm_append_comm_assoc _ _ _)
  · have hnumbers : (⟨db, s.creates.set i call', starts⟩ : OrderStore).numbers =
        (s.db.orders.map Order.id ++ new) ++ (s.creates.set i call').filterMap CreateCall.number? := by
      rw [← hnew]
      rfl
    rw [hnumbers]
    have hset := ((hafter call').append_left (s.db.orders.map Order.id ++ new)).trans
      (List.perm_append_comm_assoc _ _ _)
    refine hset.trans (List.Perm.append_left _ ?_)
    rw [← List.append_assoc]
    exact List.perm_append_comm.append_right _

/-- Every stage of a call but the last keeps away from the primary key. -/
theorem noViolation_set {creates : List CreateCall} {i : ℕ} {call : CreateCall}
    (hall : ∀ call ∈ creates, call.stage ≠ .failed (.uniqueViolation "orders_pkey"))
    (hcall : call.stage ≠ .failed (.uniqueViolation "orders_pkey")) :
    ∀ call' ∈ creates.set i call, call'.stage ≠ .failed (.uniqueViolation "orders_pkey") := by
  intro call' hmem
  rcases List.mem_or_eq_of_mem_set hmem with hold | rfl
  · exact hall call' hold
  · exact hcall

/-- A statement of a call uses no number twice. -/
theorem Numbered.create (h : Numbered s) {i : ℕ} {call : CreateCall} (hcall : s.creates[i]? = some call)
    {db : Database} {stage : CreateStage} (hmoves : CreateMoves s call db stage) :
    Numbered { s with db := db, creates := s.creates.set i { call with stage := stage } } := by
  obtain ⟨others, hbefore, hcommitted, hafter⟩ := exists_other_numbers hcall
  have hahead := h.ahead.perm hbefore
  have hmoved : ∀ (db' : Database) (stage' : CreateStage) (new : List ℤ),
      db'.orders.map Order.id = s.db.orders.map Order.id ++ new →
      Ahead db'.ordersSeq (({ call with stage := stage' } : CreateCall).number?.toList ++ (new ++ others)) →
      Ahead db'.ordersSeq
        (⟨db', s.creates.set i { call with stage := stage' }, s.starts⟩ : OrderStore).numbers :=
    fun db' stage' new hnew hused => hused.perm (hafter db' _ s.starts new hnew).symm
  have hsame : s.db.orders.map Order.id = s.db.orders.map Order.id ++ [] := (List.append_nil _).symm
  -- A call that holds nothing afterwards has let go of what it held.
  have hfree : Ahead s.db.ordersSeq others := by
    cases hnumber : call.number? with
    | none => rwa [hnumber] at hahead
    | some id =>
      rw [hnumber] at hahead
      exact hahead.release
  cases hmoves with
  | selected stage hbegun hstage =>
    rcases hstage with rfl | rfl
    · exact ⟨hmoved s.db .productFound [] hsame hfree, h.seeded, h.starts,
        noViolation_set h.noViolation CreateStage.noConfusion⟩
    · exact ⟨hmoved s.db .notFound [] hsame hfree, h.seeded, h.starts,
        noViolation_set h.noViolation CreateStage.noConfusion⟩
  | refusedBefore e hfound hrefusal =>
    refine ⟨hmoved s.db (.failed e) [] hsame hfree, h.seeded, h.starts,
      noViolation_set h.noViolation fun hviolation => ?_⟩
    obtain rfl := CreateStage.failed.inj hviolation
    exact insertOrderRefusal_ne_uniqueViolation _ _ _ hrefusal
  | drew hfound =>
    exact ⟨hmoved { s.db with ordersSeq := s.db.ordersSeq + 1 } _ [] hsame hfree.draw, h.seeded, h.starts,
      noViolation_set h.noViolation CreateStage.noConfusion⟩
  | refused id e hdrawn hcheck =>
    refine ⟨hmoved s.db (.failed e) [] hsame hfree, h.seeded, h.starts,
      noViolation_set h.noViolation fun hviolation => ?_⟩
    -- The number is not the one of an order, so the primary key was not what refused it.
    have hnumber : call.number? = some id := by rw [CreateCall.number?, hdrawn]
    rw [hnumber] at hahead
    have hnew : id ∉ s.db.orders.map Order.id := fun hid => hahead.notMem (hcommitted id hid)
    obtain rfl := CreateStage.failed.inj hviolation
    exact checkNumbered_ne_uniqueViolation hnew hcheck
  | wrote id row hdrawn hrow =>
    have hnumber : call.number? = some id := by rw [CreateCall.number?, hdrawn]
    rw [hnumber, ← hrow] at hahead
    exact ⟨hmoved s.db (.inserted row) [] hsame hahead, h.seeded, h.starts,
      noViolation_set h.noViolation CreateStage.noConfusion⟩
  | committed row hinserted =>
    have hnumber : call.number? = some row.id := by rw [CreateCall.number?, hinserted]
    rw [hnumber] at hahead
    refine ⟨hmoved { s.db with orders := s.db.orders ++ [row] } (.created row.id) [row.id] List.map_append hahead,
      fun o ho => ?_, h.starts, noViolation_set h.noViolation CreateStage.noConfusion⟩
    rw [List.map_append]
    exact List.mem_append_left _ (h.seeded o ho)
  | lost =>
    exact ⟨hmoved s.db .lost [] hsame hfree, h.seeded, h.starts,
      noViolation_set h.noViolation CreateStage.noConfusion⟩

/-- When the seeded orders are there, a start inserts none. -/
theorem drop_seed_eq_nil {db : Database} (h : ∀ o ∈ seedOrders, o.id ∈ db.orders.map Order.id) :
    (db.seed seedProducts seedOrders).orders.drop db.orders.length = [] := by
  have hsame : seedOrders.foldl (KeyedTable.insertIgnore Order.id) db.orders = db.orders :=
    KeyedTable.foldl_insertIgnore_of_mem Order.id h
  unfold Database.seed
  rw [hsame, List.drop_length]

/-- A start that has inserted no order does not when one of its stages is followed by the next. -/
theorem rows_set {starts : List StartStage} {j : ℕ} {stage : StartStage}
    (hall : ∀ stage ∈ starts, stage.rows = []) (hrows : stage.rows = []) :
    ∀ stage' ∈ starts.set j stage, stage'.rows = [] := by
  intro stage' hmem
  rcases List.mem_or_eq_of_mem_set hmem with hold | rfl
  · exact hall stage' hold
  · exact hrows

/-- A statement of a start uses no number twice, if the sequence is not set behind one. -/
theorem Numbered.startup (h : Numbered s) {j : ℕ} {stage stage' : StartStage} {e : StartEvent}
    (hstage : s.starts[j]? = some stage) {db : Database} (hcond : s.ResetsAhead (.startup j e))
    (hmoves : StartMoves s stage e db stage') :
    Numbered { s with db := db, starts := s.starts.set j stage' } := by
  have hrows : stage.rows = [] := h.starts stage (List.mem_of_getElem? hstage)
  cases hmoves with
  | seeded products =>
    exact ⟨h.ahead, h.seeded, rows_set h.starts (drop_seed_eq_nil h.seeded), h.noViolation⟩
  | measured products orders top hseeded =>
    subst hseeded
    exact ⟨h.ahead, h.seeded, rows_set h.starts hrows, h.noViolation⟩
  | reset products orders top hmeasured =>
    subst hmeasured
    refine ⟨?_, h.seeded, rows_set h.starts hrows, h.noViolation⟩
    cases top with
    | none => exact h.ahead
    | some top => exact h.ahead.reset (hcond top (by simp [hstage, StartStage.top?]))
  | committed products orders hreset =>
    subst hreset
    obtain rfl : orders = [] := hrows
    refine ⟨?_, ?_, rows_set h.starts rfl, h.noViolation⟩
    · simpa [numbers] using h.ahead
    · simpa using h.seeded
  | lost => exact ⟨h.ahead, h.seeded, rows_set h.starts rfl, h.noViolation⟩

/-- A step that does not set the sequence behind a number uses none twice. -/
theorem Numbered.step (h : Numbered s) {e : OrderStoreEvent} (hcond : s.ResetsAhead e)
    (hstep : s.step e = some s') : Numbered s' := by
  cases e with
  | call c sku quantity now =>
    obtain rfl := Option.some.inj hstep
    refine ⟨?_, h.seeded, h.starts, fun call hmem => ?_⟩
    · have hnumbers : (s.creates ++ [(⟨c, sku, quantity, now, .begun⟩ : CreateCall)]).filterMap CreateCall.number? =
          s.creates.filterMap CreateCall.number? := by
        rw [List.filterMap_append]
        exact List.append_nil _
      unfold numbers
      rw [hnumbers]
      exact h.ahead
    · rcases List.mem_append.mp hmem with hold | hnew
      · exact h.noViolation call hold
      · obtain rfl := List.mem_singleton.mp hnew
        simp
  | create i e =>
    cases hcall : s.creates[i]? with
    | none => simp [OrderStore.step, hcall] at hstep
    | some call =>
      simp only [OrderStore.step, hcall] at hstep
      obtain ⟨⟨db, stage⟩, hout, rfl⟩ := Option.map_eq_some_iff.mp hstep
      exact h.create hcall (stepCreate_moves hout)
  | start =>
    obtain rfl := Option.some.inj hstep
    refine ⟨h.ahead, h.seeded, fun stage hmem => ?_, h.noViolation⟩
    rcases List.mem_append.mp hmem with hold | hnew
    · exact h.starts stage hold
    · obtain rfl := List.mem_singleton.mp hnew
      rfl
  | startup j e =>
    cases hstage : s.starts[j]? with
    | none => simp [OrderStore.step, hstage] at hstep
    | some stage =>
      simp only [OrderStore.step, hstage] at hstep
      obtain ⟨⟨db, stage'⟩, hout, rfl⟩ := Option.map_eq_some_iff.mp hstep
      exact h.startup hstage hcond (stepStart_moves hout)

end Kept

end OrderStore

/-- What transactions and starts that follow each other keep: every number is used once, the sequence is not
behind any, and the seeded orders are there. -/
structure Database.NumbersKept (db : Database) : Prop where
  ahead : Ahead db.ordersSeq (db.orders.map Order.id)
  seeded : ∀ o ∈ seedOrders, o.id ∈ db.orders.map Order.id

section Reached

variable {db db' : Database}

/-- Only the numbers of orders and the sequence matter. -/
theorem Database.NumbersKept.of_eq (h : db.NumbersKept) (hids : db'.orders.map Order.id = db.orders.map Order.id)
    (hseq : db.ordersSeq ≤ db'.ordersSeq) : db'.NumbersKept where
  ahead := by
    rw [hids]
    exact h.ahead.reset fun n hn => (h.ahead.le n hn).trans hseq
  seeded o ho := hids ▸ h.seeded o ho

/-- A change of status renumbers nothing. -/
theorem Database.NumbersKept.setOrderStatus (h : db.NumbersKept) (n : ℤ) (st : OrderStatus) :
    (db.setOrderStatus n st).NumbersKept := by
  refine h.of_eq ?_ le_rfl
  unfold Database.setOrderStatus
  apply KeyedTable.map_key_update
  intro o
  rfl

/-- The next order gets the next number. -/
theorem Database.NumbersKept.insertOrder (h : db.NumbersKept) {row : Order} (hrow : row.id = db.ordersSeq + 1) :
    { db with orders := db.orders ++ [row], ordersSeq := row.id : Database }.NumbersKept where
  ahead := by
    have hdrawn := hrow ▸ h.ahead.draw
    refine hdrawn.perm ?_
    rw [List.map_append]
    exact (List.perm_append_singleton _ _).symm
  seeded o ho := by
    rw [List.map_append]
    exact List.mem_append_left _ (h.seeded o ho)

/-- Setting the sequence to the greatest number puts it behind none. -/
theorem Database.ahead_resetSequence (hkey : KeyedTable.Unique Order.id db.orders) :
    Ahead db.resetSequence.ordersSeq (db.resetSequence.orders.map Order.id) := by
  cases hmax : (db.orders.map Order.id).max? with
  | none =>
    have hempty : db.orders.map Order.id = [] := List.max?_eq_none_iff.mp hmax
    have hsame : db.resetSequence = db := by
      unfold Database.resetSequence
      rw [hmax]
    rw [hsame, hempty]
    exact ⟨List.nodup_nil, fun n hn => absurd hn List.not_mem_nil⟩
  | some top =>
    rw [Database.resetSequence_of_max hmax]
    exact ⟨hkey, (List.max?_eq_some_iff.mp hmax).2⟩

/-- Seeding leaves numbers unique, and those of the batch are there afterwards. -/
theorem Database.seed_numbers (hkey : KeyedTable.Unique Order.id db.orders) (products : List Product)
    (batch : List Order) : KeyedTable.Unique Order.id (db.seed products batch).orders ∧
      ∀ o ∈ batch, o.id ∈ (db.seed products batch).resetSequence.orders.map Order.id := by
  obtain ⟨seq, hseq⟩ := (db.seed products batch).resetSequence_eq
  rw [hseq]
  exact ⟨hkey.foldl_insertIgnore batch, fun o ho => KeyedTable.key_mem_foldl_insertIgnore Order.id ho⟩

/-- A start on unique numbers seeds what is missing and sets the sequence to the greatest number. -/
theorem Database.numbersKept_initializeDatabase (hkey : KeyedTable.Unique Order.id db.orders) :
    (initializeDatabase db).NumbersKept :=
  have hseed := Database.seed_numbers hkey seedProducts seedOrders
  ⟨Database.ahead_resetSequence hseed.1, hseed.2⟩

/-- An event of a run keeps numbers used once. -/
theorem Database.NumbersKept.step (h : db.NumbersKept) (hinv : StoreInvariant db) {e : StoreEvent}
    (hstep : storeStep db e = some db') : db'.NumbersKept := by
  cases storeStep_moves hinv.schema hstep with
  | unchanged _ => exact h
  | created c sku quantity now row hrow => exact h.insertOrder (Database.checkOrder_eq_ok hrow).1
  | cancelled n c o _ _ => exact h.setOrderStatus n .cancelled
  | refunded n c reason key o amount _ _ _ _ _ =>
    have hinserted : { db with refunds := db.refunds ++ [⟨n, amount, reason, key⟩] : Database }.NumbersKept :=
      ⟨h.ahead, h.seeded⟩
    exact hinserted.setOrderStatus n .refunded
  | drawn e k _ => exact h.of_eq rfl (by simp)
  | restarted => exact Database.numbersKept_initializeDatabase hinv.schema.ordersKey
  | fulfilled o st _ _ => exact h.setOrderStatus o.id st

/-- In every database that a run reaches, numbers are used once. -/
theorem numbersKept_of_reached {past : List StoreEvent}
    (hreach : runFrom storeStep (initializeDatabase .empty) past = some db) : db.NumbersKept := by
  have hstart : (initializeDatabase .empty).NumbersKept :=
    Database.numbersKept_initializeDatabase storeInvariant_empty.schema.ordersKey
  have hboth := runFrom_invariant storeStep (fun mid => StoreInvariant mid ∧ mid.NumbersKept)
    (fun mid e next hmid hstep =>
      ⟨(storeStep_safe hmid.1.toStoreSound hstep).invariant hmid.1, hmid.2.step hmid.1 hstep⟩)
    hreach ⟨storeInvariant_seeded, hstart⟩
  exact hboth.2

/-- With nothing under way that is all there is to keep. -/
theorem OrderStore.numbered_initial (h : db.NumbersKept) : (initial db).Numbered where
  ahead := by
    have hnumbers : (initial db).numbers = db.orders.map Order.id := List.append_nil _
    rw [hnumbers]
    exact h.ahead
  seeded := h.seeded
  starts _ hmem := absurd hmem List.not_mem_nil
  noViolation _ hmem := absurd hmem List.not_mem_nil

end Reached

namespace OrderStore

section Alone

variable {db : Database}

/-- Seeding leaves the sequence alone. -/
theorem ordersSeq_seed (db : Database) (products : List Product) (orders : List Order) :
    (db.seed products orders).ordersSeq = db.ordersSeq := rfl

/-- A start with nothing beside it does what `initialize_database` does as one transaction. -/
theorem start_alone : runFrom step (initial db)
    [.start, .startup 0 .seed, .startup 0 .measure, .startup 0 .reset, .startup 0 .commit] =
      some ⟨initializeDatabase db, [], [.committed]⟩ := by
  obtain ⟨⟨products, hproducts⟩, ⟨orders, horders⟩, hrefunds⟩ := db.seed_grows seedProducts seedOrders
  have hseq := ordersSeq_seed db seedProducts seedOrders
  unfold initializeDatabase
  generalize hafter : db.seed seedProducts seedOrders = after at hproducts horders hrefunds hseq ⊢
  have hseed : (⟨db, [], [.begun]⟩ : OrderStore).stepStart .begun .seed = some (db, .seeded products orders) := by
    simp only [stepStart, hafter, ← hproducts, ← horders, List.drop_left]
    exact if_neg (by simp [uncommitted, StartStage.rows])
  have hseeded : (⟨db, [], [.begun]⟩ : OrderStore).step (.startup 0 .seed) =
      some ⟨db, [], [.seeded products orders]⟩ := congrArg (Option.map _) hseed
  have hreset : after.resetSequence =
      ⟨db.products ++ products, db.orders ++ orders, db.refunds,
        ((db.orders ++ orders).map Order.id).max?.getD db.ordersSeq⟩ := by
    unfold Database.resetSequence
    rw [hproducts, horders, ← hrefunds, ← hseq]
    cases (after.orders.map Order.id).max? <;> rfl
  rw [hreset]
  have hbegun : (initial db).step .start = some ⟨db, [], [.begun]⟩ := rfl
  rw [runFrom, hbegun, Option.bind_some, runFrom, hseeded, Option.bind_some]
  rfl

/-- What a transaction that inserts with this number has come to. -/
def endOf (id : ℤ) : Except SqlError (Option OrderView × Database) → CreateStage
  | .error e => .failed e
  | .ok (none, _) => .notFound
  | .ok (some _, _) => .created id

/-- The order that has been inserted is read back. -/
theorem exists_orderView {db : Database} {c sku now : String} {quantity : ℤ} {row : Order}
    (hrow : db.checkOrder c sku quantity now = .ok row) :
    ∃ view, (({ db with orders := db.orders ++ [row], ordersSeq := row.id } : Database).orderViews row.id).head? =
      some view := by
  obtain ⟨-, -, hsku, -, -, p, hp, hpsku⟩ := Database.checkOrder_eq_ok hrow
  let after : Database := { db with orders := db.orders ++ [row], ordersSeq := row.id }
  have hjoin : p ∈ after.joinProducts row := List.mem_filter.mpr ⟨hp, by simp [hpsku, hsku]⟩
  have horder : row ∈ after.orders.filter fun o => o.id = row.id :=
    List.mem_filter.mpr ⟨List.mem_append_right _ (List.mem_singleton_self row), by simp⟩
  have hview : ∃ view, view ∈ after.orderViews row.id :=
    ⟨_, List.mem_flatMap.mpr ⟨row, horder, List.mem_map.mpr ⟨p, hjoin, rfl⟩⟩⟩
  obtain ⟨view, hview⟩ := hview
  exact ⟨_, List.head?_eq_some_head (List.ne_nil_of_mem hview)⟩

section Calls

variable {c sku now : String} {quantity : ℤ}

/-- The call after its first statement. -/
theorem select_alone (db : Database) (c sku now : String) (quantity : ℤ) :
    runFrom step (initial db) [.call c sku quantity now, .create 0 .select] =
      some ⟨db, [⟨c, sku, quantity, now, if sku ∈ db.products.map Product.sku then .productFound else .notFound⟩],
        []⟩ :=
  rfl

/-- The call after its insertion, whatever has come of it. -/
theorem insert_alone (hsku : sku ∈ db.products.map Product.sku) (hsent : insertOrderRefusal c quantity = none)
    (stage : CreateStage)
    (hstage : stage = match db.checkOrder c sku quantity now with
      | .error e => .failed e
      | .ok row => .inserted row) :
    runFrom step (initial db) [.call c sku quantity now, .create 0 .select, .create 0 .draw, .create 0 .insert] =
      some ⟨{ db with ordersSeq := db.ordersSeq + 1 }, [⟨c, sku, quantity, now, stage⟩], []⟩ := by
  let drawn : Database := { db with ordersSeq := db.ordersSeq + 1 }
  have hdraw : (⟨db, [⟨c, sku, quantity, now, .productFound⟩], []⟩ : OrderStore).step (.create 0 .draw) =
      some ⟨drawn, [⟨c, sku, quantity, now, .drawn (db.ordersSeq + 1)⟩], []⟩ := by
    simp [step, stepCreate, hsent, drawn]
  have hchecked : db.checkOrder c sku quantity now =
      drawn.checkNumbered (db.ordersSeq + 1) c sku quantity now := by
    simp only [Database.checkOrder, hsent]
    rfl
  have hinsert : (⟨drawn, [⟨c, sku, quantity, now, .drawn (db.ordersSeq + 1)⟩], []⟩ : OrderStore).step
      (.create 0 .insert) = some ⟨drawn, [⟨c, sku, quantity, now, stage⟩], []⟩ := by
    rw [hstage, hchecked]
    cases hcheck : drawn.checkNumbered (db.ordersSeq + 1) c sku quantity now with
    | error e => simp [step, stepCreate, hcheck]
    | ok row => simp [step, stepCreate, hcheck, uncommitted, CreateCall.row?]
  have hselect := select_alone db c sku now quantity
  rw [if_pos hsku] at hselect
  have hlater : runFrom step (⟨db, [⟨c, sku, quantity, now, .productFound⟩], []⟩ : OrderStore)
      [.create 0 .draw, .create 0 .insert] = some ⟨drawn, [⟨c, sku, quantity, now, stage⟩], []⟩ := by
    rw [runFrom, hdraw, Option.bind_some, runFrom, hinsert]
    rfl
  have hall := (runFrom_append_eq_some step).mpr ⟨_, hselect, hlater⟩
  exact hall

end Calls

/-- A call with nothing beside it does what `create_order_row` does as one transaction, and ends as that does:
the product is not found, the row is created, or the insertion fails with its number drawn. -/
theorem create_alone (db : Database) (c sku now : String) (quantity : ℤ) :
    ∃ events : List CreateEvent, runFrom step (initial db) (.call c sku quantity now :: events.map (.create 0)) =
      some ⟨(createOrderRow c sku quantity now).commit db,
        [⟨c, sku, quantity, now, endOf (db.ordersSeq + 1) ((createOrderRow c sku quantity now).run db)⟩], []⟩ := by
  have hout := createOrderRow_outcome db c sku quantity now
  unfold Tx.commit
  generalize hrun : (createOrderRow c sku quantity now).run db = out at hout
  cases hout with
  | unknownProduct hsku =>
    refine ⟨[.select], (select_alone db c sku now quantity).trans ?_⟩
    rw [if_neg hsku]
    rfl
  | created row view hrow =>
    obtain ⟨hid, -, -, -, -, hproduct⟩ := Database.checkOrder_eq_ok hrow
    obtain ⟨view', hview'⟩ := exists_orderView hrow
    have hsent : insertOrderRefusal c quantity = none := by
      cases hrefusal : insertOrderRefusal c quantity with
      | none => rfl
      | some e => simp [Database.checkOrder, hrefusal] at hrow
    have hinsert := insert_alone (List.mem_map.mpr hproduct) hsent (.inserted row) (by rw [hrow])
    rw [createOrderRow_run hrow, hview'] at hrun
    obtain rfl : some view' = view := congrArg Prod.fst (Except.ok.inj hrun)
    have hcommit : (⟨{ db with ordersSeq := db.ordersSeq + 1 }, [⟨c, sku, quantity, now, .inserted row⟩], []⟩ :
        OrderStore).step (.create 0 .commit) =
          some ⟨{ db with orders := db.orders ++ [row], ordersSeq := row.id },
            [⟨c, sku, quantity, now, .created (db.ordersSeq + 1)⟩], []⟩ := by
      rw [← hid]
      rfl
    have hall := (runFrom_append_eq_some step).mpr ⟨_, hinsert, (runFrom_singleton step _ _).trans hcommit⟩
    exact ⟨[.select, .draw, .insert, .commit], hall⟩
  | failed e hsku hcheck =>
    cases hrefusal : insertOrderRefusal c quantity with
    | none =>
      have hinsert := insert_alone hsku hrefusal (.failed e) (by rw [hcheck])
      refine ⟨[.select, .draw, .insert], hinsert.trans ?_⟩
      simp only [Tx.rolledBack, createOrderRow_drawn hsku hcheck, hrefusal]
      rfl
    | some refusal =>
      have hdraw : (⟨db, [⟨c, sku, quantity, now, .productFound⟩], []⟩ : OrderStore).step (.create 0 .draw) =
          some ⟨db, [⟨c, sku, quantity, now, .failed e⟩], []⟩ := by
        have hsame : refusal = e := by simpa [Database.checkOrder, hrefusal] using hcheck
        simp [step, stepCreate, hrefusal, hsame]
      have hselect := select_alone db c sku now quantity
      rw [if_pos hsku] at hselect
      have hall := (runFrom_append_eq_some step).mpr ⟨_, hselect, (runFrom_singleton step _ _).trans hdraw⟩
      refine ⟨[.select, .draw], hall.trans ?_⟩
      simp [Tx.rolledBack, createOrderRow_drawn hsku hcheck, hrefusal, endOf]

end Alone

/-- No number is used twice, a call that has drawn one and whose row meets the other constraints inserts it,
and no call has failed on the primary key. -/
structure NumbersUsedOnce (s : OrderStore) : Prop where
  once : s.numbers.Nodup
  inserts : ∀ call ∈ s.creates, ∀ id q, call.stage = .drawn id → Quantity.ofInt? call.quantity = some q →
    call.productSku ∈ s.db.products.map Product.sku → s.stepCreate call .insert =
      some (s.db, .inserted ⟨id, call.customerId, call.productSku, q, .pending, call.now⟩)
  noViolation : ∀ call ∈ s.creates, call.stage ≠ .failed (.uniqueViolation "orders_pkey")

/-- A drawn number is the one of no order and of no row that a transaction under way has inserted. -/
theorem Numbered.drawn_notMem {s : OrderStore} (h : s.Numbered) {call : CreateCall} (hcall : call ∈ s.creates)
    {id : ℤ} (hdrawn : call.stage = .drawn id) :
    id ∉ s.db.orders.map Order.id ∧ id ∉ s.uncommitted.map Order.id := by
  have hnumber : call.number? = some id := by rw [CreateCall.number?, hdrawn]
  have hheld : id ∈ s.creates.filterMap CreateCall.number? := List.mem_filterMap.mpr ⟨call, hcall, hnumber⟩
  obtain ⟨-, hcreates, hapart⟩ := List.nodup_append.mp h.ahead.nodup
  refine ⟨fun hid => hapart id hid id hheld rfl, fun hid => ?_⟩
  obtain ⟨row, hrow, hrowid⟩ := List.mem_map.mp hid
  rcases List.mem_append.mp hrow with hcreate | hstart
  · obtain ⟨call', hcall', hrow'⟩ := List.mem_filterMap.mp hcreate
    have hinserted : call'.stage = .inserted row := by
      cases hstage : call'.stage with
      | inserted row' =>
        rw [CreateCall.row?, hstage] at hrow'
        rw [Option.some.inj hrow']
      | _ => simp [CreateCall.row?, hstage] at hrow'
    have hnumber' : call'.number? = some id := by rw [CreateCall.number?, hinserted, ← hrowid]
    obtain rfl := eq_of_held hcreates hcall hcall' hnumber hnumber'
    rw [hdrawn] at hinserted
    cases hinserted
  · obtain ⟨stage, hstage, hmem⟩ := List.mem_flatMap.mp hstart
    rw [h.starts stage hstage] at hmem
    cases hmem

/-- Numbers that are used once do not get in each other's way. -/
theorem Numbered.usedOnce {s : OrderStore} (h : s.Numbered) : s.NumbersUsedOnce where
  once := h.ahead.nodup
  inserts call hcall id q hdrawn hquantity hsku := by
    obtain ⟨horders, huncommitted⟩ := h.drawn_notMem hcall hdrawn
    have hcheck : s.db.checkNumbered id call.customerId call.productSku call.quantity call.now =
        .ok ⟨id, call.customerId, call.productSku, q, .pending, call.now⟩ := by
      simp only [Database.checkNumbered, hquantity]
      rw [if_neg horders, if_neg (not_not.mpr hsku)]
    simp only [stepCreate, hdrawn, hcheck]
    rw [if_neg huncommitted]
  noViolation := h.noViolation

/-- From every database that is reached, over any replicas that create orders while others start: as long as no
start sets the sequence behind a number of an order or of a transaction under way, no order number is used
twice, and none keeps an order from being created. -/
theorem order_numbers_used_once {past : List StoreEvent} {db : Database} {events : List OrderStoreEvent}
    {s : OrderStore} (hreach : runFrom storeStep (initializeDatabase .empty) past = some db)
    (hmeet : StepsMeet step ResetsAhead (initial db) events)
    (hrun : runFrom step (initial db) events = some s) : s.NumbersUsedOnce := by
  have hstart : (initial db).Numbered := numbered_initial (numbersKept_of_reached hreach)
  have hnumbered : s.Numbered := hmeet.invariant step Numbered
    (fun mid e next hcond hmid hstep => hmid.step hcond hstep) hrun hstart
  exact hnumbered.usedOnce

/-- One call of `create_order_row`, alone up to its insertion, and the commit of its row. -/
def createAlone (i : ℕ) (customerId : String) : List OrderStoreEvent :=
  [.call customerId "SP-001" 1 "2026-02-01", .create i .select, .create i .draw, .create i .insert]

/-- A process starts between two calls. -/
def startBetween : List OrderStoreEvent :=
  createAlone 0 "CUS-001" ++
    [.create 0 .commit, .start, .startup 0 .seed, .startup 0 .measure, .startup 0 .reset, .startup 0 .commit] ++
    createAlone 1 "CUS-002"

theorem order_numbers_used_once_between :
    ∃ s, runFrom step (initial (initializeDatabase .empty)) startBetween = some s ∧
      s.creates.filterMap CreateCall.number? = [122] ∧ s.NumbersUsedOnce := by
  have hmeet : StepsMeet step ResetsAhead (initial (initializeDatabase .empty)) startBetween := by
    rw [initializeDatabase_empty]
    decide +kernel
  have hrun : (runFrom step (initial (initializeDatabase .empty)) startBetween).map
      (fun s => s.creates.filterMap CreateCall.number?) = some [122] := by
    rw [initializeDatabase_empty]
    decide +kernel
  obtain ⟨s, hs, hnumbers⟩ := Option.map_eq_some_iff.mp hrun
  exact ⟨s, hs, hnumbers, order_numbers_used_once (runFrom_nil _ _) hmeet hs⟩

/-- A process starts while the transaction of the first call is open. It reads the greatest committed number,
sets the sequence back to it, and the second call draws the number of the first. -/
def startWhileOpen : List OrderStoreEvent :=
  createAlone 0 "CUS-001" ++
    [.start, .startup 0 .seed, .startup 0 .measure, .startup 0 .reset, .startup 0 .commit] ++
    [.call "CUS-002" "SP-001" 1 "2026-02-01", .create 1 .select, .create 1 .draw, .create 0 .commit,
      .create 1 .insert]

/-- The second order is not created. -/
theorem order_number_reused :
    ∃ s, runFrom step (initial (initializeDatabase .empty)) startWhileOpen = some s ∧
      s.creates.map CreateCall.stage = [.created 121, .failed (.uniqueViolation "orders_pkey")] ∧
      ¬ s.NumbersUsedOnce := by
  have hrun : (runFrom step (initial (initializeDatabase .empty)) startWhileOpen).map
      (fun s => s.creates.map CreateCall.stage) =
        some [.created 121, .failed (.uniqueViolation "orders_pkey")] := by
    rw [initializeDatabase_empty]
    decide +kernel
  obtain ⟨s, hs, hstages⟩ := Option.map_eq_some_iff.mp hrun
  refine ⟨s, hs, hstages, fun hused => ?_⟩
  have hfailed : CreateStage.failed (.uniqueViolation "orders_pkey") ∈ s.creates.map CreateCall.stage := by
    simp [hstages]
  obtain ⟨call, hcall, hstage⟩ := List.mem_map.mp hfailed
  exact hused.noViolation call hcall hstage

end OrderStore

end Agentops
