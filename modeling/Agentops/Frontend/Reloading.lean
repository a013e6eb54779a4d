import Agentops.Agent.OrderIdTexts
import Agentops.Api.Orders
import Agentops.Foundations.StableSort
import Agentops.Frontend.CreatedOrders

/-!
# Orders that are loaded again

A reload shows what the server lists: the orders of the selected status by their numbers, as many as the limit
allows. A new order comes last, and is cut off when the limit is reached before it. The slices of the status bar are
made of the same list, and lose every status but the one that is selected.
-/

namespace Agentops

/-- Why `GET /orders` fails. -/
inductive OrdersFailure
  | http (e : HttpException)
  /-- `Query(ge=1, le=200)` -/
  | limitOutOfRange
  deriving DecidableEq, Repr

/-- `GET /orders` as the console sends it; what `describeError` makes of a failure is a parameter. -/
def getOrders (describeError : OrdersFailure → String) (upper : String → String) (user : CurrentUser) (db : Database)
    (query : OrderQuery) : OrdersReply :=
  let limit := query.limit.getD 100
  if 1 ≤ limit ∧ limit ≤ 200 then
    (listOrders upper user query.status none limit db).mapError fun e => describeError (.http e)
  else .error (describeError .limitOutOfRange)

/-- The orders that a caller may see. -/
def Database.ordersOf (db : Database) (scope : Option String) : List Order :=
  db.orders.filter fun o => scope.all (o.customerId = ·)

/-- Their rows before they are sorted. -/
def Database.orderRows (db : Database) (scope : Option String) : List OrderView :=
  (db.ordersOf scope).flatMap fun o => (db.joinProducts o).map o.view

namespace StoreService

/-- A command whose requests are answered. -/
def answered (answer : OrderQuery → OrdersReply) (now : String) (asked : StoreService × List OrderQuery) :
    StoreService :=
  asked.2.foldl (fun store query => store.ordersAnswered now (answer query)) asked.1

/-- `loadOrders` with its answer. -/
def reload (answer : OrderQuery → OrdersReply) (now : String) (store : StoreService) : StoreService :=
  answered answer now store.loadOrders

/-- `toggle` of the status bar. -/
def toggle (status : OrderStatus) (store : StoreService) : StoreService × List OrderQuery :=
  store.setStatus (if store.status = some status then none else some status)

/-- Toggles, each followed by its reload. -/
def toggleAll (answer : OrderQuery → OrdersReply) (toggles : List (OrderStatus × String)) (store : StoreService) :
    StoreService :=
  toggles.foldl (fun store toggle => answered answer toggle.2 (store.toggle toggle.1)) store

/-- What is selected after toggles: a status is selected by one toggle and no longer by the next. -/
def selectedAfter (selected : Option OrderStatus) (toggles : List OrderStatus) : Option OrderStatus :=
  toggles.foldl (fun selected status => if selected = some status then none else some status) selected

end StoreService

section Listing

variable {db : Database} {scope : Option String} {status : Option OrderStatus} {limit : ℕ}

/-- By the number of the order. -/
def byNumber (a b : OrderView) : Bool := a.id ≤ b.id

/-- The order by number is transitive. -/
theorem byNumber_trans (a b c : OrderView) : byNumber a b → byNumber b c → byNumber a c := by
  simpa [byNumber] using Int.le_trans

/-- It is total. -/
theorem byNumber_total (a b : OrderView) : byNumber a b || byNumber b a := by
  simpa [byNumber] using Int.le_total a.id b.id

/-- Every order that the caller may see has one row. -/
theorem Database.Schema.map_id_orderRows (h : db.Schema) :
    (db.orderRows scope).map OrderView.id = (db.ordersOf scope).map Order.id :=
  h.map_id_views fun _ ho => (List.mem_filter.mp ho).1

/-- Rows that are all kept or all dropped can be filtered before they are made. -/
theorem filter_flatMap {A B : Type} {f : A → List B} {p : A → Bool} {q : B → Bool}
    (h : ∀ a, ∀ b ∈ f a, q b = p a) (l : List A) : (l.flatMap f).filter q = (l.filter p).flatMap f := by
  induction l with
  | nil => rfl
  | cons a rest ih =>
    rw [List.flatMap_cons, List.filter_append, ih]
    by_cases ha : p a = true
    · rw [List.filter_cons_of_pos ha, List.flatMap_cons, List.filter_eq_self.mpr fun b hb => (h a b hb).trans ha]
    · have hnone : (f a).filter q = [] := List.filter_eq_nil_iff.mpr fun b hb => by rwa [h a b hb]
      rw [List.filter_cons_of_neg ha, hnone, List.nil_append]

/-- A listing narrows the rows to the status, sorts them and cuts them off. -/
theorem listOrderRows_eq : listOrderRows status limit scope db =
    (((db.orderRows scope).filter fun row => status.all (row.status = ·)).mergeSort byNumber).take limit := by
  have hviews : ∀ o : Order, ∀ row ∈ (db.joinProducts o).map o.view,
      status.all (row.status = ·) = status.all (o.status = ·) := by
    intro o row hrow
    obtain ⟨p, -, rfl⟩ := List.mem_map.mp hrow
    rfl
  unfold listOrderRows Database.orderRows Database.ordersOf byNumber
  rw [filter_flatMap hviews, List.filter_filter]
  congr 3
  refine List.filter_congr fun o _ => ?_
  simp

/-- With a limit that is not smaller than the book nothing is cut off, and it does not matter when the rows are
narrowed. -/
theorem listOrderRows_of_le (h : db.Schema) (hbook : (db.ordersOf scope).length ≤ limit) :
    listOrderRows status limit scope db =
      ((db.orderRows scope).mergeSort byNumber).filter fun row => status.all (row.status = ·) := by
  have hlength : (db.orderRows scope).length ≤ limit := by
    simpa using (congrArg List.length (@Database.Schema.map_id_orderRows db scope h)).trans_le (by simpa using hbook)
  rw [listOrderRows_eq, ← StableSort.filter_mergeSort byNumber_trans byNumber_total, List.take_of_length_le]
  exact (List.length_filter_le _ _).trans (by simpa using hlength)

/-- A limit keeps the order of a row exactly if fewer orders that the caller may see have smaller numbers. -/
theorem mem_listing_iff (h : db.Schema) {row : OrderView} (hrow : row ∈ db.orderRows scope) :
    orderFromRow row ∈ (listOrderRows none limit scope db).map orderFromRow ↔
      ((db.ordersOf scope).filter (·.id < row.id)).length < limit := by
  have hids := @Database.Schema.map_id_orderRows db scope h
  have hunique : KeyedTable.Unique OrderView.id (db.orderRows scope) := by
    rw [KeyedTable.Unique, hids]
    exact (List.filter_sublist.map _).nodup h.ordersKey
  have hone : ∀ b ∈ db.orderRows scope, byNumber row b → byNumber b row → b = row := by
    intro b hb hle hge
    exact hunique.eq_of_key_eq hb hrow (Int.le_antisymm (of_decide_eq_true hge) (of_decide_eq_true hle))
  have hcount : ((db.orderRows scope).filter (!byNumber row ·)).length =
      ((db.ordersOf scope).filter (·.id < row.id)).length := by
    have hsmaller : ∀ b : OrderView, (!byNumber row b) = decide (b.id < row.id) := by
      intro b
      rw [byNumber, ← decide_not, decide_eq_decide]
      exact Int.not_le
    have hfilter := congrArg (fun ids : List ℤ => (ids.filter (· < row.id)).length) hids
    simpa [List.filter_map, Function.comp_def, hsmaller] using hfilter
  rw [← hcount, ← StableSort.mem_take_mergeSort_iff byNumber_trans byNumber_total hrow hone, listOrderRows_eq]
  have hall : (db.orderRows scope).filter (fun row => (none : Option OrderStatus).all (row.status = ·)) =
      db.orderRows scope := List.filter_eq_self.mpr fun _ _ => rfl
  rw [hall]
  constructor
  · intro hmem
    obtain ⟨b, hb, heq⟩ := List.mem_map.mp hmem
    have hbrow : b ∈ db.orderRows scope := List.mem_mergeSort.mp (List.mem_of_mem_take hb)
    have hid : b.id = row.id := formatOrderId_injective (congrArg OrderResponse.id heq)
    exact hunique.eq_of_key_eq hbrow hrow hid ▸ hb
  · exact fun hmem => List.mem_map_of_mem hmem

end Listing

section Reloads

variable {describeError : OrdersFailure → String} {upper : String → String} {user : CurrentUser} {db db' : Database}
  {scope : Option String} {store : StoreService} {answer : OrderQuery → OrdersReply} {now : String}

/-- A reload shows what is answered to the query. -/
@[simp] theorem StoreService.orders_reload (answer : OrderQuery → OrdersReply) (now : String) (store : StoreService) :
    (store.reload answer now).orders = (answer store.orderQuery).rows :=
  ordersAnswered_orders now _ _

/-- With a limit that the API admits a caller is shown the listing of its scope. -/
theorem rows_getOrders (hscope : scopeCustomerId upper user none = .ok scope) (hleast : 1 ≤ store.limit)
    (hmost : store.limit ≤ 200) :
    (getOrders describeError upper user db store.orderQuery).rows =
      (listOrderRows store.status store.limit scope db).map orderFromRow := by
  have hsent : store.orderQuery = ⟨store.status, some store.limit⟩ := by
    rw [StoreService.orderQuery, if_neg (by omega)]
  rw [hsent, getOrders, Option.getD_some, if_pos ⟨hleast, hmost⟩, listOrders, hscope]
  rfl

section Creation

variable {input : OrderCreate} {created : String} {order : OrderResponse}

/-- What a caller creates is in the scope of its listings. -/
theorem scope_of_created {requested customerId : String} (hscope : scopeCustomerId upper user none = .ok scope)
    (hcreated : scopeCustomerId upper user (some requested) = .ok (some customerId)) :
    scope.all (customerId = ·) = true := by
  by_cases hstaff : user.isStaff = true
  · obtain rfl : none = scope := by simpa [scopeCustomerId, hstaff] using hscope
    rfl
  · cases hclaim : user.customerId with
    | none => simp [scopeCustomerId, hstaff, hclaim] at hscope
    | some claim =>
      obtain rfl : some claim = scope := by simpa [scopeCustomerId, hstaff, hclaim] using hscope
      rcases scopeCustomerId_customer upper (by simpa using hstaff) hclaim (some requested) with hok | herror
      · obtain rfl : claim = customerId := by simpa [hok] using hcreated
        simp
      · simp [herror] at hcreated

/-- A created order is there after a reload exactly if the caller sees fewer orders with numbers before it than the
limit allows. -/
theorem created_order_listed_iff (h : db.Schema) (hscope : scopeCustomerId upper user none = .ok scope)
    (hcreate : createOrder upper user input created db = (.ok order, db')) (hstatus : store.status = none)
    (hleast : 1 ≤ store.limit) (hmost : store.limit ≤ 200) :
    order ∈ ((store.orderCreated order).reload (getOrders describeError upper user db') now).orders ↔
      ((db.ordersOf scope).filter (·.id ≤ db.ordersSeq)).length < store.limit := by
  obtain ⟨customerId, row, p, hfor, hrow, hdb, hp, rfl⟩ := createOrder_eq_ok hcreate
  obtain ⟨hid, hcustomer, hsku, -, hnew, q, hq, hqsku⟩ := Database.checkOrder_eq_ok hrow
  have hschema : db'.Schema := hdb ▸ h.insertOrder row.id hnew ⟨q, hq, hqsku.trans hsku.symm⟩
  have hseen : db'.ordersOf scope = db.ordersOf scope ++ [row] := by
    rw [hdb, Database.ordersOf, List.filter_append,
      List.filter_cons_of_pos (hcustomer ▸ scope_of_created hscope hfor)]
    rfl
  have hshown : row.view p ∈ db'.orderRows scope := by
    refine List.mem_flatMap.mpr ⟨row, ?_, List.mem_map_of_mem hp⟩
    rw [hseen]
    exact List.mem_append_right _ List.mem_cons_self
  have hbefore : (db'.ordersOf scope).filter (·.id < row.id) = (db.ordersOf scope).filter (·.id ≤ db.ordersSeq) := by
    rw [hseen, List.filter_append, List.filter_cons_of_neg (by simp), List.filter_nil, List.append_nil, hid]
    exact List.filter_congr fun o _ => decide_eq_decide.mpr Int.lt_add_one_iff
  have hquery : (store.orderCreated (orderFromRow (row.view p))).orderQuery = store.orderQuery := rfl
  rw [StoreService.orders_reload, hquery, rows_getOrders hscope hleast hmost, hstatus, ← hbefore]
  exact mem_listing_iff hschema hshown

/-- With the limit 200 the first order that the manager creates is there after a reload. -/
theorem created_order_listed_of_200 : ∃ order db',
    createOrder asciiUpper manager (oneLaptop "CUS-001" (by decide)) "2026-07-01" (initializeDatabase .empty) =
      (.ok order, db') ∧
    order ∈ ((({ limit := 200 } : StoreService).orderCreated order).reload
      (getOrders (fun _ => "") asciiUpper manager db') "").orders := by
  have hcreated : (createOrder asciiUpper manager (oneLaptop "CUS-001" (by decide)) "2026-07-01"
      (initializeDatabase .empty)).1 = .ok (oneLaptopOrder "CUS-001") := by
    rw [initializeDatabase_empty]
    decide +kernel
  have hfew : (((initializeDatabase .empty).ordersOf none).filter
      (·.id ≤ (initializeDatabase .empty).ordersSeq)).length < 200 := by
    rw [initializeDatabase_empty]
    decide +kernel
  generalize hcreate : createOrder asciiUpper manager (oneLaptop "CUS-001" (by decide)) "2026-07-01"
    (initializeDatabase .empty) = out at hcreated ⊢
  obtain ⟨result, db'⟩ := out
  obtain rfl : result = .ok (oneLaptopOrder "CUS-001") := hcreated
  have hschema := (initializeDatabase_grows Database.schema_empty).1
  exact ⟨_, db', rfl, (created_order_listed_iff hschema rfl hcreate rfl (by decide) (by decide)).mpr hfew⟩

/-- With the limit that is selected at first, the first order that the manager creates is gone after a reload. -/
theorem created_order_cut_off :
    let out := createOrder asciiUpper manager (oneLaptop "CUS-001" (by decide)) "2026-07-01" (initializeDatabase .empty)
    out.1 = .ok (oneLaptopOrder "CUS-001") ∧
      oneLaptopOrder "CUS-001" ∉ ((({} : StoreService).orderCreated (oneLaptopOrder "CUS-001")).reload
        (getOrders (fun _ => "") asciiUpper manager out.2) "").orders := by
  rw [initializeDatabase_empty]
  refine ⟨by decide +kernel, ?_⟩
  have hscope : scopeCustomerId asciiUpper manager none = .ok none := rfl
  rw [StoreService.orders_reload, rows_getOrders hscope (by decide) (by decide), listOrderRows_eq,
    List.mergeSort_of_pairwise (by decide +kernel)]
  decide +kernel

end Creation

section Toggles

variable {toggles : List (OrderStatus × String)} {orders : List OrderResponse} {status : OrderStatus}
  {N : Type} [Zero N] [Mul N] [Div N] [NatCast N]

namespace StoreService

/-- It keeps the selected status. -/
@[simp] theorem status_reload (answer : OrderQuery → OrdersReply) (now : String) (store : StoreService) :
    (store.reload answer now).status = store.status :=
  ordersAnswered_status now _ _

/-- And the limit. -/
@[simp] theorem limit_reload (answer : OrderQuery → OrdersReply) (now : String) (store : StoreService) :
    (store.reload answer now).limit = store.limit :=
  ordersAnswered_limit now _ _

/-- After a reload what is shown is what is answered to the selection. -/
theorem loaded_reload (answer : OrderQuery → OrdersReply) (now : String) (store : StoreService) :
    (store.reload answer now).orders = (answer (store.reload answer now).orderQuery).rows := by
  rw [orders_reload, orderQuery, orderQuery, status_reload, limit_reload]

/-- A toggle always changes the selection, and then loads. -/
theorem answered_toggle (answer : OrderQuery → OrdersReply) (now : String) (status : OrderStatus)
    (store : StoreService) : answered answer now (store.toggle status) =
      { store with status := if store.status = some status then none else some status }.reload answer now := by
  have hother : store.status ≠ if store.status = some status then none else some status := by
    by_cases hselected : store.status = some status
    · simp [hselected]
    · rwa [if_neg hselected]
  rw [toggle, setStatus, if_neg hother, reload]

/-- However often the bar is toggled, what is shown is what is answered to the selection. -/
theorem toggleAll_spec (hloaded : store.orders = (answer store.orderQuery).rows) :
    (store.toggleAll answer toggles).status = selectedAfter store.status (toggles.map Prod.fst) ∧
      (store.toggleAll answer toggles).limit = store.limit ∧
      (store.toggleAll answer toggles).orders = (answer (store.toggleAll answer toggles).orderQuery).rows := by
  induction toggles generalizing store with
  | nil => exact ⟨rfl, rfl, hloaded⟩
  | cons first rest ih =>
    let selected : StoreService :=
      { store with status := if store.status = some first.1 then none else some first.1 }
    have hstep : store.toggleAll answer (first :: rest) = (selected.reload answer first.2).toggleAll answer rest :=
      congrArg (fun store : StoreService => store.toggleAll answer rest) (answered_toggle answer first.2 first.1 store)
    obtain ⟨hstatus, hlimit, horders⟩ := ih (loaded_reload answer first.2 selected)
    rw [hstep]
    exact ⟨hstatus.trans (by rw [status_reload]; rfl), hlimit.trans (limit_reload ..), horders⟩

/-- The orders of one status make the same slices as all orders exactly if there are no others. -/
theorem perm_statusSlices_filter_iff :
    (statusSlices (orders.filter (·.status = status)) : List (StatusSlice N)).Perm (statusSlices orders) ↔
      ∀ order ∈ orders, order.status = status := by
  constructor
  · intro hperm order horder
    obtain ⟨slice, hslice, hstatus⟩ := (@exists_slice_iff N _ _ _ order.status orders _).mpr ⟨order, horder, rfl⟩
    obtain ⟨other, hother, hsame⟩ := (@exists_slice_iff N _ _ _ order.status _ _).mp
      ⟨slice, hperm.mem_iff.mpr hslice, hstatus⟩
    exact hsame.symm.trans (of_decide_eq_true (List.mem_filter.mp hother).2)
  · intro hall
    rw [List.filter_eq_self.mpr fun order horder => decide_eq_true (hall order horder)]

end StoreService

open StoreService

/-- The orders of the book have the statuses of its rows. -/
theorem forall_status_iff (h : db.Schema) :
    (∀ order ∈ ((db.orderRows scope).mergeSort byNumber).map orderFromRow, order.status = status) ↔
      ∀ o ∈ db.ordersOf scope, o.status = status := by
  constructor
  · intro hall o ho
    obtain ⟨p, -, -, hjoin⟩ := h.exists_joinProducts (List.mem_filter.mp ho).1
    have hrow : o.view p ∈ db.orderRows scope := List.mem_flatMap.mpr ⟨o, ho, by simp [hjoin]⟩
    exact hall _ (List.mem_map_of_mem (List.mem_mergeSort.mpr hrow))
  · intro hall order horder
    obtain ⟨row, hrow, rfl⟩ := List.mem_map.mp horder
    obtain ⟨o, ho, hview⟩ := List.mem_flatMap.mp (List.mem_mergeSort.mp hrow)
    obtain ⟨p, -, rfl⟩ := List.mem_map.mp hview
    exact hall o ho

/-- A limit that the API does not admit shows nothing, and so does the limit of an empty book that is not sent. -/
theorem rows_getOrders_eq_nil (h : db.Schema) (hscope : scopeCustomerId upper user none = .ok scope)
    (hbook : (db.ordersOf scope).length ≤ store.limit) (hlimit : ¬ (1 ≤ store.limit ∧ store.limit ≤ 200)) :
    (getOrders describeError upper user db store.orderQuery).rows = [] := by
  by_cases hzero : store.limit = 0
  · have hempty : db.ordersOf scope = [] := List.length_eq_zero_iff.mp (by omega)
    have hsent : store.orderQuery = ⟨store.status, none⟩ := by rw [StoreService.orderQuery, if_pos hzero]
    rw [hsent, getOrders, Option.getD_none, if_pos (by decide), listOrders, hscope]
    have hnone : listOrderRows store.status 100 scope db = [] := by
      rw [listOrderRows_of_le h (by simp [hempty]), Database.orderRows, hempty]
      simp
    exact congrArg (List.map orderFromRow) hnone
  · have hsent : store.orderQuery = ⟨store.status, some store.limit⟩ := by
      rw [StoreService.orderQuery, if_neg hzero]
    rw [hsent, getOrders, Option.getD_some, if_neg hlimit]
    rfl

/-- Without a selection the whole book is shown. -/
theorem orders_unselected (h : db.Schema) (hscope : scopeCustomerId upper user none = .ok scope)
    (hbook : (db.ordersOf scope).length ≤ store.limit) :
    ({ store with status := none }.reload (getOrders describeError upper user db) now).orders =
      if 1 ≤ store.limit ∧ store.limit ≤ 200 then ((db.orderRows scope).mergeSort byNumber).map orderFromRow
      else [] := by
  let unselected : StoreService := { store with status := none }
  rw [orders_reload]
  by_cases hlimit : 1 ≤ store.limit ∧ store.limit ≤ 200
  · rw [if_pos hlimit]
    have hserved := @rows_getOrders describeError upper user db scope unselected hscope hlimit.1 hlimit.2
    rw [hserved, listOrderRows_of_le h hbook]
    exact congrArg (List.map orderFromRow) (List.filter_eq_self.mpr fun _ _ => rfl)
  · rw [if_neg hlimit]
    exact @rows_getOrders_eq_nil describeError upper user db scope unselected h hscope hbook hlimit

/-- After toggles those orders of the book are shown that have the selected status. -/
theorem orders_toggled (h : db.Schema) (hscope : scopeCustomerId upper user none = .ok scope)
    (hbook : (db.ordersOf scope).length ≤ store.limit) :
    ((store.reload (getOrders describeError upper user db) now).toggleAll (getOrders describeError upper user db)
        toggles).orders =
      if 1 ≤ store.limit ∧ store.limit ≤ 200 then
        (((db.orderRows scope).mergeSort byNumber).map orderFromRow).filter fun order =>
          (selectedAfter store.status (toggles.map Prod.fst)).all (order.status = ·)
      else [] := by
  let answer := getOrders describeError upper user db
  obtain ⟨hstatus, hsame, horders⟩ := @toggleAll_spec _ answer toggles (loaded_reload answer now store)
  rw [status_reload] at hstatus
  rw [limit_reload] at hsame
  rw [horders]
  by_cases hlimit : 1 ≤ store.limit ∧ store.limit ≤ 200
  · rw [if_pos hlimit, rows_getOrders hscope (hsame ▸ hlimit.1) (hsame ▸ hlimit.2), hstatus, hsame,
      listOrderRows_of_le h hbook, List.filter_map]
    rfl
  · rw [if_neg hlimit]
    exact rows_getOrders_eq_nil h hscope (hsame ▸ hbook) (hsame ▸ hlimit)

/-- After any toggles with their reloads the status bar shows the slices that it shows when no status is selected,
exactly if then none is selected, or every order of the book has the one that is, or the API refuses the limit. -/
theorem slices_describe_book_iff (h : db.Schema) (hscope : scopeCustomerId upper user none = .ok scope)
    (hbook : (db.ordersOf scope).length ≤ store.limit) :
    (statusSlices ((store.reload (getOrders describeError upper user db) now).toggleAll
        (getOrders describeError upper user db) toggles).orders : List (StatusSlice N)).Perm
      (statusSlices ({ store with status := none }.reload (getOrders describeError upper user db) now).orders) ↔
    ∀ status, selectedAfter store.status (toggles.map Prod.fst) = some status →
      200 < store.limit ∨ ∀ o ∈ db.ordersOf scope, o.status = status := by
  rw [orders_toggled h hscope hbook, orders_unselected h hscope hbook]
  by_cases hlimit : 1 ≤ store.limit ∧ store.limit ≤ 200
  · have hsmall : ¬ 200 < store.limit := by omega
    rw [if_pos hlimit, if_pos hlimit]
    cases selectedAfter store.status (toggles.map Prod.fst) with
    | none => simp
    | some status =>
      have hperm := @perm_statusSlices_filter_iff (((db.orderRows scope).mergeSort byNumber).map orderFromRow) status N
      simp only [Option.all_some, Option.some.injEq, forall_eq', hsmall, false_or, hperm, forall_status_iff h]
  · rw [if_neg hlimit, if_neg hlimit]
    refine ⟨fun _ status _ => ?_, fun _ => .refl _⟩
    by_cases hlarge : 200 < store.limit
    · exact .inl hlarge
    · have hempty : db.ordersOf scope = [] := List.length_eq_zero_iff.mp (by omega)
      exact .inr (by simp [hempty])

/-- The seeded orders fit into one listing. -/
theorem length_ordersOf_seeded : ((initializeDatabase .empty).ordersOf none).length ≤ 200 := by
  rw [initializeDatabase_empty]
  decide +kernel

/-- A status that is toggled twice leaves the slices of the book as they are. -/
theorem slices_describe_book_toggled_back :
    let answer := getOrders (fun _ => "") asciiUpper manager (initializeDatabase .empty)
    let store : StoreService := { limit := 200 }
    (statusSlices ((store.reload answer "").toggleAll answer [(.delivered, ""), (.delivered, "")]).orders :
      List (StatusSlice ℚ)).Perm (statusSlices ({ store with status := none }.reload answer "").orders) := by
  intro answer store
  have hschema := (initializeDatabase_grows Database.schema_empty).1
  refine (slices_describe_book_iff hschema rfl length_ordersOf_seeded).mpr fun status hselected => ?_
  exact absurd hselected (by simp [selectedAfter, store])

/-- While one status is selected, the slices are not those of the book. -/
theorem slices_of_one_status :
    let answer := getOrders (fun _ => "") asciiUpper manager (initializeDatabase .empty)
    let store : StoreService := { limit := 200 }
    ((initializeDatabase .empty).ordersOf none).length ≤ store.limit ∧
      ¬ (statusSlices ((store.reload answer "").toggleAll answer [(.delivered, "")]).orders :
        List (StatusSlice ℚ)).Perm (statusSlices ({ store with status := none }.reload answer "").orders) := by
  intro answer store
  have hbook := length_ordersOf_seeded
  have hschema := (initializeDatabase_grows Database.schema_empty).1
  have hscope : scopeCustomerId asciiUpper manager none = .ok none := rfl
  refine ⟨hbook, fun hperm => ?_⟩
  rw [orders_toggled hschema hscope hbook, orders_unselected hschema hscope hbook, if_pos (by decide),
    if_pos (by decide)] at hperm
  have hall := (forall_status_iff hschema).mp (perm_statusSlices_filter_iff.mp hperm)
  rw [initializeDatabase_empty] at hall
  exact absurd hall (by decide +kernel)

end Toggles

end Reloads

end Agentops
