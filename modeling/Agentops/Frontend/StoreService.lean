import Agentops.Store.Customers

/-!
# The store of the console, `frontend/src/app/core/store.service.ts`

One object holds what the console shows: the orders, whether they are loading, an error, and the status and limit
that orders are asked for. A command that changes what is asked for sends a request, and an answer writes the
signals when it comes. Of the catalogue, the health figures and the toasts nothing is said.
-/

namespace Agentops

/-- `SortKey`. -/
inductive SortKey
  | id | customerId | product | quantity | total | status | createdAt
  deriving DecidableEq, Repr

/-- `SortDir`. -/
inductive SortDir
  | asc | desc
  deriving DecidableEq, Repr

/-- `SortState`. -/
structure SortState where
  key : SortKey
  dir : SortDir
  deriving DecidableEq, Repr

/-- `OPEN_STATUSES`. -/
def openStatuses : List OrderStatus := [.pending, .paid, .processing]

/-- `VOID_STATUSES`. -/
def voidStatuses : List OrderStatus := [.cancelled, .refunded]

/-- The parameters of `GET /orders`. -/
structure OrderQuery where
  status : Option OrderStatus
  limit : Option ℕ
  deriving DecidableEq, Repr

/-- The answer to `GET /orders`; of a failure the text that `describeError` makes of it. -/
abbrev OrdersReply := Except String (List OrderResponse)

/-- The signals of `StoreService`. No status stands for all of them. -/
structure StoreService where
  orders : List OrderResponse := []
  loading : Bool := true
  error : Option String := none
  lastUpdated : Option String := none
  highlighted : Option String := none
  status : Option OrderStatus := none
  limit : ℕ := 100
  query : String := ""
  sort : SortState := ⟨.createdAt, .desc⟩
  deriving DecidableEq, Repr

namespace StoreService

/-! ### Derived -/

section Derived

variable {N : Type} [Zero N] [Div N] [NatCast N]

/-- `Kpis`. -/
structure Kpis (N : Type) where
  total : ℕ
  revenue : N
  openCount : ℕ
  units : ℕ
  averageValue : N
  bookedCount : ℕ

/-- `kpis`, with the number that an amount is read as. -/
def kpis [Add N] (toNumber : ℕ → N) (orders : List OrderResponse) : Kpis N :=
  let booked := orders.filter fun order => order.status ∉ voidStatuses
  let revenue := booked.foldl (fun sum order => sum + toNumber order.total) 0
  { total := orders.length
    revenue := revenue
    openCount := (orders.filter fun order => order.status ∈ openStatuses).length
    units := orders.foldl (fun sum order => sum + order.quantity) 0
    averageValue := if booked.length = 0 then 0 else revenue / booked.length
    bookedCount := booked.length }

/-- `StatusSlice`. -/
structure StatusSlice (N : Type) where
  status : OrderStatus
  count : ℕ
  share : N

/-- `counts.set(status, (counts.get(status) ?? 0) + 1)`: a new status comes last. -/
def increment (status : OrderStatus) : List (OrderStatus × ℕ) → List (OrderStatus × ℕ)
  | [] => [(status, 1)]
  | (other, count) :: rest =>
    if other = status then (other, count + 1) :: rest else (other, count) :: increment status rest

/-- `counts`, in the order of its entries. -/
def statusCounts (orders : List OrderResponse) : List (OrderStatus × ℕ) :=
  orders.foldl (fun counts order => increment order.status counts) []

/-- `statusSlices`. -/
def statusSlices [Mul N] (orders : List OrderResponse) : List (StatusSlice N) :=
  ((statusCounts orders).map fun entry =>
    { status := entry.1
      count := entry.2
      share := if orders.length = 0 then 0
        else (entry.2 : N) / (orders.length : N) * ((100 : ℕ) : N) }).mergeSort fun a b => b.count ≤ a.count

section StatusCounts

variable {status : OrderStatus} {counts : List (OrderStatus × ℕ)} {orders : List OrderResponse}

/-- One more of the status. -/
theorem lookup_increment (status other : OrderStatus) (counts : List (OrderStatus × ℕ)) :
    ((increment status counts).lookup other).getD 0 =
      (counts.lookup other).getD 0 + if other = status then 1 else 0 := by
  induction counts with
  | nil =>
    by_cases h : other = status
    · simp [increment, h]
    · simp [increment, h, List.lookup_cons, beq_false_of_ne h]
  | cons entry rest ih =>
    obtain ⟨key, count⟩ := entry
    by_cases hkey : key = status
    · subst hkey
      by_cases h : other = key
      · simp [increment, h]
      · simp [increment, h, List.lookup_cons, beq_false_of_ne h]
    · by_cases h : other = key
      · simp [increment, h, hkey]
      · simpa [increment, h, hkey, List.lookup_cons, beq_false_of_ne h] using ih

/-- A status gets one entry. -/
theorem keys_increment (status : OrderStatus) (counts : List (OrderStatus × ℕ)) :
    (increment status counts).map Prod.fst =
      if status ∈ counts.map Prod.fst then counts.map Prod.fst else counts.map Prod.fst ++ [status] := by
  induction counts with
  | nil => simp [increment]
  | cons entry rest ih =>
    obtain ⟨key, count⟩ := entry
    by_cases hkey : key = status
    · simp [increment, hkey]
    · have hne : status ≠ key := Ne.symm hkey
      simp only [increment, if_neg hkey, List.map_cons, ih, List.mem_cons, hne, false_or]
      split <;> simp

/-- One more order is one more of its status. -/
theorem statusCounts_concat (orders : List OrderResponse) (order : OrderResponse) :
    statusCounts (orders ++ [order]) = increment order.status (statusCounts orders) := by
  rw [statusCounts, List.foldl_append]
  rfl

/-- What is counted of a status are its orders. -/
theorem lookup_statusCounts (status : OrderStatus) (orders : List OrderResponse) :
    ((statusCounts orders).lookup status).getD 0 = (orders.filter (·.status = status)).length := by
  induction orders using List.reverseRecOn with
  | nil => rfl
  | append_singleton orders order ih =>
    rw [statusCounts_concat, lookup_increment, ih, List.filter_append, List.length_append]
    by_cases h : order.status = status
    · simp [h]
    · simp [h, Ne.symm h]

/-- No status has two entries. -/
theorem nodup_keys_statusCounts (orders : List OrderResponse) : ((statusCounts orders).map Prod.fst).Nodup := by
  induction orders using List.reverseRecOn with
  | nil => exact List.nodup_nil
  | append_singleton orders order ih =>
    rw [statusCounts_concat, keys_increment]
    by_cases hknown : order.status ∈ (statusCounts orders).map Prod.fst
    · rwa [if_pos hknown]
    · rw [if_neg hknown, ← List.concat_eq_append]
      exact ih.concat hknown

/-- The counts have an entry for every status that an order has. -/
theorem mem_keys_statusCounts (status : OrderStatus) (orders : List OrderResponse) :
    status ∈ (statusCounts orders).map Prod.fst ↔ ∃ order ∈ orders, order.status = status := by
  induction orders using List.reverseRecOn with
  | nil => simp [statusCounts]
  | append_singleton orders order ih =>
    rw [statusCounts_concat, keys_increment]
    by_cases hknown : order.status ∈ (statusCounts orders).map Prod.fst
    · rw [if_pos hknown, ih]
      constructor
      · rintro ⟨other, hother, rfl⟩
        exact ⟨other, List.mem_append_left _ hother, rfl⟩
      · rintro ⟨other, hother, rfl⟩
        rcases List.mem_append.mp hother with hold | hnew
        · exact ⟨other, hold, rfl⟩
        · exact ih.mp (List.mem_singleton.mp hnew ▸ hknown)
    · rw [if_neg hknown]
      simp [or_and_right, exists_or, ih, eq_comm]

/-- There is a slice for every status that an order has. -/
theorem exists_slice_iff [Mul N] :
    (∃ slice ∈ (statusSlices orders : List (StatusSlice N)), slice.status = status) ↔
      ∃ order ∈ orders, order.status = status := by
  rw [← mem_keys_statusCounts]
  simp [statusSlices]

/-- Every slice has the number of the orders of its status. -/
theorem count_of_mem_statusSlices [Mul N] {slice : StatusSlice N} (h : slice ∈ statusSlices orders) :
    slice.count = (orders.filter (·.status = slice.status)).length := by
  obtain ⟨⟨status, count⟩, hentry, rfl⟩ := List.mem_map.mp (List.mem_mergeSort.mp h)
  obtain ⟨before, later, hcounts⟩ := List.append_of_mem hentry
  have hkeys := nodup_keys_statusCounts orders
  have hfirst : ∀ entry ∈ before, status != entry.1 := by
    intro entry hbefore
    rw [hcounts, List.map_append, List.map_cons, List.nodup_append] at hkeys
    have hne := hkeys.2.2 entry.1 (List.mem_map_of_mem hbefore) status List.mem_cons_self
    exact bne_iff_ne.mpr (Ne.symm hne)
  have hlookup : (statusCounts orders).lookup status = some count :=
    List.lookup_eq_some_iff.mpr ⟨before, later, hcounts, hfirst⟩
  rw [← lookup_statusCounts, hlookup]
  rfl

end StatusCounts

end Derived

/-! ### Commands -/

/-- What `api.orders` asks for: neither an empty status nor a limit of zero is sent. -/
def orderQuery (store : StoreService) : OrderQuery :=
  ⟨store.status, if store.limit = 0 then none else some store.limit⟩

/-- `loadOrders` up to the answer, with the request that it sends. -/
def loadOrders (store : StoreService) : StoreService × List OrderQuery :=
  ({ store with loading := true }, [store.orderQuery])

/-- What `loadOrders` does with the answer. -/
def ordersAnswered (now : String) (reply : OrdersReply) (store : StoreService) : StoreService :=
  match reply with
  | .ok orders => { store with orders := orders, error := none, loading := false, lastUpdated := some now }
  | .error description => { store with error := some description, orders := [], loading := false }

/-- `setStatus`. -/
def setStatus (status : Option OrderStatus) (store : StoreService) : StoreService × List OrderQuery :=
  if store.status = status then (store, []) else { store with status := status }.loadOrders

/-- `setLimit`. -/
def setLimit (limit : ℕ) (store : StoreService) : StoreService × List OrderQuery :=
  if store.limit = limit then (store, []) else { store with limit := limit }.loadOrders

/-- `clearFilters`. -/
def clearFilters (store : StoreService) : StoreService × List OrderQuery :=
  { store with query := "" }.setStatus none

/-- `toggleSort`: the other direction of the same key, or the first one of another key. -/
def toggleSort (key : SortKey) (store : StoreService) : StoreService :=
  { store with
    sort :=
      if store.sort.key = key then ⟨key, if store.sort.dir = .asc then .desc else .asc⟩
      else ⟨key, if key = .createdAt ∨ key = .total then .desc else .asc⟩ }

/-- What `createOrder` does with the order that comes back. -/
def orderCreated (order : OrderResponse) (store : StoreService) : StoreService :=
  { store with orders := order :: store.orders, highlighted := some order.id }

/-- The timer that `createOrder` sets: the mark of another order stays. -/
def highlightOver (id : String) (store : StoreService) : StoreService :=
  if store.highlighted = some id then { store with highlighted := none } else store

/-- The commands of the console; `init` and `refresh` do the same with the orders. -/
inductive Command
  | init
  | refresh
  | setStatus (status : Option OrderStatus)
  | setLimit (limit : ℕ)
  | clearFilters
  | toggleSort (key : SortKey)
  deriving DecidableEq, Repr

/-- What a command does, with the requests that it sends. -/
def perform : Command → StoreService → StoreService × List OrderQuery
  | .init => loadOrders
  | .refresh => loadOrders
  | .setStatus status => setStatus status
  | .setLimit limit => setLimit limit
  | .clearFilters => clearFilters
  | .toggleSort key => fun store => (store.toggleSort key, [])

section Commands

variable {store after : StoreService} {command : Command} {queries : List OrderQuery}

/-- An answer ends the loading. -/
@[simp] theorem ordersAnswered_loading (now : String) (reply : OrdersReply) (store : StoreService) :
    (store.ordersAnswered now reply).loading = false := by
  cases reply <;> rfl

/-- It leaves the selected status alone. -/
@[simp] theorem ordersAnswered_status (now : String) (reply : OrdersReply) (store : StoreService) :
    (store.ordersAnswered now reply).status = store.status := by
  cases reply <;> rfl

/-- And the limit. -/
@[simp] theorem ordersAnswered_limit (now : String) (reply : OrdersReply) (store : StoreService) :
    (store.ordersAnswered now reply).limit = store.limit := by
  cases reply <;> rfl

/-- And so what is asked for next. -/
@[simp] theorem ordersAnswered_orderQuery (now : String) (reply : OrdersReply) (store : StoreService) :
    (store.ordersAnswered now reply).orderQuery = store.orderQuery := by
  cases reply <;> rfl

/-- Orders are asked for unless what is selected stays the same. -/
theorem loadOrders_cases {same : Prop} [Decidable same] {selected : StoreService}
    (horders : selected.orders = store.orders)
    (h : (if same then (store, []) else selected.loadOrders) = (after, queries)) :
    (queries = [after.orderQuery] ∧ after.loading = true ∧ after.orders = store.orders) ∨
      (queries = [] ∧ after = store) := by
  split at h
  · obtain ⟨rfl, rfl⟩ := Prod.mk.inj h
    exact .inr ⟨rfl, rfl⟩
  · obtain ⟨rfl, rfl⟩ := Prod.mk.inj h
    exact .inl ⟨rfl, rfl, horders⟩

/-- A command asks for what is then selected and shows that it loads, or it changes nothing but the search text and the
order of the rows. -/
theorem perform_cases (h : store.perform command = (after, queries)) :
    (queries = [after.orderQuery] ∧ after.loading = true ∧ after.orders = store.orders) ∨
      (queries = [] ∧ ∃ query sort, after = { store with query := query, sort := sort }) := by
  have hload : store.loadOrders = (after, queries) →
      queries = [after.orderQuery] ∧ after.loading = true ∧ after.orders = store.orders := by
    intro hload
    obtain ⟨rfl, rfl⟩ := Prod.mk.inj hload
    exact ⟨rfl, rfl, rfl⟩
  cases command with
  | init => exact .inl (hload h)
  | refresh => exact .inl (hload h)
  | setStatus status =>
    have hcases := @loadOrders_cases store after queries _ _ { store with status := status } rfl h
    exact hcases.imp_right fun hsame => ⟨hsame.1, store.query, store.sort, hsame.2⟩
  | setLimit limit =>
    have hcases := @loadOrders_cases store after queries _ _ { store with limit := limit } rfl h
    exact hcases.imp_right fun hsame => ⟨hsame.1, store.query, store.sort, hsame.2⟩
  | clearFilters =>
    have hcases := @loadOrders_cases { store with query := "" } after queries _ _
      { store with query := "", status := none } rfl h
    exact hcases.imp_right fun hsame => ⟨hsame.1, "", store.sort, hsame.2⟩
  | toggleSort key =>
    obtain ⟨rfl, rfl⟩ := Prod.mk.inj h
    exact .inr ⟨rfl, store.query, _, rfl⟩

end Commands

end StoreService

end Agentops
