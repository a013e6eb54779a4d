import Agentops.Foundations.LabelledRun
import Agentops.Frontend.StoreService
import Mathlib.Algebra.BigOperators.Group.Finset.Basic
import Mathlib.Data.Rat.Defs

/-!
# Orders that are counted once

An order that is created is put in front of the orders shown. It may be among them already, for a listing that was
taken after the order was committed may be answered first. The console counts every order once exactly in the runs in
which the listing shown never has an order whose creation is answered.
-/

namespace Agentops

open LabelledRun

/-- The ids of orders. -/
def orderIds (orders : List OrderResponse) : List String := orders.map (·.id)

section Counting

variable {N : Type} [Zero N] [Add N] [Mul N] [Div N] [NatCast N]

/-- How many ids orders have, each counted once. -/
def distinctIds (orders : List OrderResponse) : ℕ := (orderIds orders).toFinset.card

/-- No two orders have the same id, and the figures and the slices count every id once. -/
structure CountedOnce (toNumber : ℕ → N) (orders : List OrderResponse) : Prop where
  ids : (orderIds orders).Nodup
  total : (StoreService.kpis toNumber orders).total = distinctIds orders
  openCount : (StoreService.kpis toNumber orders).openCount =
    distinctIds (orders.filter fun order => order.status ∈ openStatuses)
  bookedCount : (StoreService.kpis toNumber orders).bookedCount =
    distinctIds (orders.filter fun order => order.status ∉ voidStatuses)
  units : (StoreService.kpis toNumber orders).units = ∑ order ∈ orders.toFinset, order.quantity
  slices : ∀ slice ∈ (StoreService.statusSlices orders : List (StoreService.StatusSlice N)),
    slice.count = distinctIds (orders.filter (·.status = slice.status))

variable {orders : List OrderResponse}

/-- A part of a listing has no id twice either. -/
theorem nodup_orderIds_filter (h : (orderIds orders).Nodup) (p : OrderResponse → Bool) :
    (orderIds (orders.filter p)).Nodup :=
  h.sublist (List.filter_sublist.map _)

/-- Where no id comes twice, there are as many orders as ids. -/
theorem length_eq_distinctIds (h : (orderIds orders).Nodup) : orders.length = distinctIds orders := by
  rw [distinctIds, List.toFinset_card_of_nodup h, orderIds, List.length_map]

/-- Orders are counted once exactly if no two have the same id. -/
theorem countedOnce_iff {toNumber : ℕ → N} : CountedOnce toNumber orders ↔ (orderIds orders).Nodup := by
  refine ⟨CountedOnce.ids, fun h => ?_⟩
  have hfilter (p : OrderResponse → Bool) : (orders.filter p).length = distinctIds (orders.filter p) :=
    length_eq_distinctIds (nodup_orderIds_filter h p)
  have hunits : orders.foldl (fun sum order => sum + order.quantity) 0 = ∑ order ∈ orders.toFinset, order.quantity := by
    rw [List.sum_toFinset _ h.of_map, List.sum_eq_foldl, List.foldl_map]
  exact {
    ids := h
    total := length_eq_distinctIds h
    openCount := hfilter _
    bookedCount := hfilter _
    units := hunits
    slices := fun slice hslice => (StoreService.count_of_mem_statusSlices hslice).trans (hfilter _) }

end Counting

/-- One more order has one more id. -/
theorem orderIds_concat (orders : List OrderResponse) (order : OrderResponse) :
    orderIds (orders ++ [order]) = orderIds orders ++ [order.id] := by
  rw [orderIds, List.map_append]
  rfl

/-- A snapshot of the orders: some of them, none twice. -/
def IsSnapshot (book rows : List OrderResponse) : Prop := rows ⊆ book ∧ (orderIds rows).Nodup

/-- Decided on the two lists. -/
instance (book rows : List OrderResponse) : Decidable (IsSnapshot book rows) := inferInstanceAs (Decidable (_ ∧ _))

/-- Orders that the server has, or had in an earlier state, none twice. -/
def ListedFrom (book rows : List OrderResponse) : Prop := orderIds rows ⊆ orderIds book ∧ (orderIds rows).Nodup

/-- A snapshot is a listing. -/
theorem IsSnapshot.listedFrom {book rows : List OrderResponse} (h : IsSnapshot book rows) : ListedFrom book rows :=
  ⟨List.map_subset _ h.1, h.2⟩

/-- An empty listing is one. -/
theorem listedFrom_nil (book : List OrderResponse) : ListedFrom book [] := ⟨List.nil_subset _, List.nodup_nil⟩

/-- No id of the server goes away. -/
theorem ListedFrom.mono {book later rows : List OrderResponse} (h : ListedFrom book rows)
    (hknown : orderIds book ⊆ orderIds later) : ListedFrom later rows :=
  ⟨List.Subset.trans h.1 hknown, h.2⟩

/-- The orders that an answer brings. -/
def OrdersReply.rows : OrdersReply → List OrderResponse
  | .ok rows => rows
  | .error _ => []

/-- An answer replaces the orders that are shown. -/
@[simp] theorem StoreService.ordersAnswered_orders (now : String) (reply : OrdersReply) (store : StoreService) :
    (store.ordersAnswered now reply).orders = reply.rows := by
  cases reply <;> rfl

/-- The store, the orders of the server, those of the answer that came last, and what is on its way: requests for
orders and their answers, and orders to create and created. -/
structure OrderConsole where
  store : StoreService := {}
  book : List OrderResponse
  listing : List OrderResponse := []
  requested : List OrderQuery := []
  answers : List OrdersReply := []
  creating : ℕ := 0
  created : List OrderResponse := []

/-- What happens at the console and at the server. -/
inductive OrderConsoleEvent
  | command (command : StoreService.Command)
  | createOrder
  /-- The server commits the order of a request, or refuses it. -/
  | committed (order : OrderResponse)
  | refused
  /-- Others change the orders of the server, or add some. -/
  | bookChanged (book : List OrderResponse)
  /-- The server takes up a request for orders. -/
  | taken (query : OrderQuery) (rows : List OrderResponse)
  | failed (query : OrderQuery) (description : String)
  /-- An answer arrives. -/
  | ordersAnswered (reply : OrdersReply) (now : String)
  | orderCreated (order : OrderResponse)
  | highlightOver (id : String)

namespace OrderConsole

/-- One event. -/
def step (console : OrderConsole) : OrderConsoleEvent → Option OrderConsole
  | .command command =>
    let (store, queries) := console.store.perform command
    some { console with store := store, requested := console.requested ++ queries }
  | .createOrder => some { console with creating := console.creating + 1 }
  | .committed order =>
    if 0 < console.creating ∧ order.id ∉ orderIds console.book then
      some { console with
        creating := console.creating - 1, book := console.book ++ [order], created := console.created ++ [order] }
    else none
  | .refused => if 0 < console.creating then some { console with creating := console.creating - 1 } else none
  | .bookChanged book =>
    if orderIds console.book ⊆ orderIds book ∧ (orderIds book).Nodup then some { console with book := book } else none
  | .taken query rows =>
    if query ∈ console.requested ∧ IsSnapshot console.book rows then
      some { console with requested := console.requested.erase query, answers := console.answers ++ [.ok rows] }
    else none
  | .failed query description =>
    if query ∈ console.requested then
      some { console with
        requested := console.requested.erase query, answers := console.answers ++ [.error description] }
    else none
  | .ordersAnswered reply now =>
    if reply ∈ console.answers then
      some { console with
        answers := console.answers.erase reply, store := console.store.ordersAnswered now reply
        listing := reply.rows }
    else none
  | .orderCreated order =>
    if order ∈ console.created then
      some { console with created := console.created.erase order, store := console.store.orderCreated order }
    else none
  | .highlightOver id => some { console with store := console.store.highlightOver id }

/-- An order whose creation is answered is not in the listing shown. -/
def NotListed (console : OrderConsole) : OrderConsoleEvent → Prop
  | .orderCreated order => order.id ∉ orderIds console.listing
  | _ => True

/-- Decided on the event. -/
instance (console : OrderConsole) (event : OrderConsoleEvent) : Decidable (console.NotListed event) := by
  cases event <;> unfold NotListed <;> infer_instance

/-- The orders shown are those of the listing, and in front of them orders that were created: these and the ones whose
creation is not yet answered are different orders of the server, and those in front are not in the listing. -/
structure Fronted (console : OrderConsole) (front : List OrderResponse) : Prop where
  orders : console.store.orders = front ++ console.listing
  ids : (orderIds (front ++ console.created)).Nodup
  known : orderIds (front ++ console.created) ⊆ orderIds console.book
  notListed : ∀ order ∈ front, order.id ∉ orderIds console.listing

/-- Every listing, shown or on its way, has orders of the server and none twice. -/
structure Invariant (console : OrderConsole) : Prop where
  book : (orderIds console.book).Nodup
  listing : ListedFrom console.book console.listing
  answers : ∀ reply ∈ console.answers, ListedFrom console.book reply.rows
  fronted : ∃ front, console.Fronted front

section Steps

variable {console after : OrderConsole} {front : List OrderResponse}

/-- No order is shown twice. -/
theorem Invariant.nodup (h : console.Invariant) : (orderIds console.store.orders).Nodup := by
  obtain ⟨front, hfront⟩ := h.fronted
  rw [hfront.orders, orderIds, List.map_append, List.nodup_append]
  refine ⟨(List.sublist_append_left _ _).map _ |> hfront.ids.sublist, h.listing.2, ?_⟩
  intro id hid other hother heq
  obtain ⟨order, horder, rfl⟩ := List.mem_map.mp hid
  exact hfront.notListed order horder (heq ▸ hother)

/-- Nothing changes while the same orders are shown and on their way. -/
theorem Invariant.frame (h : console.Invariant) (horders : after.store.orders = console.store.orders)
    (hlisting : after.listing = console.listing) (hcreated : after.created = console.created)
    (hanswers : ∀ reply ∈ after.answers, reply ∈ console.answers ∨ ListedFrom console.book reply.rows)
    (hbook : (orderIds after.book).Nodup) (hknown : orderIds console.book ⊆ orderIds after.book) :
    after.Invariant := by
  obtain ⟨front, hfront⟩ := h.fronted
  exact {
    book := hbook
    listing := hlisting ▸ h.listing.mono hknown
    answers := fun reply hreply => ((hanswers reply hreply).elim (h.answers reply) id).mono hknown
    fronted := ⟨front, {
      orders := by rw [horders, hlisting, hfront.orders]
      ids := hcreated ▸ hfront.ids
      known := hcreated ▸ List.Subset.trans hfront.known hknown
      notListed := hlisting ▸ hfront.notListed }⟩ }

/-- An order that is committed is new to the server. -/
theorem invariant_committed {order : OrderResponse} (h : console.Invariant)
    (hstep : console.step (.committed order) = some after) : after.Invariant := by
  obtain ⟨⟨-, hnew⟩, hafter⟩ := Option.ite_none_right_eq_some.mp hstep
  obtain rfl := Option.some.inj hafter
  obtain ⟨front, hfront⟩ := h.fronted
  have hbook : (orderIds (console.book ++ [order])).Nodup := by
    rw [orderIds_concat, ← List.concat_eq_append]
    exact h.book.concat hnew
  have hgrows : orderIds console.book ⊆ orderIds (console.book ++ [order]) := by
    rw [orderIds_concat]
    exact List.subset_append_left _ _
  exact {
    book := hbook
    listing := h.listing.mono hgrows
    answers := fun reply hreply => (h.answers reply hreply).mono hgrows
    fronted := ⟨front, {
      orders := hfront.orders
      ids := by
        rw [← List.append_assoc, orderIds_concat, ← List.concat_eq_append]
        exact hfront.ids.concat fun hmem => hnew (hfront.known hmem)
      known := by
        rw [← List.append_assoc, orderIds_concat, orderIds_concat]
        exact List.append_subset.mpr
          ⟨List.Subset.trans hfront.known (List.subset_append_left _ _), List.subset_append_right _ _⟩
      notListed := hfront.notListed }⟩ }

/-- No listing that was taken before has an order that is committed. -/
theorem not_listed_of_committed {order : OrderResponse} (h : console.Invariant)
    (hstep : console.step (.committed order) = some after) :
    order.id ∉ orderIds console.listing ∧ ∀ reply ∈ console.answers, order.id ∉ orderIds reply.rows := by
  obtain ⟨⟨-, hnew⟩, -⟩ := Option.ite_none_right_eq_some.mp hstep
  exact ⟨fun hmem => hnew (h.listing.1 hmem), fun reply hreply hmem => hnew ((h.answers reply hreply).1 hmem)⟩

/-- A listing takes the place of all orders. -/
theorem invariant_ordersAnswered {reply : OrdersReply} {now : String} (h : console.Invariant)
    (hstep : console.step (.ordersAnswered reply now) = some after) : after.Invariant := by
  obtain ⟨hmem, hafter⟩ := Option.ite_none_right_eq_some.mp hstep
  obtain rfl := Option.some.inj hafter
  obtain ⟨front, hfront⟩ := h.fronted
  have hcreated : (console.created).Sublist (front ++ console.created) := List.sublist_append_right _ _
  exact {
    book := h.book
    listing := h.answers reply hmem
    answers := fun other hother => h.answers other (List.mem_of_mem_erase hother)
    fronted := ⟨[], {
      orders := StoreService.ordersAnswered_orders ..
      ids := hfront.ids.sublist (hcreated.map _)
      known := List.Subset.trans (hcreated.map _).subset hfront.known
      notListed := fun order horder => absurd horder List.not_mem_nil }⟩ }

/-- An order that is not listed comes in front of the others. -/
theorem invariant_orderCreated {order : OrderResponse} (h : console.Invariant)
    (hnot : order.id ∉ orderIds console.listing) (hstep : console.step (.orderCreated order) = some after) :
    after.Invariant := by
  obtain ⟨hmem, hafter⟩ := Option.ite_none_right_eq_some.mp hstep
  obtain rfl := Option.some.inj hafter
  obtain ⟨front, hfront⟩ := h.fronted
  have hperm : (order :: front ++ console.created.erase order).Perm (front ++ console.created) := by
    rw [List.cons_append]
    exact List.perm_middle.symm.trans ((List.perm_cons_erase hmem).symm.append_left front)
  exact {
    book := h.book
    listing := h.listing
    answers := h.answers
    fronted := ⟨order :: front, {
      orders := congrArg (order :: ·) hfront.orders
      ids := (hperm.map _).nodup_iff.mpr hfront.ids
      known := List.Subset.trans (hperm.map _).subset hfront.known
      notListed := List.forall_mem_cons.mpr ⟨hnot, hfront.notListed⟩ }⟩ }

/-- One that is listed is then shown twice. -/
theorem not_nodup_of_listed {order : OrderResponse} (h : console.Invariant)
    (hlisted : order.id ∈ orderIds console.listing) (hstep : console.step (.orderCreated order) = some after) :
    ¬ (orderIds after.store.orders).Nodup := by
  obtain ⟨-, hafter⟩ := Option.ite_none_right_eq_some.mp hstep
  obtain rfl := Option.some.inj hafter
  obtain ⟨front, hfront⟩ := h.fronted
  intro hnodup
  have hshown : order.id ∈ orderIds console.store.orders := by
    rw [hfront.orders, orderIds, List.map_append]
    exact List.mem_append_right _ hlisted
  exact (List.nodup_cons.mp hnodup).1 hshown

/-- Every step keeps the invariant where an order whose creation is answered is not listed. -/
theorem invariant_step {event : OrderConsoleEvent} (hcond : console.NotListed event) (h : console.Invariant)
    (hstep : console.step event = some after) : after.Invariant := by
  have hsame (ids : List String) : ids ⊆ ids := List.Subset.refl ids
  cases event with
  | command command =>
    cases hperform : console.store.perform command with
    | mk store queries =>
      rw [step, hperform] at hstep
      obtain rfl := Option.some.inj hstep
      have horders : store.orders = console.store.orders := by
        rcases StoreService.perform_cases hperform with ⟨-, -, horders⟩ | ⟨-, query, sort, rfl⟩
        · exact horders
        · rfl
      exact h.frame horders rfl rfl (fun _ => .inl) h.book (hsame _)
  | createOrder =>
    obtain rfl := Option.some.inj hstep
    exact h.frame rfl rfl rfl (fun _ => .inl) h.book (hsame _)
  | committed order => exact invariant_committed h hstep
  | refused =>
    obtain ⟨-, hafter⟩ := Option.ite_none_right_eq_some.mp hstep
    obtain rfl := Option.some.inj hafter
    exact h.frame rfl rfl rfl (fun _ => .inl) h.book (hsame _)
  | bookChanged book =>
    obtain ⟨⟨hknown, hbook⟩, hafter⟩ := Option.ite_none_right_eq_some.mp hstep
    obtain rfl := Option.some.inj hafter
    exact h.frame rfl rfl rfl (fun _ => .inl) hbook hknown
  | taken query rows =>
    obtain ⟨⟨-, hrows⟩, hafter⟩ := Option.ite_none_right_eq_some.mp hstep
    obtain rfl := Option.some.inj hafter
    refine h.frame rfl rfl rfl (fun reply hreply => ?_) h.book (hsame _)
    rcases List.mem_append.mp hreply with hold | hnew
    · exact .inl hold
    · obtain rfl := List.mem_singleton.mp hnew
      exact .inr hrows.listedFrom
  | failed query description =>
    obtain ⟨-, hafter⟩ := Option.ite_none_right_eq_some.mp hstep
    obtain rfl := Option.some.inj hafter
    refine h.frame rfl rfl rfl (fun reply hreply => ?_) h.book (hsame _)
    rcases List.mem_append.mp hreply with hold | hnew
    · exact .inl hold
    · obtain rfl := List.mem_singleton.mp hnew
      exact .inr (listedFrom_nil _)
  | ordersAnswered reply now => exact invariant_ordersAnswered h hstep
  | orderCreated order => exact invariant_orderCreated h hcond hstep
  | highlightOver id =>
    obtain rfl := Option.some.inj hstep
    refine h.frame ?_ rfl rfl (fun _ => .inl) h.book (hsame _)
    change (StoreService.highlightOver id console.store).orders = _
    unfold StoreService.highlightOver
    split <;> rfl

end Steps

/-- Before anything is shown. -/
theorem invariant_start {book : List OrderResponse} (hbook : (orderIds book).Nodup) : Invariant { book := book } where
  book := hbook
  listing := listedFrom_nil book
  answers _ hreply := absurd hreply List.not_mem_nil
  fronted := ⟨[], rfl, List.nodup_nil, List.nil_subset _, fun _ horder => absurd horder List.not_mem_nil⟩

/-- For every order book and every interleaving: in every state of the run no two orders shown have the same id, and
the figures and the slices count every id once, exactly if an order is never in the listing shown when its creation is
answered. -/
theorem orders_counted_once_iff {N : Type} [Zero N] [Add N] [Mul N] [Div N] [NatCast N] (toNumber : ℕ → N)
    (book : List OrderResponse) (events : List OrderConsoleEvent) (console : OrderConsole)
    (hbook : (orderIds book).Nodup) (hrun : runFrom step { book := book } events = some console) :
    (∀ visited ∈ trace step { book := book } events, CountedOnce toNumber visited.store.orders) ↔
      StepsMeet step NotListed { book := book } events := by
  refine forall_mem_trace_iff step Invariant (fun visited => CountedOnce toNumber visited.store.orders) ?_ ?_ ?_ hrun
    (invariant_start hbook)
  · exact fun _ h => countedOnce_iff.mpr h.nodup
  · exact fun _ _ _ => invariant_step
  · intro s event s' hcond h hstep hcounted
    cases event with
    | orderCreated order => exact not_nodup_of_listed h (not_not.mp hcond) hstep hcounted.ids
    | _ => exact hcond trivial

/-- An order of the server, and one that is created. -/
def seededOrder : OrderResponse :=
  ⟨"ORD-001", "CUS-001", "LAP-001", "Laptop", .laptop, 149900, 1, 149900, .paid, "2026-01-01T00:00:00Z"⟩

/-- An order that the form creates. -/
def newOrder : OrderResponse :=
  ⟨"ORD-002", "CUS-001", "PRI-001", "Printer", .printer, 29900, 2, 59800, .pending, "2026-01-02T00:00:00Z"⟩

/-- What the console asks for when nothing is selected. -/
def allOrders : OrderQuery := ⟨none, some 100⟩

/-- The creation is answered while a listing that was taken before it is shown, and another one is on its way. -/
def orderlyRun : List OrderConsoleEvent :=
  [.command .init, .taken allOrders [seededOrder], .createOrder, .ordersAnswered (.ok [seededOrder]) "",
    .committed newOrder, .command .refresh, .taken allOrders [seededOrder, newOrder], .orderCreated newOrder,
    .ordersAnswered (.ok [seededOrder, newOrder]) "", .highlightOver "ORD-002"]

/-- In that run every order is counted once. -/
theorem orders_counted_once_iff_orderlyRun :
    ∃ console, runFrom step { book := [seededOrder] } orderlyRun = some console ∧
      ∀ visited ∈ trace step { book := [seededOrder] } orderlyRun,
        CountedOnce (fun cents => (cents : ℚ) / 100) visited.store.orders := by
  obtain ⟨console, hrun⟩ := Option.isSome_iff_exists.mp
    (show (runFrom step { book := [seededOrder] } orderlyRun).isSome by decide)
  exact ⟨console, hrun,
    (orders_counted_once_iff _ [seededOrder] orderlyRun console (List.nodup_singleton _) hrun).mpr (by decide)⟩

/-- A refresh while the order is being created, whose listing is answered first. -/
def overtakingRun : List OrderConsoleEvent :=
  [.createOrder, .command .refresh, .committed newOrder, .taken allOrders [newOrder],
    .ordersAnswered (.ok [newOrder]) "", .orderCreated newOrder]

/-- The one order of the server is shown and counted twice. -/
theorem order_counted_twice : ∃ console, runFrom step { book := [] } overtakingRun = some console ∧
    console.book = [newOrder] ∧ console.store.orders = [newOrder, newOrder] ∧
    (StoreService.kpis (fun cents => (cents : ℚ) / 100) console.store.orders).total = 2 ∧
    (StoreService.statusSlices console.store.orders : List (StoreService.StatusSlice ℚ)).map (·.count) = [2] := by
  refine ⟨_, rfl, rfl, rfl, rfl, ?_⟩
  exact congrArg (List.map StoreService.StatusSlice.count) (List.mergeSort_singleton _)

end OrderConsole

end Agentops
