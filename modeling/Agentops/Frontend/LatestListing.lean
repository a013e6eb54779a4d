import Agentops.Foundations.InFlight
import Agentops.Foundations.LabelledRun
import Agentops.Frontend.StoreService

/-!
# The answer to the latest request

Every command asks for orders anew, and every answer is written when it comes. So the console shows the answer to its
last request, and loads as long as any request waits, exactly in the runs in which an answer only ever comes while no
other request waits.
-/

namespace Agentops

open LabelledRun
open InFlight (Requests)

/-- The store and its requests for orders. -/
structure ListingConsole where
  store : StoreService := {}
  requests : Requests OrderQuery OrdersReply := {}
  deriving DecidableEq

/-- A command is given, or a request that waits is answered. -/
inductive ListingEvent
  | command (command : StoreService.Command)
  | answered (number : ℕ) (reply : OrdersReply) (now : String)

/-- The orders and the error are those of the answer. -/
def StoreService.Shows (store : StoreService) : OrdersReply → Prop
  | .ok orders => store.orders = orders ∧ store.error = none
  | .error description => store.orders = [] ∧ store.error = some description

namespace ListingConsole

/-- One event. -/
def step (console : ListingConsole) : ListingEvent → Option ListingConsole
  | .command command =>
    let (store, queries) := console.store.perform command
    some ⟨store, queries.foldl (fun requests query => requests.send query) console.requests⟩
  | .answered number reply now =>
    (console.requests.answer number reply).map fun requests => ⟨console.store.ordersAnswered now reply, requests⟩

/-- Once no request waits, the answer to the last one is shown, which asked for what is selected; and the console loads
as long as any waits. -/
structure ShowsLatest (console : ListingConsole) : Prop where
  latest : console.requests.waiting = [] → console.requests.sent ≠ [] →
    console.requests.sent.getLast? = some console.store.orderQuery ∧
      ∃ reply, console.requests.lastAnswer = some reply ∧ console.store.Shows reply
  loading : console.store.loading = false → console.requests.waiting = []

/-- An answer comes while no other request waits. -/
def AnsweredAlone (console : ListingConsole) : ListingEvent → Prop
  | .command _ => True
  | .answered number _ _ => console.requests.waiting = [number]

instance (console : ListingConsole) (event : ListingEvent) : Decidable (console.AnsweredAlone event) := by
  cases event <;> unfold AnsweredAlone <;> infer_instance

/-- What makes that so. -/
structure Invariant (console : ListingConsole) : Prop where
  lastWaits : console.requests.LastWaits
  lastQuery : console.requests.sent ≠ [] → console.requests.sent.getLast? = some console.store.orderQuery
  shown : console.requests.waiting = [] → console.requests.sent ≠ [] →
    ∃ reply, console.requests.lastAnswer = some reply ∧ console.store.Shows reply
  loading : console.store.loading = false → console.requests.waiting = []

/-- So the latest query is the one that is shown. -/
theorem Invariant.showsLatest {console : ListingConsole} (h : console.Invariant) : console.ShowsLatest :=
  ⟨fun hnone hne => ⟨h.lastQuery hne, h.shown hnone hne⟩, h.loading⟩

section Steps

variable {console after : ListingConsole}

/-- A command sends a request for what is selected and loads, or changes nothing but the search text and the order of
the rows. -/
theorem invariant_command (command : StoreService.Command) (h : console.Invariant)
    (hstep : console.step (.command command) = some after) : after.Invariant := by
  cases hperform : console.store.perform command with
  | mk store queries =>
    rw [step, hperform] at hstep
    obtain rfl := Option.some.inj hstep
    rcases StoreService.perform_cases hperform with ⟨rfl, hloading, -⟩ | ⟨rfl, query, sort, rfl⟩
    · have hwaits : (console.requests.send store.orderQuery).waiting ≠ [] := List.cons_ne_nil _ _
      exact {
        lastWaits := InFlight.Requests.lastWaits_send store.orderQuery console.requests
        lastQuery := fun _ => List.getLast?_concat
        shown := fun hnone => absurd hnone hwaits
        loading := fun hnot => absurd (hloading.symm.trans hnot) (by simp) }
    · exact ⟨h.lastWaits, h.lastQuery, h.shown, h.loading⟩

/-- An answer that comes alone is the one to the last request, and is shown. -/
theorem invariant_answered {number : ℕ} {reply : OrdersReply} {now : String} (h : console.Invariant)
    (halone : console.requests.waiting = [number]) (hstep : console.step (.answered number reply now) = some after) :
    after.Invariant := by
  obtain ⟨requests, hanswer, rfl⟩ := Option.map_eq_some_iff.mp hstep
  obtain ⟨hlast, hnone, hreply⟩ := h.lastWaits.answer halone hanswer
  have hsent : requests.sent = console.requests.sent := by rw [(Requests.answer_eq_some.mp hanswer).2]
  exact {
    lastWaits := hlast
    lastQuery := fun hne => by
      rw [StoreService.ordersAnswered_orderQuery, hsent]
      exact h.lastQuery (hsent ▸ hne)
    shown := fun _ _ => ⟨reply, hreply, by cases reply <;> exact ⟨rfl, rfl⟩⟩
    loading := fun _ => hnone }

/-- An answer that does not come alone ends the loading while another request waits. -/
theorem not_showsLatest_of_not_alone {number : ℕ} {reply : OrdersReply} {now : String}
    (halone : console.requests.waiting ≠ [number]) (hstep : console.step (.answered number reply now) = some after) :
    ¬ after.ShowsLatest := by
  obtain ⟨requests, hanswer, rfl⟩ := Option.map_eq_some_iff.mp hstep
  intro h
  exact Requests.waiting_ne_nil_of_not_alone halone hanswer (h.loading (StoreService.ordersAnswered_loading _ _ _))

end Steps

/-- Nothing has been asked for in the beginning. -/
theorem invariant_empty : Invariant {} where
  lastWaits := Requests.lastWaits_empty
  lastQuery h := absurd rfl h
  shown _ h := absurd rfl h
  loading h := absurd h (by simp)

/-- For every sequence of commands and every order in which answers come: in every state of the run the console shows
the answer to its last request once none waits, and loads as long as one waits, exactly if every answer comes while no
other request waits. -/
theorem latest_answer_shown_iff (events : List ListingEvent) (console : ListingConsole)
    (hrun : runFrom step {} events = some console) :
    (∀ visited ∈ trace step {} events, visited.ShowsLatest) ↔ StepsMeet step AnsweredAlone {} events := by
  refine forall_mem_trace_iff step Invariant ShowsLatest (fun _ => Invariant.showsLatest) ?_ ?_ hrun invariant_empty
  · intro s event s' halone hinv hstep
    cases event with
    | command command => exact invariant_command command hinv hstep
    | answered number reply now => exact invariant_answered hinv halone hstep
  · intro s event s' halone _ hstep
    cases event with
    | command command => exact absurd trivial halone
    | answered number reply now => exact not_showsLatest_of_not_alone halone hstep

/-- The orders of a status, and those of another one in their place. -/
def listed (status : OrderStatus) : OrdersReply :=
  .ok [⟨"ORD-001", "CUS-001", "LAP-001", "Laptop", .laptop, 149900, 1, 149900, status, "2026-01-01T00:00:00Z"⟩]

/-- Answers that come one by one, one of them a failure. -/
def patientRun : List ListingEvent :=
  [.command .init, .answered 0 (.error "503 Request failed") "", .command (.setStatus (some .paid)),
    .answered 1 (listed .paid) "2026-01-02T00:00:00Z", .command (.setStatus (some .paid)), .command .clearFilters,
    .answered 2 (listed .paid) "2026-01-02T00:00:01Z"]

/-- In that run the latest answer is shown all along. -/
theorem latest_answer_shown_iff_patientRun : ∃ console, runFrom step {} patientRun = some console ∧
    ∀ visited ∈ trace step {} patientRun, visited.ShowsLatest := by
  obtain ⟨console, hrun⟩ := Option.isSome_iff_exists.mp (show (runFrom step {} patientRun).isSome by decide)
  exact ⟨console, hrun, (latest_answer_shown_iff patientRun console hrun).mpr (by decide)⟩

/-- Two statuses selected one after the other, and the answers in the other order. -/
def overtakenRun : List ListingEvent :=
  [.command (.setStatus (some .paid)), .command (.setStatus (some .shipped)),
    .answered 1 (listed .shipped) "2026-01-02T00:00:00Z", .answered 0 (listed .paid) "2026-01-02T00:00:01Z"]

/-- The console loads no more while a request waits, and ends with the orders of the status that is not selected. -/
theorem latest_answer_not_shown :
    (∃ console, runFrom step {} (overtakenRun.take 3) = some console ∧
      console.store.loading = false ∧ console.requests.waiting = [0]) ∧
    ∃ console, runFrom step {} overtakenRun = some console ∧ console.requests.waiting = [] ∧
      console.store.status = some .shipped ∧ console.store.orders.map (·.status) = [.paid] :=
  ⟨⟨_, rfl, rfl, rfl⟩, ⟨_, rfl, rfl, rfl, rfl⟩⟩

end ListingConsole

end Agentops
