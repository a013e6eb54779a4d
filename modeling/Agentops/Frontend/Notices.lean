import Agentops.Foundations.Delays
import Agentops.Foundations.LabelledRun
import Agentops.Frontend.StoreService

/-!
# What goes away by itself, `toast.service.ts` and `store.service.ts`

A toast is shown until its timer runs, unless it is dismissed before, and the mark of a new order until its own timer
runs, unless another order is created before. The timers of earlier ones change nothing of this.
-/

namespace Agentops

open Delays LabelledRun

/-- `ToastKind`. -/
inductive ToastKind
  | success | error | info
  deriving DecidableEq, Repr

/-- `Toast`. -/
structure Toast where
  id : ℕ
  kind : ToastKind
  title : String
  body : Option String
  deriving DecidableEq, Repr

/-- `DISMISS_AFTER_MS`. -/
def dismissAfterMs : ℕ := 5000

/-- `ToastService`, with its timers. -/
structure ToastService where
  nextId : ℕ := 1
  toasts : List Toast := []
  timers : Timers ℕ := {}

namespace ToastService

/-- `dismiss`. -/
def dismiss (id : ℕ) (service : ToastService) : ToastService :=
  { service with toasts := service.toasts.filter (·.id ≠ id) }

/-- `push`. -/
def push (kind : ToastKind) (title : String) (body : Option String) (service : ToastService) : ToastService :=
  { nextId := service.nextId + 1
    toasts := service.toasts ++ [⟨service.nextId, kind, title, body⟩]
    timers := service.timers.set service.nextId }

end ToastService

/-- The service, and a record of the toasts so far, each with its time, and of those that were dismissed. -/
structure ToastHost where
  service : ToastService := {}
  pushed : List (ℕ × Toast) := []
  dismissed : List ℕ := []

/-- What happens to the toasts. -/
inductive ToastEvent
  | push (kind : ToastKind) (title : String) (body : Option String)
  /-- The button of a toast that is shown. -/
  | dismiss (id : ℕ)
  | pass (time : ℕ)
  | timer

/-- One event; a timer runs once it is due. -/
def toastStep (host : ToastHost) : ToastEvent → Option ToastHost
  | .push kind title body => some
      { host with
        service := host.service.push kind title body
        pushed := host.pushed ++ [(host.service.timers.now, ⟨host.service.nextId, kind, title, body⟩)] }
  | .dismiss id =>
    if id ∈ host.service.toasts.map (·.id) then
      some { host with service := host.service.dismiss id, dismissed := host.dismissed ++ [id] }
    else none
  | .pass time => some { host with service := { host.service with timers := host.service.timers.pass time } }
  | .timer => (host.service.timers.run? dismissAfterMs).map fun (id, timers) =>
      { host with service := { host.service.dismiss id with timers := timers } }

/-- The timer of a toast. -/
def toastTimer (entry : ℕ × Toast) : ℕ × ℕ := (entry.1, entry.2.id)

namespace ToastHost

/-- What holds between the record, the timers and what is shown. -/
structure Consistent (host : ToastHost) : Prop where
  ids : host.pushed.map (·.2.id) = List.range' 1 host.pushed.length
  next : host.service.nextId = host.pushed.length + 1
  dismissed : ∀ id ∈ host.dismissed, id ≤ host.pushed.length
  timers : host.service.timers.Recorded dismissAfterMs (host.pushed.map toastTimer)
  shown : host.service.toasts = (host.pushed.filter fun entry =>
    entry.2.id ∈ host.service.timers.waiting.map Prod.snd ∧ entry.2.id ∉ host.dismissed).map Prod.snd

variable {host host' : ToastHost}

/-- So it is before anything is pushed. -/
theorem consistent_initial : Consistent {} := ⟨rfl, rfl, nofun, Timers.recorded_initial _, rfl⟩

/-- No toast has the number of the next one. -/
theorem Consistent.id_le (h : host.Consistent) {entry : ℕ × Toast} (hentry : entry ∈ host.pushed) :
    entry.2.id ≤ host.pushed.length := by
  have hid : entry.2.id ∈ List.range' 1 host.pushed.length := h.ids ▸ List.mem_map_of_mem hentry
  have hrange := List.mem_range'_1.mp hid
  omega

/-- The timers that wait are those of different toasts. -/
theorem Consistent.nodup_waiting (h : host.Consistent) : (host.service.timers.waiting.map Prod.snd).Nodup := by
  obtain ⟨past, hrecord, -⟩ := h.timers
  have hids : (host.pushed.map toastTimer).map Prod.snd = List.range' 1 host.pushed.length := by
    rw [← h.ids, List.map_map]
    rfl
  have hall : ((past ++ host.service.timers.waiting).map Prod.snd).Nodup := by
    rw [← hrecord, hids]
    exact List.nodup_range'
  rw [List.map_append] at hall
  exact (List.nodup_append.mp hall).2.1

/-- A push gives the toast the next id and sets its timer. -/
theorem Consistent.push (h : host.Consistent) (kind : ToastKind) (title : String) (body : Option String) :
    Consistent
      { host with
        service := host.service.push kind title body
        pushed := host.pushed ++ [(host.service.timers.now, ⟨host.service.nextId, kind, title, body⟩)] } := by
  refine ⟨?_, ?_, fun id hid => ?_, ?_, ?_⟩
  · rw [List.map_append, h.ids, List.length_append, List.length_singleton, List.range'_concat, h.next]
    simp [Nat.add_comm]
  · simp [ToastService.push, h.next]
  · rw [List.length_append]
    exact Nat.le_add_right_of_le (h.dismissed id hid)
  · rw [List.map_append]
    exact h.timers.set _
  · have hold : ∀ entry ∈ host.pushed, entry.2.id ≠ host.service.nextId := by
      intro entry hentry
      have hle := h.id_le hentry
      rw [h.next]
      omega
    have hnew : host.service.nextId ∉ host.dismissed := by
      intro hmem
      have hle := h.dismissed _ hmem
      rw [h.next] at hle
      omega
    simp only [ToastService.push, Timers.set, List.filter_append, List.map_append, h.shown]
    congr 1
    · congr 1
      apply List.filter_congr
      intro entry hentry
      exact decide_eq_decide.mpr (and_congr_left fun _ => by simp [hold entry hentry])
    · simp [hnew]

/-- A dismissal takes the toast out, and its timer stays. -/
theorem Consistent.dismiss (h : host.Consistent) {id : ℕ} (hid : id ∈ host.service.toasts.map (·.id)) :
    Consistent { host with service := host.service.dismiss id, dismissed := host.dismissed ++ [id] } := by
  refine ⟨h.ids, h.next, fun other hother => ?_, h.timers, ?_⟩
  · rcases List.mem_append.mp hother with hold | hlast
    · exact h.dismissed other hold
    · rw [List.mem_singleton.mp hlast]
      obtain ⟨toast, htoast, rfl⟩ := List.mem_map.mp hid
      rw [h.shown] at htoast
      obtain ⟨entry, hentry, rfl⟩ := List.mem_map.mp htoast
      exact h.id_le (List.mem_filter.mp hentry).1
  · simp only [ToastService.dismiss]
    rw [h.shown, List.filter_map, List.filter_filter]
    congr 1
    apply List.filter_congr
    intro entry _
    simp only [Function.comp_apply, List.mem_append, List.mem_singleton, not_or, ne_eq, Bool.decide_and]
    ac_rfl

/-- A timer that is due takes out the oldest toast, if it is still shown. -/
theorem Consistent.timer (h : host.Consistent) {id : ℕ} {timers : Timers ℕ}
    (hrun : host.service.timers.run? dismissAfterMs = some (id, timers)) :
    Consistent { host with service := { host.service.dismiss id with timers := timers } } := by
  obtain ⟨since, hwaiting, -, -⟩ := Timers.run?_eq_some hrun
  have hnodup := h.nodup_waiting
  rw [hwaiting, List.map_cons, List.nodup_cons] at hnodup
  refine ⟨h.ids, h.next, h.dismissed, h.timers.run hrun, ?_⟩
  simp only [ToastService.dismiss]
  rw [h.shown, List.filter_map, List.filter_filter]
  congr 1
  apply List.filter_congr
  intro entry _
  have hrest : (entry.2.id ≠ id ∧ entry.2.id ∈ host.service.timers.waiting.map Prod.snd) ↔
      entry.2.id ∈ timers.waiting.map Prod.snd := by
    rw [hwaiting, List.map_cons, List.mem_cons]
    constructor
    · rintro ⟨hne, heq | hwaits⟩
      · exact absurd heq hne
      · exact hwaits
    · intro hwaits
      exact ⟨fun heq => hnodup.1 (heq ▸ hwaits), .inr hwaits⟩
  simp only [Function.comp_apply, ← Bool.decide_and, ← hrest, and_assoc]

/-- Every event keeps it so. -/
theorem Consistent.step (h : host.Consistent) {e : ToastEvent} (hstep : toastStep host e = some host') :
    host'.Consistent := by
  cases e with
  | push kind title body =>
    obtain rfl := Option.some.inj hstep
    exact h.push kind title body
  | dismiss id =>
    simp only [toastStep, Option.ite_none_right_eq_some, Option.some.injEq] at hstep
    obtain ⟨hid, rfl⟩ := hstep
    exact h.dismiss hid
  | pass time =>
    obtain rfl := Option.some.inj hstep
    exact ⟨h.ids, h.next, h.dismissed, h.timers.pass time, h.shown⟩
  | timer =>
    obtain ⟨⟨id, timers⟩, hrun, rfl⟩ := Option.map_eq_some_iff.mp hstep
    exact h.timer hrun

/-- In every run of pushes, dismissals and timers: no two toasts that are shown have the same id, and whenever no timer
is due, exactly those toasts are shown, in their order, that were pushed within five seconds and not dismissed. -/
theorem toasts_are_recent {events : List ToastEvent} (hrun : runFrom toastStep {} events = some host) :
    (host.service.toasts.map (·.id)).Nodup ∧
      (host.service.timers.Settled dismissAfterMs → host.service.toasts =
        (host.pushed.filter fun entry =>
          host.service.timers.now < entry.1 + dismissAfterMs ∧ entry.2.id ∉ host.dismissed).map Prod.snd) := by
  have h : host.Consistent :=
    runFrom_invariant toastStep Consistent (fun _ _ _ h hstep => h.step hstep) hrun consistent_initial
  have hids : (host.pushed.map (·.2.id)).Nodup := h.ids ▸ List.nodup_range'
  refine ⟨?_, fun hsettled => ?_⟩
  · rw [h.shown, List.map_map]
    exact hids.sublist (List.filter_sublist.map _)
  · rw [h.shown]
    congr 1
    apply List.filter_congr
    intro entry hentry
    have hwaits : entry.2.id ∈ host.service.timers.waiting.map Prod.snd ↔
        host.service.timers.now < entry.1 + dismissAfterMs := by
      rw [h.timers.waiting_eq hsettled, List.mem_map]
      constructor
      · rintro ⟨timer, htimer, hid⟩
        obtain ⟨hrecorded, hwithin⟩ := List.mem_filter.mp htimer
        obtain ⟨other, hother, rfl⟩ := List.mem_map.mp hrecorded
        obtain rfl := List.inj_on_of_nodup_map hids hother hentry hid
        exact of_decide_eq_true hwithin
      · intro hwithin
        exact ⟨toastTimer entry, List.mem_filter.mpr ⟨List.mem_map_of_mem hentry, decide_eq_true hwithin⟩, rfl⟩
    simp only [hwaits]

/-- Two toasts, of which the second is dismissed, and a third one; the timers of the first two run late. -/
def threeToasts : List ToastEvent :=
  [.push .success "Order ORD-121 created" (some "1 x Everyday Laptop 14 for CUS-001"), .pass 1000,
    .push .error "Order was not created" (some "Product not found"), .dismiss 2, .pass 4000,
    .push .error "Could not load the catalogue" none, .pass 2000, .timer, .timer]

/-- Of three toasts one has been dismissed and one has been shown long enough. -/
theorem toasts_are_recent_threeToasts :
    ∃ host, runFrom toastStep {} threeToasts = some host ∧
      host.service.toasts = [⟨3, .error, "Could not load the catalogue", none⟩] := by
  have hcomputed : (runFrom toastStep {} threeToasts).map (fun host =>
      (host.pushed, host.service.timers.now, host.service.timers.waiting, host.dismissed)) =
      some ([(0, ⟨1, .success, "Order ORD-121 created", some "1 x Everyday Laptop 14 for CUS-001"⟩),
        (1000, ⟨2, .error, "Order was not created", some "Product not found"⟩),
        (5000, ⟨3, .error, "Could not load the catalogue", none⟩)], 7000, [(5000, 3)], [2]) := by decide +kernel
  obtain ⟨host, hrun, hfacts⟩ := Option.map_eq_some_iff.mp hcomputed
  simp only [Prod.mk.injEq] at hfacts
  obtain ⟨hpushed, hnow, hwaiting, hdismissed⟩ := hfacts
  have hsettled : host.service.timers.Settled dismissAfterMs := by
    rw [Timers.Settled, hwaiting, hnow]
    decide
  refine ⟨host, hrun, ?_⟩
  rw [(toasts_are_recent hrun).2 hsettled, hpushed, hnow, hdismissed]
  decide

end ToastHost

/-! ### The mark of a new order -/

/-- How long the mark stays, in milliseconds. -/
def highlightMs : ℕ := 2500

/-- The store with the timers that `createOrder` sets, and a record of the orders created, each with its time. -/
structure MarkedStore where
  store : StoreService := {}
  timers : Timers String := {}
  created : List (ℕ × String) := []

/-- What happens to the marks. -/
inductive MarkEvent
  | orderCreated (order : OrderResponse)
  | pass (time : ℕ)
  | timer
  /-- Any other change of the signals. -/
  | others (store : StoreService)

/-- One event; others may change the store but not the mark. -/
def markStep (marked : MarkedStore) : MarkEvent → Option MarkedStore
  | .orderCreated order => some
      { store := marked.store.orderCreated order
        timers := marked.timers.set order.id
        created := marked.created ++ [(marked.timers.now, order.id)] }
  | .pass time => some { marked with timers := marked.timers.pass time }
  | .timer => (marked.timers.run? highlightMs).map fun (id, timers) =>
      { marked with store := marked.store.highlightOver id, timers := timers }
  | .others store =>
    if store.highlighted = marked.store.highlighted then some { marked with store := store } else none

namespace MarkedStore

/-- The mark belongs to the last timer that waits. -/
structure Marks (marked : MarkedStore) : Prop where
  timers : marked.timers.Recorded highlightMs marked.created
  last : marked.store.highlighted = marked.timers.waiting.getLast?.map Prod.snd

variable {marked marked' : MarkedStore}

/-- The record only grows. -/
theorem created_sublist {e : MarkEvent} (hstep : markStep marked e = some marked') :
    marked.created.Sublist marked'.created := by
  cases e with
  | orderCreated order =>
    obtain rfl := Option.some.inj hstep
    exact List.sublist_append_left _ _
  | pass time =>
    obtain rfl := Option.some.inj hstep
    exact List.Sublist.refl _
  | timer =>
    obtain ⟨-, -, rfl⟩ := Option.map_eq_some_iff.mp hstep
    exact List.Sublist.refl _
  | others store =>
    simp only [markStep] at hstep
    split at hstep
    · obtain rfl := Option.some.inj hstep
      exact List.Sublist.refl _
    · cases hstep

/-- A run in which no order is created twice keeps it so. -/
theorem Marks.step (h : marked.Marks) (hids : (marked.created.map Prod.snd).Nodup) {e : MarkEvent}
    (hstep : markStep marked e = some marked') : marked'.Marks := by
  cases e with
  | orderCreated order =>
    obtain rfl := Option.some.inj hstep
    refine ⟨h.timers.set order.id, ?_⟩
    simp [StoreService.orderCreated, Timers.set]
  | pass time =>
    obtain rfl := Option.some.inj hstep
    exact ⟨h.timers.pass time, h.last⟩
  | timer =>
    obtain ⟨⟨id, timers⟩, hrun, rfl⟩ := Option.map_eq_some_iff.mp hstep
    refine ⟨h.timers.run hrun, ?_⟩
    obtain ⟨since, hwaiting, -, -⟩ := Timers.run?_eq_some hrun
    have hlast := h.last
    rw [hwaiting] at hlast
    cases hrest : timers.waiting with
    | nil =>
      have hmarked : marked.store.highlighted = some id := by simpa [hrest] using hlast
      simp [StoreService.highlightOver, hmarked]
    | cons next rest =>
      rw [hrest, List.getLast?_cons_cons] at hlast
      have hother : marked.store.highlighted ≠ some id := by
        intro hmarked
        obtain ⟨timer, htimer, hid⟩ := Option.map_eq_some_iff.mp (hlast.symm.trans hmarked)
        obtain ⟨past, hrecord, -⟩ := h.timers
        rw [hrecord, hwaiting, hrest, List.map_append, List.map_cons] at hids
        have hfresh := (List.nodup_cons.mp (List.nodup_append.mp hids).2.1).1
        have hwaits : timer.2 ∈ (next :: rest).map Prod.snd := List.mem_map_of_mem (List.mem_of_getLast? htimer)
        exact hfresh (hid ▸ hwaits)
      have hsame : marked.store.highlightOver id = marked.store := if_neg hother
      simp only [hsame, hlast]
  | others store =>
    simp only [markStep, Option.ite_none_right_eq_some, Option.some.injEq] at hstep
    obtain ⟨hsame, rfl⟩ := hstep
    exact ⟨h.timers, hsame.trans h.last⟩

/-- In every run in which no order is created twice: whenever no timer is due, the order is marked that was created last
of those within two and a half seconds, and none if there was none. -/
theorem mark_is_latest {events : List MarkEvent} (hrun : runFrom markStep {} events = some marked)
    (hids : (marked.created.map Prod.snd).Nodup) (hsettled : marked.timers.Settled highlightMs) :
    marked.store.highlighted =
      (marked.created.filter fun entry => marked.timers.now < entry.1 + highlightMs).getLast?.map Prod.snd := by
  have hkept : (marked.created.map Prod.snd).Nodup → marked.Marks := by
    refine runFrom_invariant markStep (fun m => (m.created.map Prod.snd).Nodup → m.Marks)
      (fun m e m' h hstep hids' => ?_) hrun fun _ => ⟨Timers.recorded_initial _, rfl⟩
    have hearlier : (m.created.map Prod.snd).Nodup := hids'.sublist ((created_sublist hstep).map _)
    exact (h hearlier).step hearlier hstep
  rw [(hkept hids).last, (hkept hids).timers.waiting_eq hsettled]

/-- An order with this id. -/
def someOrder (id : String) : OrderResponse :=
  ⟨id, "CUS-001", "LAP-001", "Everyday Laptop 14", .laptop, 74900, 1, 74900, .pending, "2026-07-01"⟩

/-- Two orders, a second apart, until the timer of the first one has run. -/
def twoMarks : List MarkEvent :=
  [.orderCreated (someOrder "ORD-121"), .pass 1000, .orderCreated (someOrder "ORD-122"), .pass 1500, .timer]

/-- The second of two orders is marked, though the timer of the first has run. -/
theorem mark_is_latest_twoMarks :
    ∃ marked, runFrom markStep {} twoMarks = some marked ∧ marked.store.highlighted = some "ORD-122" := by
  have hcomputed : (runFrom markStep {} twoMarks).map (fun marked =>
      (marked.created, marked.timers.now, marked.timers.waiting)) =
      some ([(0, "ORD-121"), (1000, "ORD-122")], 2500, [(1000, "ORD-122")]) := by decide +kernel
  obtain ⟨marked, hrun, hfacts⟩ := Option.map_eq_some_iff.mp hcomputed
  simp only [Prod.mk.injEq] at hfacts
  obtain ⟨hcreated, hnow, hwaiting⟩ := hfacts
  have hsettled : marked.timers.Settled highlightMs := by
    rw [Timers.Settled, hwaiting, hnow]
    decide
  refine ⟨marked, hrun, ?_⟩
  rw [mark_is_latest hrun (by rw [hcreated]; decide) hsettled, hcreated, hnow]
  decide

end MarkedStore

end Agentops
