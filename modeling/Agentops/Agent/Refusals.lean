import Agentops.Agent.Requesters

/-!
# Cancellations that are refused at once

`cancel_order` looks at the order before it starts a workflow, outside of the transaction that decides. What it
refuses the transaction would refuse as well, at that time and at any later one, since no order comes back into
fulfilment.
-/

namespace Agentops

open DurableExecution LabelledRun RefundWorkflow

/-- A refusal names the reason of its status, and the order has not fallen behind this status since. -/
def Answer.Stands (db : Database) (a : Answer) : Prop :=
  ∀ n status reason, a.orderId = .number n → a.result = .notCancellable status reason →
    status ∉ cancellableOrderStatuses ∧
    reason = (cancellationRejectionReasons status).getD "status_not_cancellable" ∧
    ∃ o, db.findOrder n a.userId = some o ∧ status.phase ≤ o.status.phase

/-- What is above a status that cannot be cancelled cannot be cancelled either, and is the same status unless the order
was delivered. -/
theorem OrderStatus.of_not_cancellable {status status' : OrderStatus} (h : status ∉ cancellableOrderStatuses)
    (hphase : status.phase ≤ status'.phase) :
    status' ∉ cancellableOrderStatuses ∧ (status ≠ .delivered → status' = status) := by
  revert h hphase
  cases status <;> cases status' <;> decide

/-- A refusal still stands when orders have gone on. -/
theorem Answer.Stands.later {db db' : Database} {a : Answer} (h : a.Stands db) (hevolves : db.Evolves db')
    (hkey : KeyedTable.Unique Order.id db'.orders) : a.Stands db' := by
  intro n status reason hn hrefused
  obtain ⟨hstatus, hreason, o, hfind, hphase⟩ := h n status reason hn hrefused
  obtain ⟨o', hfind', hbecomes⟩ := hevolves.findOrder hkey hfind
  exact ⟨hstatus, hreason, o', hfind', hphase.trans hbecomes.phase⟩

/-- Only refusals have to stand. -/
theorem Answer.stands_of_ne {db : Database} {a : Answer}
    (h : ∀ status reason, a.result ≠ .notCancellable status reason) : a.Stands db :=
  fun _ status reason _ hrefused => absurd hrefused (h status reason)

namespace World

/-- Every refusal so far stands. -/
structure Standing (w : World) : Prop where
  sound : StoreSound w.system.db
  answers : ∀ a ∈ w.answers, a.Stands w.system.db

variable {w w' : World}

/-- At first there are no answers. -/
theorem standing_initial {db : Database} (h : StoreSound db) : Standing (.initial db) := ⟨h, by simp [initial]⟩

/-- One more answer that stands. -/
theorem Standing.answer (h : w.Standing) {tool : OrderTool} {userId : String} {orderId : OrderId} {result : ToolResult}
    (hnew : (⟨tool, userId, orderId, result⟩ : Answer).Stands w.system.db) :
    (w.answer tool userId orderId result).Standing := by
  refine ⟨h.sound, fun a ha => ?_⟩
  rcases List.mem_append.mp ha with hold | hlast
  · exact h.answers a hold
  · rw [List.mem_singleton.mp hlast]
    exact hnew

/-- Starting a workflow refuses nothing. -/
theorem Standing.start (h : w.Standing) (input : WorkflowInput) (orderId : OrderId) :
    (w.start input orderId).Standing := by
  have haccepted {s : OrderSystem} {id : String} {i : ℕ} (hdb : s.db = w.system.db) :
      Standing (({ w with system := s } : World).answer input.tool input.request.requestedBy orderId
        (.accepted id i)) := by
    have hrestarted : Standing { w with system := s } := ⟨hdb ▸ h.sound, fun a ha => hdb ▸ h.answers a ha⟩
    exact hrestarted.answer (Answer.stands_of_ne (by simp))
  unfold World.start
  cases hopen : w.system.openRun (input.tool.workflowId input.request.orderNumber) with
  | some i =>
    rw [startWorkflow_joined hopen]
    exact haccepted rfl
  | none =>
    rw [startWorkflow_new hopen]
    exact haccepted rfl

/-- Every event lets every refusal stand. -/
theorem Standing.step (h : w.Standing) {e : ToolEvent} (hstep : toolStep w e = some w') : w'.Standing := by
  cases e with
  | cancelOrder userId orderId =>
    obtain rfl := Option.some.inj hstep
    unfold World.cancelOrder
    cases hparse : parseOrderId orderId with
    | invalid => exact h.answer (Answer.stands_of_ne (by simp))
    | tooLong => exact h.answer (Answer.stands_of_ne (by simp))
    | number n =>
      simp only [getOrderStatusRow_run]
      cases hfind : w.system.db.findOrder n userId with
      | none => exact h.answer (Answer.stands_of_ne (by simp))
      | some o =>
        simp only [Option.map_some]
        by_cases hstatus : o.status ∈ cancellableOrderStatuses
        · rw [if_pos hstatus]
          exact ⟨h.sound, h.answers⟩
        · rw [if_neg hstatus]
          refine h.answer fun m status reason hm hrefused => ?_
          obtain rfl : n = m := OrderId.number.inj hm
          obtain ⟨rfl, rfl⟩ := ToolResult.notCancellable.inj hrefused
          exact ⟨hstatus, rfl, o, hfind, le_rfl⟩
  | startChecked k =>
    simp only [toolStep] at hstep
    split at hstep
    · cases hstep
    · obtain rfl := Option.some.inj hstep
      have hremoved : Standing { w with checked := w.checked.eraseIdx k } := ⟨h.sound, h.answers⟩
      exact hremoved.start _ _
  | requestRefund userId orderId reason =>
    obtain rfl := Option.some.inj hstep
    unfold World.requestRefund
    cases parseOrderId orderId with
    | invalid => exact h.answer (Answer.stands_of_ne (by simp))
    | tooLong => exact h.answer (Answer.stands_of_ne (by simp))
    | number n => exact h.start _ _
  | system e =>
    have hsystem : ∃ s, orderService.step w.system e = some s ∧ w' = { w with system := s } := by
      cases e with
      | start workflowId input => cases hstep
      | _ =>
        simp only [toolStep] at hstep
        obtain ⟨s, hs, rfl⟩ := Option.map_eq_some_iff.mp hstep
        exact ⟨s, hs, rfl⟩
    obtain ⟨s, hs, rfl⟩ := hsystem
    have hsound : StoreSound s.db ∧ w.system.db.Evolves s.db := by
      cases orderService.step_changes hs with
      | ran i e r r' d _ hmove => exact hmove.database orderService_guarantee h.sound
      | outside x d hx => exact Outside.sound h.sound hx
      | _ => exact ⟨h.sound, .refl _⟩
    exact ⟨hsound.1, fun a ha => (h.answers a ha).later hsound.2 hsound.1.schema.ordersKey⟩

/-- Whatever happens, once `cancel_order` has refused to cancel an order, `cancel_order_row` would refuse it at every
later time: it finds the order, cancels nothing and changes nothing. Unless the order was delivered, which may be
followed by a refund, it would also give the status and the reason of the refusal. -/
theorem refused_cancellation_is_final {db : Database} (hdb : StoreSound db) {events : List ToolEvent}
    (hrun : runFrom toolStep (.initial db) events = some w) {a : Answer} (ha : a ∈ w.answers) {n : ℕ}
    (hn : a.orderId = .number n) {status : OrderStatus} {reason : String}
    (hrefused : a.result = .notCancellable status reason) :
    ∃ result, (cancelOrderRow n a.userId).run w.system.db = .ok (result, w.system.db) ∧
      result.found = true ∧ result.cancelled = false ∧
      (status ≠ .delivered → result.status = some status ∧ result.reason = reason) := by
  have hstanding : w.Standing :=
    runFrom_invariant toolStep Standing (fun _ _ _ hstanding hstep => hstanding.step hstep) hrun (standing_initial hdb)
  obtain ⟨hstatus, rfl, o, hfind, hphase⟩ := hstanding.answers a ha n status reason hn hrefused
  obtain ⟨hnot, hsame⟩ := OrderStatus.of_not_cancellable hstatus hphase
  obtain ⟨out, hout, hcase⟩ := cancelOrderRow_outcome w.system.db n a.userId
  cases hcase with
  | missing hnone =>
    rw [hfind] at hnone
    cases hnone
  | refused o' hfind' _ =>
    obtain rfl := Option.some.inj (hfind.symm.trans hfind')
    refine ⟨_, hout, rfl, rfl, fun hdelivered => ?_⟩
    rw [CancellationResult.refused, hsame hdelivered]
    exact ⟨rfl, rfl⟩
  | done o' hfind' hdone =>
    obtain rfl := Option.some.inj (hfind.symm.trans hfind')
    exact absurd hdone hnot

/-- A delivered order is not cancelled, and is refunded afterwards. -/
def refusedThenRefunded : List ToolEvent :=
  [.cancelOrder "CUS-005" "ord-5", .requestRefund "CUS-005" "ORD-005" "damaged",
    .system (.run 0 .begin), .system (.run 0 .execute), .system (.run 0 .report),
    .system (.run 0 .execute), .system (.run 0 .report)]

/-- An order that was refused as delivered is refunded, and cancelling it is refused again. -/
theorem refused_cancellation_is_final_refunded :
    ∃ w result, runFrom toolStep (.initial orderOf98) refusedThenRefunded = some w ∧
      (w.system.db.findOrder 5 "CUS-005").map Order.status = some .refunded ∧
      (cancelOrderRow 5 "CUS-005").run w.system.db = .ok (result, w.system.db) ∧ result.cancelled = false := by
  have hcomputed : (runFrom toolStep (.initial orderOf98) refusedThenRefunded).map (fun w =>
      (w.answers[0]?, (w.system.db.findOrder 5 "CUS-005").map Order.status)) =
      some (some ⟨.cancelOrder, "CUS-005", .number 5, .notCancellable .delivered "delivered_order"⟩,
        some .refunded) := by decide +kernel
  obtain ⟨w, hrun, hfacts⟩ := Option.map_eq_some_iff.mp hcomputed
  obtain ⟨hanswer, hrefunded⟩ := Prod.mk.inj hfacts
  obtain ⟨result, hresult, -, hcancelled, -⟩ :=
    refused_cancellation_is_final storeSound_orderOf98 hrun (List.mem_of_getElem? hanswer) rfl rfl
  exact ⟨w, result, hrun, hrefunded, hresult, hcancelled⟩

end World

end Agentops
