import Agentops.Agent.OrderTools
import Agentops.Workflow.Amounts

/-!
# For whom a run was started

As long as every call of `request_refund` that starts a run comes from the order's customer, every
run belongs to the customer of its order, so an accepted request is served for its own requester.
`cancel_order` makes sure of that itself. A foreign call of `request_refund` that starts a run does
not: the run answers the customer's own request until it is closed.
-/

namespace Agentops

open DurableExecution LabelledRun RefundWorkflow

/-- The order of this number is the customer's. -/
def Database.Owns (db : Database) (n : ℤ) (customerId : String) : Prop :=
  ∃ o, db.findOrder n customerId = some o

/-- An order has one customer. -/
theorem Database.Owns.unique {db : Database} (hkey : KeyedTable.Unique Order.id db.orders) {n : ℤ}
    {c c' : String} (h : db.Owns n c) (h' : db.Owns n c') : c = c' := by
  obtain ⟨o, ho⟩ := h
  obtain ⟨o', ho'⟩ := h'
  obtain ⟨hmem, hid, rfl⟩ := Database.findOrder_eq_some ho
  obtain ⟨hmem', hid', rfl⟩ := Database.findOrder_eq_some ho'
  rw [hkey.eq_of_key_eq hmem hmem' (hid.trans hid'.symm)]

theorem Database.Evolves.owns {db db' : Database} (h : db.Evolves db')
    (hkey : KeyedTable.Unique Order.id db'.orders) {n : ℤ} {c : String} (howns : db.Owns n c) :
    db'.Owns n c :=
  have ⟨_, ho⟩ := howns
  have ⟨o', ho', _⟩ := h.findOrder hkey ho
  ⟨o', ho'⟩

/-- The run was started under its order's id, for the order's customer. -/
def StartedByOwner (db : Database) (r : OrderRun) : Prop :=
  r.workflowId = r.input.tool.workflowId r.input.request.orderNumber ∧
    db.Owns r.input.request.orderNumber r.input.request.requestedBy

/-- An accepted answer names a run that was started under the id of the call's order. -/
def Answer.Names (s : OrderSystem) (a : Answer) : Prop :=
  ∀ id i, a.result = .accepted id i → ∃ n r, a.orderId = .number n ∧ s.runs[i]? = some r ∧
    r.workflowId = a.tool.workflowId n

namespace World

/-- Every run and every cancellation under way belongs to its order's customer. -/
structure Owned (w : World) : Prop where
  sound : StoreSound w.system.db
  runs : ∀ r ∈ w.system.runs, StartedByOwner w.system.db r
  checked : ∀ input ∈ w.checked, 0 ≤ input.orderNumber ∧ w.system.db.Owns input.orderNumber input.requestedBy
  answers : ∀ a ∈ w.answers, a.Names w.system

variable {w w' : World}

theorem owned_initial {db : Database} (h : StoreSound db) : Owned (.initial db) :=
  ⟨h, by simp [initial, System.initial], by simp [initial], by simp [initial]⟩

/-- An answer that starts nothing names no run. -/
theorem Owned.answer (h : w.Owned) (tool : OrderTool) (userId : String) (orderId : OrderId)
    {result : ToolResult} (hresult : ∀ id i, result ≠ .accepted id i) :
    (w.answer tool userId orderId result).Owned := by
  refine ⟨h.sound, h.runs, h.checked, fun a ha => ?_⟩
  rcases List.mem_append.mp ha with hold | hnew
  · exact h.answers a hold
  · obtain rfl := List.mem_singleton.mp hnew
    exact fun id i haccepted => absurd haccepted (hresult id i)

/-- A start for the order's customer keeps every run its customer's. So does one that starts
nothing. -/
theorem Owned.start (h : w.Owned) {input : WorkflowInput} {n : ℕ} (hn : input.request.orderNumber = n)
    (howns : w.system.openRun (input.tool.workflowId input.request.orderNumber) = none →
      w.system.db.Owns input.request.orderNumber input.request.requestedBy) :
    (w.start input (.number n)).Owned := by
  unfold World.start
  cases hopen : w.system.openRun (input.tool.workflowId input.request.orderNumber) with
  | some i =>
    rw [startWorkflow_joined hopen]
    refine ⟨h.sound, h.runs, h.checked, fun a ha => ?_⟩
    rcases List.mem_append.mp ha with hold | hnew
    · exact h.answers a hold
    · obtain rfl := List.mem_singleton.mp hnew
      intro id j haccepted
      obtain ⟨-, rfl⟩ := ToolResult.accepted.inj haccepted
      obtain ⟨r, hr, hid, -⟩ := System.openRun_eq_some hopen
      exact ⟨n, r, rfl, hr, hn ▸ hid⟩
  | none =>
    rw [startWorkflow_new hopen]
    refine ⟨h.sound, fun r hr => ?_, h.checked, fun a ha => ?_⟩
    · rcases List.mem_append.mp hr with hold | hnew
      · exact h.runs r hold
      · obtain rfl := List.mem_singleton.mp hnew
        exact ⟨rfl, howns hopen⟩
    · have hkept : ∀ (i : ℕ) (r : OrderRun), w.system.runs[i]? = some r →
          (w.system.runs ++ [Run.start orderService (input.tool.workflowId input.request.orderNumber)
            input])[i]? = some r := by
        intro i r hr
        rw [List.getElem?_append_left (List.getElem?_eq_some_iff.mp hr).1]
        exact hr
      rcases List.mem_append.mp ha with hold | hnew
      · intro id i haccepted
        obtain ⟨m, r, hm, hr, hid⟩ := h.answers a hold id i haccepted
        exact ⟨m, r, hm, hkept i r hr, hid⟩
      · obtain rfl := List.mem_singleton.mp hnew
        intro id i haccepted
        obtain ⟨-, rfl⟩ := ToolResult.accepted.inj haccepted
        exact ⟨n, _, rfl, List.getElem?_concat_length, congrArg input.tool.workflowId hn⟩

/-- Other events of the system start no run and let orders keep their customers. -/
theorem Owned.system (h : w.Owned) {e : OrderEvent} {s : OrderSystem}
    (he : ∀ workflowId input, e ≠ .start workflowId input)
    (hstep : orderService.step w.system e = some s) : ({ w with system := s } : World).Owned := by
  have hbefore : ∀ r' ∈ s.runs, ∃ r ∈ w.system.runs, r.Later r' := by
    intro r' hr'
    obtain ⟨i, hi⟩ := List.mem_iff_getElem?.mp hr'
    obtain ⟨r, hr, hlater⟩ := earlier_of_step hstep he hi
    exact ⟨r, List.mem_of_getElem? hr, hlater⟩
  have hsound : StoreSound s.db ∧ w.system.db.Evolves s.db := by
    cases orderService.step_changes hstep with
    | ran i e r r' d _ hmove => exact hmove.database orderService_guarantee h.sound
    | outside x d hx => exact Outside.sound h.sound hx
    | _ => exact ⟨h.sound, .refl _⟩
  have howns : ∀ n c, w.system.db.Owns n c → s.db.Owns n c := fun _ _ =>
    hsound.2.owns hsound.1.schema.ordersKey
  refine ⟨hsound.1, fun r' hr' => ?_, fun input hinput => ?_, fun a ha id i haccepted => ?_⟩
  · obtain ⟨r, hr, hlater⟩ := hbefore r' hr'
    obtain ⟨hid, hr⟩ := h.runs r hr
    rw [StartedByOwner, hlater.workflowId, hlater.input]
    exact ⟨hid, howns _ _ hr⟩
  · exact ⟨(h.checked input hinput).1, howns _ _ (h.checked input hinput).2⟩
  · obtain ⟨n, r, hn, hr, hid⟩ := h.answers a ha id i haccepted
    obtain ⟨r', hr', hlater⟩ := later_of_step hstep hr
    exact ⟨n, r', hn, hr', hlater.workflowId.trans hid⟩

/-- The call does not start a run for someone else's order: it finds a run open, or the order is
the caller's. -/
def StartsOwn (w : World) : ToolEvent → Prop
  | .requestRefund userId orderId _ => ∀ n, parseOrderId orderId = .number n →
      w.system.openRun (OrderTool.requestRefund.workflowId n) = none → w.system.db.Owns n userId
  | _ => True

/-- An event that starts no run for someone else's order keeps every run its customer's. -/
theorem Owned.step (h : w.Owned) {e : ToolEvent} (hown : w.StartsOwn e) (hstep : toolStep w e = some w') :
    w'.Owned := by
  cases e with
  | cancelOrder userId orderId =>
    obtain rfl := Option.some.inj hstep
    unfold World.cancelOrder
    cases parseOrderId orderId with
    | invalid => exact h.answer _ _ _ (by simp)
    | tooLong => exact h.answer _ _ _ (by simp)
    | number n =>
      simp only [getOrderStatusRow_run]
      cases hfind : w.system.db.findOrder n userId with
      | none => exact h.answer _ _ _ (by simp)
      | some o =>
        simp only [Option.map_some]
        split
        · refine ⟨h.sound, h.runs, fun input hinput => ?_, h.answers⟩
          rcases List.mem_append.mp hinput with hold | hnew
          · exact h.checked input hold
          · obtain rfl := List.mem_singleton.mp hnew
            exact ⟨Int.natCast_nonneg n, o, hfind⟩
        · exact h.answer _ _ _ (by simp)
  | startChecked k =>
    cases hk : w.checked[k]? with
    | none => simp [toolStep, hk] at hstep
    | some input =>
      simp only [toolStep, hk, Option.some.injEq] at hstep
      obtain rfl := hstep
      have hremoved : Owned { w with checked := w.checked.eraseIdx k } :=
        ⟨h.sound, h.runs, fun input' hinput' => h.checked input' (List.mem_of_mem_eraseIdx hinput'),
          h.answers⟩
      obtain ⟨hnat, howns⟩ := h.checked input (List.mem_of_getElem? hk)
      exact hremoved.start (by simp [WorkflowInput.request, hnat]) fun _ => howns
  | requestRefund userId orderId reason =>
    obtain rfl := Option.some.inj hstep
    unfold World.requestRefund
    cases hn : parseOrderId orderId with
    | invalid => exact h.answer _ _ _ (by simp)
    | tooLong => exact h.answer _ _ _ (by simp)
    | number n => exact h.start rfl (hown n hn)
  | system e =>
    cases e with
    | start workflowId input => exact absurd hstep (by simp [toolStep])
    | _ =>
      simp only [toolStep] at hstep
      obtain ⟨s, hs, rfl⟩ := Option.map_eq_some_iff.mp hstep
      exact h.system (by simp) hs

/-- A run of such events keeps every run its customer's. -/
theorem Owned.run {db : Database} (hdb : StoreSound db) {events : List ToolEvent}
    (hown : StepsMeet toolStep StartsOwn (.initial db) events)
    (hrun : runFrom toolStep (.initial db) events = some w) : w.Owned :=
  hown.invariant toolStep Owned (fun _ _ _ hcond hinv hstep => hinv.step hcond hstep) hrun
    (owned_initial hdb)

/-- Where every run is its customer's, an accepted request of the order's customer has a run that
was started for that customer. -/
theorem Owned.requestedBy (h : w.Owned) {a : Answer} (ha : a ∈ w.answers) {id : String} {i n : ℕ}
    (haccepted : a.result = .accepted id i) (hn : a.orderId = .number n)
    (howns : w.system.db.Owns n a.userId) :
    ∃ r, w.system.runs[i]? = some r ∧ r.input.request.requestedBy = a.userId := by
  obtain ⟨m, r, hm, hr, hid⟩ := h.answers a ha id i haccepted
  obtain rfl : m = n := OrderId.number.inj (hm.symm.trans hn)
  obtain ⟨hid', howns'⟩ := h.runs r (List.mem_of_getElem? hr)
  obtain ⟨-, hnumber⟩ := OrderTool.workflowId_inj (hid.symm.trans hid')
  rw [← hnumber] at howns'
  exact ⟨r, hr, howns'.unique h.sound.schema.ordersKey howns⟩

end World

section Requesters

open World

variable {db : Database} {events : List ToolEvent} {w w' w'' : World}

/-- After a call of `request_refund` that has started a run for an order, whoever the caller is, the
next call for that order is answered with this run. -/
theorem absorbed_of_started {caller owner orderId orderId' reason reason' : String} {n : ℕ}
    (hn : parseOrderId orderId = .number n) (hn' : parseOrderId orderId' = .number n)
    (hopen : w.system.openRun (OrderTool.requestRefund.workflowId n) = none)
    (hstep : toolStep w (.requestRefund caller orderId reason) = some w')
    (hstep' : toolStep w' (.requestRefund owner orderId' reason') = some w'') :
    ∃ i r, w''.answers.getLast? = some ⟨.requestRefund, owner, .number n,
        .accepted (OrderTool.requestRefund.workflowId n) i⟩ ∧
      w''.system.runs[i]? = some r ∧ r.input.request.requestedBy = caller := by
  let input : WorkflowInput := .refund ⟨n, caller, String.ofList (strip reason.toList)⟩
  obtain rfl : w' = w.start input (.number n) := by
    simpa [toolStep, hn, World.requestRefund, eq_comm] using hstep
  let input' : WorkflowInput := .refund ⟨n, owner, String.ofList (strip reason'.toList)⟩
  obtain rfl : w'' = (w.start input (.number n)).start input' (.number n) := by
    simpa [toolStep, hn', World.requestRefund, eq_comm] using hstep'
  have hsystem : (w.start input (.number n)).system =
      { w.system with runs := w.system.runs ++ [Run.start orderService
        (OrderTool.requestRefund.workflowId n) input] } := by
    unfold World.start
    rw [startWorkflow_new hopen]
    rfl
  have hopen' : (w.start input (.number n)).system.openRun
      (input'.tool.workflowId input'.request.orderNumber) = some w.system.runs.length := by
    rw [hsystem]
    exact System.openRun_started hopen
  generalize w.start input (.number n) = next at hsystem hopen' ⊢
  unfold World.start
  rw [startWorkflow_joined hopen']
  refine ⟨w.system.runs.length, Run.start orderService (OrderTool.requestRefund.workflowId n) input,
    List.getLast?_concat, ?_, rfl⟩
  change next.system.runs[w.system.runs.length]? = _
  rw [hsystem]
  exact List.getElem?_concat_length

/-- In every run of events none of which starts a refund run for someone else's order, an accepted
request of an order's customer is served by a run that was started for that customer. And where a
refund run is started for someone else's order, the customer's own request is answered with it. -/
theorem accepted_for_requester (hdb : StoreSound db)
    (hown : StepsMeet toolStep StartsOwn (.initial db) events)
    (hrun : runFrom toolStep (.initial db) events = some w) :
    (∀ a ∈ w.answers, ∀ id i n, a.result = .accepted id i → a.orderId = .number n →
      w.system.db.Owns n a.userId →
        ∃ r, w.system.runs[i]? = some r ∧ r.input.request.requestedBy = a.userId) ∧
    (∀ caller owner orderId orderId' reason reason' n w' w'', parseOrderId orderId = .number n →
      parseOrderId orderId' = .number n →
      w.system.openRun (OrderTool.requestRefund.workflowId n) = none →
      toolStep w (.requestRefund caller orderId reason) = some w' →
      toolStep w' (.requestRefund owner orderId' reason') = some w'' →
        ∃ i r, w''.answers.getLast? = some ⟨.requestRefund, owner, .number n,
            .accepted (OrderTool.requestRefund.workflowId n) i⟩ ∧
          w''.system.runs[i]? = some r ∧ r.input.request.requestedBy = caller) :=
  ⟨fun _ ha _ _ _ haccepted hn howns => (Owned.run hdb hown hrun).requestedBy ha haccepted hn howns,
    fun _ _ _ _ _ _ _ _ _ hn hn' hopen hstep hstep' => absorbed_of_started hn hn' hopen hstep hstep'⟩

/-- Customer CUS-999 asks for a refund of order 5, then its own customer does. -/
def foreignRequest : List ToolEvent :=
  [.requestRefund "CUS-999" "ORD-005" "mine", .requestRefund "CUS-005" "ORD-005" "damaged",
    .system (.run 0 .begin), .system (.run 0 .execute), .system (.run 0 .report)]

/-- The customer's request is accepted with the run of CUS-999, which ends in `OrderNotFound`. -/
theorem foreignRequest_absorbs :
    ∃ w a r, runFrom toolStep (.initial orderOf98) foreignRequest = some w ∧ a ∈ w.answers ∧
      a.tool = .requestRefund ∧ a.userId = "CUS-005" ∧ a.orderId = .number 5 ∧
      a.result = .accepted "refund-order-5" 0 ∧ w.system.db.Owns 5 "CUS-005" ∧
      w.system.runs[0]? = some r ∧ r.input.request.requestedBy = "CUS-999" ∧
      r.stage = .raised .orderNotFound := by
  have hcomputed : (runFrom toolStep (.initial orderOf98) foreignRequest).map (fun w =>
      (w.answers[1]?, (w.system.db.findOrder 5 "CUS-005").isSome,
        (w.system.runs[0]?).map fun r => (r.input.request.requestedBy, r.stage.failure?))) =
      some (some ⟨.requestRefund, "CUS-005", .number 5, .accepted "refund-order-5" 0⟩, true,
        some ("CUS-999", some .orderNotFound)) := by decide +kernel
  obtain ⟨w, hrun, hfacts⟩ := Option.map_eq_some_iff.mp hcomputed
  simp only [Prod.mk.injEq] at hfacts
  obtain ⟨hanswer, howns, hfacts⟩ := hfacts
  obtain ⟨r, hr, hfacts⟩ := Option.map_eq_some_iff.mp hfacts
  simp only [Prod.mk.injEq] at hfacts
  exact ⟨w, _, r, hrun, List.mem_of_getElem? hanswer, rfl, rfl, rfl, rfl, Option.isSome_iff_exists.mp howns,
    hr, hfacts.1, Stage.failure?_eq_some.mp hfacts.2⟩

/-- The customer asks twice for a refund of order 5. -/
def ownRequests : List ToolEvent :=
  [.requestRefund "CUS-005" "ORD-005" "damaged", .requestRefund "CUS-005" "ord-5" "damaged"]

/-- Both requests are served by a run that was started for the customer. -/
theorem accepted_for_requester_order_five :
    ∃ w, runFrom toolStep (.initial orderOf98) ownRequests = some w ∧ w.answers.length = 2 ∧
      ∀ a ∈ w.answers, ∀ id i n, a.result = .accepted id i → a.orderId = .number n →
        w.system.db.Owns n a.userId →
          ∃ r, w.system.runs[i]? = some r ∧ r.input.request.requestedBy = a.userId := by
  have howns : orderOf98.Owns 5 "CUS-005" := ⟨_, rfl⟩
  have hparse : parseOrderId "ORD-005" = .number 5 ∧ parseOrderId "ord-5" = .number 5 := by
    decide +kernel
  have hmeets : ∀ (w : World) (orderId reason : String), w.system.db = orderOf98 →
      parseOrderId orderId = .number 5 → w.StartsOwn (.requestRefund "CUS-005" orderId reason) := by
    intro w orderId reason hdb horderId n hn _
    obtain rfl : 5 = n := OrderId.number.inj (horderId.symm.trans hn)
    exact hdb ▸ howns
  have hown : StepsMeet toolStep StartsOwn (.initial orderOf98) ownRequests := by
    refine ⟨hmeets _ _ _ rfl hparse.1, fun mid hmid => ⟨hmeets _ _ _ ?_ hparse.2, fun _ _ => trivial⟩⟩
    obtain rfl := Option.some.inj hmid
    exact db_requestRefund _ _ _ _
  have hcomputed : (runFrom toolStep (.initial orderOf98) ownRequests).map (fun w => w.answers.length) =
      some 2 := by decide +kernel
  obtain ⟨w, hrun, hlength⟩ := Option.map_eq_some_iff.mp hcomputed
  exact ⟨w, hrun, hlength, (accepted_for_requester storeSound_orderOf98 hown hrun).1⟩

end Requesters

end Agentops
