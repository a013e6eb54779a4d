import Agentops.Workflow.Amounts

/-!
# The approval gate

While prices are left alone, an order's total is the same when it is loaded, compared and
refunded. So a refund above the threshold is written by a run that was waiting for its approval
and got one. A run that leaves its wait with a denial has loaded its order and does nothing more.
-/

namespace Agentops

open DurableExecution LabelledRun

namespace RefundWorkflow

section Denied

variable {inp : OrderActionInput} {r r' : OrderRun}

/-- In this move the run leaves its wait, and the last message it has received is a denial. -/
structure ResumesDenied (r r' : OrderRun) : Prop where
  before : ∀ amount, .waitingForApproval amount ∉ r.object.earlier
  after : ∃ amount, .waitingForApproval amount ∈ r'.object.earlier
  denied : ∃ e, r'.received.getLast? = some e ∧ e.message.approved = false

/-- Only one state is passed at a time. -/
theorem mem_earlier_assign {self : WorkflowObject} {state : WorkflowState} {amount : String}
    (h : .waitingForApproval amount ∈ (self.assign state).earlier) :
    .waitingForApproval amount ∈ self.earlier ∨ self.state = .waitingForApproval amount := by
  rcases List.mem_append.mp h with hold | hnew
  · exact .inl hold
  · exact .inr (List.mem_singleton.mp hnew).symm

/-- A coroutine that is past its wait with a denial has returned. -/
theorem Wakes.denied_of_passed {self : WorkflowObject} {order : LoadedOrder}
    {out : WorkflowObject × WorkflowStage} (h : Wakes self inp order out)
    (hbefore : ∀ amount, .waitingForApproval amount ∉ self.earlier) {amount : String}
    (hafter : .waitingForApproval amount ∈ out.1.earlier) {approval : ApprovalInput}
    (happroval : self.approval = some approval) (hdenied : approval.approved = false) :
    out.2 = .returned (.rejected "approval_denied") := by
  cases h with
  | waits _ => exact absurd hafter (hbefore amount)
  | denied _ _ _ => rfl
  | approved approval' happroval' happroved =>
    obtain rfl := Option.some.inj (happroval.symm.trans happroval')
    exact absurd (hdenied.symm.trans happroved) (by simp)

/-- A run that leaves its wait with a denial is rejected. -/
theorem Invariant.rejected_of_denied (h : Invariant inp r) {db db' : Database} {e : RunEvent}
    (hmove : orderService.Moves db r e db' r') (hresumes : ResumesDenied r r') :
    r'.stage = .returned (.rejected "approval_denied") := by
  obtain ⟨hbefore, ⟨amount, hafter⟩, e', hlast, hdenied⟩ := hresumes
  -- the only states a coroutine can leave are its present one and those it passes at once
  have hstays : ∀ {state : WorkflowState} {amount : String},
      (∀ amount, r.object.state ≠ .waitingForApproval amount) →
        .waitingForApproval amount ∉ (r.object.assign state).earlier := fun hne hmem =>
    (mem_earlier_assign hmem).elim (hbefore _) (hne _)
  cases hmove with
  | begun hstage =>
    have hmain : orderService.main r.input = run inp := by rw [h.input]; rfl
    have hobject : (r.resume (run inp)).object = r.object.assign .checkingOrder :=
      congrArg Prod.fst (drive_run r.object inp)
    cases h.point with
    | fresh _ _ hstate =>
      rw [hmain, hobject] at hafter
      exact absurd hafter (hstays (by simp [hstate]))
    | _ => simp_all
  | handled count _ =>
    have hsame := (foldl_approve (r.mailbox.take count) r.object).2.1
    have hhandle : orderService.handle r.input = approve := by rw [h.input]; rfl
    simp only [Run.handleBatch, hhandle, hsame] at hafter
    exact absurd hafter (hbefore amount)
  | woken count condition next hstage _ =>
    cases h.point with
    | waiting order hs _ _ _ _ _ =>
      obtain ⟨rfl, rfl⟩ := Stage.waiting.inj (hstage.symm.trans hs)
      have hsame := (foldl_approve (r.mailbox.take count) r.object).2.1
      have hhandle : orderService.handle r.input = approve := by rw [h.input]; rfl
      have hwakes := drive_wait (r.handleBatch orderService count).object inp order
      refine hwakes.denied_of_passed (fun amount' hmem => ?_) hafter ?_ hdenied
      · simp only [Run.handleBatch, hhandle, hsame] at hmem
        exact hbefore amount' hmem
      · rw [(h.handled count).approval]
        exact congrArg (Option.map Envelope.message) hlast
    | _ => simp_all
  | executed a next number hstage => exact absurd hafter (hbefore amount)
  | executedLate k a number hk => exact absurd hafter (hbefore amount)
  | answered a next number record reply hstage hreply =>
    cases h.point with
    | loading number' record' hs _ _ hstate =>
      cases hstage.symm.trans hs
      have hdecides := drive_afterLoad r.object inp reply
      change ((afterLoad inp (.ok reply)).drive r.object : WorkflowObject × WorkflowStage).2 = _
      change _ ∈ ((afterLoad inp (.ok reply)).drive r.object : WorkflowObject × WorkflowStage).1.earlier
        at hafter
      generalize (afterLoad inp (.ok reply)).drive r.object = out at hdecides hafter ⊢
      cases hdecides with
      | gated amount' _ _ _ _ hwakes =>
        refine hwakes.denied_of_passed (fun _ => hstays (by simp [hstate])) hafter ?_ hdenied
        exact h.approval.trans (congrArg (Option.map Envelope.message) hlast)
      | _ => exact absurd hafter (hstays (by simp [hstate]))
    | executing order number' record' hs _ _ hstate =>
      cases hstage.symm.trans hs
      exact absurd hafter (hstays (by simp [hstate]))
    | _ => simp_all
  | retried e a next number record fate f hstage hend _ => exact absurd hafter (hbefore amount)
  | failed e a next number record fate f hstage hend _ =>
    cases h.point with
    | loading number' record' hs _ _ hstate =>
      cases hstage.symm.trans hs
      exact absurd hafter (hstays (by simp [hstate]))
    | executing order number' record' hs _ _ hstate =>
      cases hstage.symm.trans hs
      exact absurd hafter (hstays (by simp [hstate]))
    | _ => simp_all
  | expired _ => exact absurd hafter (hbefore amount)
  | expiredAwaiting a next number record hstage => exact absurd hafter (hbefore amount)

/-- A rejected run has written nothing. -/
theorem unchanged_of_rejected {db : Database} {events : List OrderEvent} {s : OrderSystem}
    (hrun : runFrom orderService.step (System.initial db) events = some s) (hr : r ∈ s.runs)
    (hinput : r.input = .refund inp) {reason : String} (hstage : r.stage = .returned (.rejected reason))
    {a : OrderActivity} {record : Record Database Failure a.Reply} (hdid : r.Did a record) :
    record.after = record.before := by
  have hinv := kept.holds hrun r hr inp hinput
  have htried : ¬ r.TriedBefore (.executeRefund inp) := by
    cases hinv.point with
    | rejected _ _ htried _ => exact htried
    | _ => simp_all
  obtain ⟨t, ht, rfl⟩ := activity_of_did hdid
  have hload := hinv.only_loaded (by rw [hstage]; rfl) htried ht
  have hafter := congrArg Record.after (performed_of_did hrun hr hdid)
  obtain ⟨activity, number, fate, attempted⟩ := t
  obtain rfl : activity = .loadRefundOrder inp := hload
  exact hafter.trans (loadRefundOrderActivity_unchanged record.before inp)

end Denied

end RefundWorkflow

section Gate

open RefundWorkflow

variable {db : Database} {events : List OrderEvent} {s : OrderSystem}

/-- A new row above the threshold was inserted by a run that had been cleared with an approval. -/
theorem exists_approved_inserts (hdb : StoreSound db)
    (hallowed : ∀ e ∈ events, e.Admissible Outside.KeepsPrices)
    (hrun : runFrom orderService.step (System.initial db) events = some s) {row : Refund}
    (hrow : row ∈ s.db.refunds) (hnew : row ∉ db.refunds) (habove : 20000 < row.amount.cents) :
    ∃ before e after mid next i r inp, events = before ++ e :: after ∧
      runFrom orderService.step (System.initial db) before = some mid ∧
      orderService.step mid e = some next ∧ Inserts mid e next row i r inp ∧ Approved r := by
  obtain ⟨before, e, after, mid, next, rfl, hbefore, hstep, -, hnot, hyes⟩ :=
    exists_step_of_change orderService.step (fun s => row ∈ s.db.refunds) hrun hnew hrow
  have hmid := sound_of_run hdb hbefore
  obtain ⟨i, r, inp, order, o, hinserts, hcleared, hfind, hamount⟩ :=
    exists_inserts hbefore hmid.db hstep hyes hnot
  have htext := hcleared.loaded.amount_eq hdb (fun a ha => hallowed a (List.mem_append_left _ ha))
    hbefore (List.mem_of_getElem? hinserts.run) hfind
  have hneeds : NeedsApproval order := (needsApproval_iff htext).mpr (hamount ▸ habove)
  exact ⟨before, e, after, mid, next, i, r, inp, rfl, hbefore, hstep, hinserts,
    hcleared.approved hneeds⟩

/-- A run whose order's total is at most 200 has never waited. -/
theorem not_waiting_of_total_le (hdb : StoreSound db)
    (hallowed : ∀ e ∈ events, e.Admissible Outside.KeepsPrices)
    (hrun : runFrom orderService.step (System.initial db) events = some s) {r : OrderRun}
    {inp : OrderActionInput} {o : Order} (hr : r ∈ s.runs) (hinput : r.input = .refund inp)
    (hfind : s.db.findOrder inp.orderNumber inp.requestedBy = some o) (htotal : s.db.total o ≤ 20000)
    (amount : String) : .waitingForApproval amount ∉ r.object.trail := by
  intro hwaited
  obtain ⟨order, hloaded, -, hneeds⟩ := (kept.holds hrun r hr inp hinput).waited amount hwaited
  have hlt := (needsApproval_iff (hloaded.amount_eq hdb hallowed hrun hr hfind)).mp hneeds
  omega

/-- With prices left alone: every new refunds row above the threshold was inserted by an execution
of a run that had received an approval; a run that leaves its wait with a denial as its last
message writes nothing, then or later; and a run whose order's total is at most 200 never waits. -/
theorem refund_needs_approval (hdb : StoreSound db)
    (hallowed : ∀ e ∈ events, e.Admissible Outside.KeepsPrices)
    (hrun : runFrom orderService.step (System.initial db) events = some s) :
    (∀ row ∈ s.db.refunds, row ∉ db.refunds → 20000 < row.amount.cents →
      ∃ before e after mid next i r inp, events = before ++ e :: after ∧
        runFrom orderService.step (System.initial db) before = some mid ∧
        orderService.step mid e = some next ∧ Inserts mid e next row i r inp ∧ Approved r) ∧
    (∀ i e s' r r' inp, orderService.step s (.run i e) = some s' → s.runs[i]? = some r →
      s'.runs[i]? = some r' → r.input = .refund inp → ResumesDenied r r' →
        ∀ later s'' r'', runFrom orderService.step s' later = some s'' → s''.runs[i]? = some r'' →
          ∀ (a : OrderActivity) (record : Record Database Failure a.Reply),
            r''.Did a record → record.after = record.before) ∧
    (∀ r ∈ s.runs, ∀ inp o, r.input = .refund inp →
      s.db.findOrder inp.orderNumber inp.requestedBy = some o → s.db.total o ≤ 20000 →
        ∀ amount, .waitingForApproval amount ∉ r.object.trail) := by
  refine ⟨fun row hrow hnew habove => exists_approved_inserts hdb hallowed hrun hrow hnew habove, ?_,
    fun r hr inp o hinput hfind htotal => not_waiting_of_total_le hdb hallowed hrun hr hinput hfind htotal⟩
  intro i e s' r r' inp hstep hr hr' hinput hresumes later s'' r'' hlater hr'' a record hdid
  obtain ⟨q, q', hq, hq', hmove⟩ := moves_of_step hstep
  obtain rfl := Option.some.inj (hr.symm.trans hq)
  obtain rfl := Option.some.inj (hr'.symm.trans hq')
  have hinv := kept.holds hrun r (List.mem_of_getElem? hr) inp hinput
  have hstage := hinv.rejected_of_denied hmove hresumes
  -- closed runs stay as they are
  obtain ⟨r₁, hr₁, hl⟩ := later_of_run hlater hr'
  obtain rfl := Option.some.inj (hr''.symm.trans hr₁)
  have hclosed := hl.closed (by rw [hstage]; rfl)
  have hwhole : runFrom orderService.step (System.initial db) (events ++ .run i e :: later) = some s'' :=
    (runFrom_append_eq_some _).mpr ⟨s, hrun, (runFrom_cons_eq_some _).mpr ⟨s', hstep, hlater⟩⟩
  exact unchanged_of_rejected hwhole (List.mem_of_getElem? hr'')
    (hl.input.trans (hmove.later.input.trans hinput)) (hclosed.2.trans hstage) hdid

/-- Order 5, delivered, of 300.00. -/
def orderOf300 : Database := oneOrder price300 oneUnit .delivered

/-- The database with one order of 300.00 keeps to the constraints. -/
theorem storeSound_orderOf300 : StoreSound orderOf300 := (storeInvariant_oneOrder _ _ _).toStoreSound

/-- A refund of order 5 is started, comes to its wait and is approved. -/
def approvedRefund : List OrderEvent :=
  [.start "refund-order-5" (.refund refundOrderFive), .run 0 .begin, .run 0 .execute, .run 0 .report,
    .send "refund-order-5" ⟨true, "STAFF-1"⟩, .deliver 0, .run 0 (.activate 1)]

/-- Up to the execution nothing is paid. -/
theorem approvedRefund_before :
    (runFrom orderService.step (System.initial orderOf300) approvedRefund).map (fun s => s.db.refunds) =
      some [] := by decide +kernel

/-- The execution pays 300.00. -/
theorem approvedRefund_after :
    (runFrom orderService.step (System.initial orderOf300) (approvedRefund ++ [.run 0 .execute])).map
      (fun s => s.db.refunds.map fun row => row.amount.cents) = some [30000] := by decide +kernel

/-- The order of 300.00 is refunded, and so its refund run had received an approval. -/
theorem refund_needs_approval_order_five :
    ∃ s, runFrom orderService.step (System.initial orderOf300) (approvedRefund ++ [.run 0 .execute]) =
        some s ∧
      ∃ row ∈ s.db.refunds, row.amount.cents = 30000 ∧
        ∃ before e after mid next i r inp,
          approvedRefund ++ [.run 0 .execute] = before ++ e :: after ∧
          runFrom orderService.step (System.initial orderOf300) before = some mid ∧
          orderService.step mid e = some next ∧ Inserts mid e next row i r inp ∧ Approved r := by
  obtain ⟨s, hrun, hrefunds⟩ := Option.map_eq_some_iff.mp approvedRefund_after
  have hamount : 30000 ∈ s.db.refunds.map fun row => row.amount.cents := by simp [hrefunds]
  obtain ⟨row, hrow, hcents⟩ := List.mem_map.mp hamount
  have hgate := refund_needs_approval storeSound_orderOf300
    (by simp [approvedRefund, Event.Admissible]) hrun
  exact ⟨s, hrun, row, hrow, hcents, hgate.1 row hrow (by simp [orderOf300, oneOrder]) (by omega)⟩

end Gate

end Agentops
