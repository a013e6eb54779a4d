import Agentops.Workflow.ApprovalGate

/-!
# What the ending of a run says

A workflow knows of the attempts that were acknowledged, and its ending tells the truth about
those: a completed cancellation reports what its acknowledged attempt did, a failed run has heard
of no attempt that changed anything. What an attempt did whose acknowledgement was lost it cannot
know. A completed refund is different: however the row came about, the order is refunded, and
stays so.
-/

namespace Agentops

open DurableExecution LabelledRun

section Cancellations

/-- The order changes to `cancelled` from the first database to the second. -/
def Database.CancelsOrder (before after : Database) (inp : OrderActionInput) : Prop :=
  ∃ o o', before.findOrder inp.orderNumber inp.requestedBy = some o ∧ o.status ≠ .cancelled ∧
    after.findOrder inp.orderNumber inp.requestedBy = some o' ∧ o'.status = .cancelled

/-- A cancellation reports `cancelled` when it changes the order to `cancelled`. -/
theorem CancelOutcome.cancelled_iff {db db' : Database} {inp : OrderActionInput}
    {result : CancellationResult}
    (h : CancelOutcome db inp.orderNumber inp.requestedBy (result, db')) :
    result.cancelled = true ↔ db.CancelsOrder db' inp := by
  cases h with
  | missing hfind => simp [CancellationResult.notFound, Database.CancelsOrder, hfind]
  | refused o hfind hst =>
    simp only [CancellationResult.refused, Bool.false_eq_true, false_iff]
    rintro ⟨q, q', hq, hne, hq', hst'⟩
    obtain rfl := Option.some.inj (hq.symm.trans hq')
    exact hne hst'
  | done o hfind hst =>
    have hne : o.status ≠ .cancelled := by
      rintro hcancelled
      rw [hcancelled] at hst
      exact absurd hst (by decide)
    have hfind' := Database.findOrder_setOrderStatus db inp.orderNumber inp.requestedBy .cancelled
    rw [hfind] at hfind'
    exact ⟨fun _ => ⟨o, _, hfind, hne, hfind', rfl⟩, fun _ => rfl⟩

variable {db : Database} {events : List OrderEvent} {s : OrderSystem} {r : OrderRun}
  {inp : OrderActionInput}

/-- Every cancellation of a run has a result, which tells what it did. -/
theorem cancelled_of_did (hrun : runFrom orderService.step (System.initial db) events = some s)
    (hr : r ∈ s.runs) {record : CancelRecord} (hdid : r.Did (.cancelOrder inp) record) :
    ∃ result, record.reply = .ok result ∧
      (result.cancelled = true ↔ record.before.CancelsOrder record.after inp) := by
  have hperformed := performed_of_did hrun hr hdid
  obtain ⟨result, after, hcancel, hout⟩ := cancelOrderActivity_outcome record.before inp
  have hreply : record.reply = (cancelOrderActivity inp record.before).1 :=
    congrArg Record.reply hperformed
  have hafter : record.after = (cancelOrderActivity inp record.before).2 :=
    congrArg Record.after hperformed
  rw [hcancel] at hreply hafter
  exact ⟨result, hreply, hafter ▸ hout.cancelled_iff⟩

/-- A completed cancellation reports what its acknowledged attempt did. -/
theorem CancelOrderWorkflow.completed_iff
    (hrun : runFrom orderService.step (System.initial db) events = some s) (hr : r ∈ s.runs)
    (hinput : r.input = .cancelOrder inp) {result : CancellationResult}
    (hstage : r.stage = .returned (.completed (.cancellation result))) :
    result.cancelled = true ↔ ∃ record : CancelRecord, r.Acknowledged (.cancelOrder inp) record ∧
      record.before.CancelsOrder record.after inp := by
  have hanswered : ∀ result', r.Answered (.cancelOrder inp) result' ↔ result' = result := by
    cases (kept.holds hrun r hr inp hinput).point with
    | completed result' hs hanswered _ =>
      obtain rfl : result' = result := by simpa [hs] using hstage
      exact hanswered
    | _ => simp_all
  constructor
  · intro hcancelled
    obtain ⟨record, hack, hreply⟩ := (hanswered result).mpr rfl
    obtain ⟨result', hreply', hiff⟩ := cancelled_of_did hrun hr hack.did
    obtain rfl := Except.ok.inj (hreply.symm.trans hreply')
    exact ⟨record, hack, hiff.mp hcancelled⟩
  · rintro ⟨record, hack, hcancels⟩
    obtain ⟨result', hreply, hiff⟩ := cancelled_of_did hrun hr hack.did
    obtain rfl := (hanswered result').mp ⟨record, hack, hreply⟩
    exact hiff.mpr hcancels

end Cancellations

section Failures

variable {db : Database} {events : List OrderEvent} {s : OrderSystem} {r : OrderRun}

/-- A failed run was told of no attempt that changed the database. -/
theorem unchanged_of_raised (hrun : runFrom orderService.step (System.initial db) events = some s)
    (hr : r ∈ s.runs) {e : Failure} (hstage : r.stage = .raised e) {a : OrderActivity}
    {record : Record Database Failure a.Reply} (hack : r.Acknowledged a record) :
    record.after = record.before := by
  have hperformed := performed_of_did hrun hr hack.did
  obtain ⟨t, ht, hactivity⟩ := activity_of_did hack.did
  cases hin : r.input with
  | cancelOrder inp =>
    have hinv := CancelOrderWorkflow.kept.holds hrun r hr inp hin
    obtain rfl : a = .cancelOrder inp := hactivity.symm.trans (hinv.attempted ht)
    obtain ⟨result, hreply, -⟩ := cancelled_of_did hrun hr hack.did
    cases hinv.point with
    | failed _ _ hnone _ => exact absurd ⟨record, hack, hreply⟩ (hnone result)
    | _ => simp_all
  | refund inp =>
    have hinv := RefundWorkflow.kept.holds hrun r hr inp hin
    rcases hinv.attempted ht with hload | ⟨hexecute, -⟩
    · obtain rfl : a = .loadRefundOrder inp := hactivity.symm.trans hload
      exact (congrArg Record.after hperformed).trans
        (loadRefundOrderActivity_unchanged record.before inp)
    · obtain rfl : a = .executeRefund inp := hactivity.symm.trans hexecute
      cases hreply : record.reply with
      | error f =>
        have hfailed : (executeRefundActivity inp record.before).1 = .error f :=
          (congrArg Record.reply hperformed).symm.trans hreply
        exact (congrArg Record.after hperformed).trans (executeRefundActivity_unchanged hfailed)
      | ok result =>
        cases hinv.point with
        | failed _ _ hnone _ => exact absurd ⟨record, hack, hreply⟩ (hnone result)
        | _ => simp_all

/-- From any database and under any loss of acknowledgements: a completed cancel workflow reports
`cancelled` exactly when an attempt it heard of changed the order to `cancelled`, and a failed
workflow heard of no attempt that changed the database. -/
theorem endings_tell_acknowledged
    (hrun : runFrom orderService.step (System.initial db) events = some s) :
    (∀ r ∈ s.runs, ∀ inp result, r.input = .cancelOrder inp →
      r.stage = .returned (.completed (.cancellation result)) →
        (result.cancelled = true ↔ ∃ record : CancelRecord, r.Acknowledged (.cancelOrder inp) record ∧
          record.before.CancelsOrder record.after inp)) ∧
    (∀ r ∈ s.runs, ∀ e, r.stage = .raised e → ∀ (a : OrderActivity)
      (record : Record Database Failure a.Reply), r.Acknowledged a record → record.after = record.before) :=
  ⟨fun _ hr _ _ hinput hstage => CancelOrderWorkflow.completed_iff hrun hr hinput hstage,
    fun _ hr _ hstage _ _ hack => unchanged_of_raised hrun hr hstage hack⟩

/-- Order 5, still pending. -/
def pendingOrder : Database := oneOrder price300 oneUnit .pending

/-- A request to cancel order 5. -/
def cancelOrderFive : OrderActionInput := ⟨5, "CUS-005", ""⟩

/-- A cancellation whose one attempt is acknowledged. -/
def plainCancellation : List OrderEvent :=
  [.start "cancel-order-5" (.cancelOrder cancelOrderFive), .run 0 .begin, .run 0 .execute,
    .run 0 .report]

/-- The order is cancelled, and the run ends with that. -/
theorem plainCancellation_runs :
    ∃ s, runFrom orderService.step (System.initial pendingOrder) plainCancellation = some s ∧
      ∃ r ∈ s.runs, ∃ result, r.input = .cancelOrder cancelOrderFive ∧
        r.stage = .returned (.completed (.cancellation result)) ∧ result.cancelled = true :=
  ⟨_, rfl, _, List.mem_singleton.mpr rfl, _, rfl, rfl, rfl⟩

/-- The plain cancellation reports that it has cancelled the order, and it has. -/
theorem endings_tell_acknowledged_order_five :
    ∃ s, runFrom orderService.step (System.initial pendingOrder) plainCancellation = some s ∧
      ∃ r ∈ s.runs, ∃ result, r.stage = .returned (.completed (.cancellation result)) ∧
        result.cancelled = true ∧
        ∃ record : CancelRecord, r.Acknowledged (.cancelOrder cancelOrderFive) record ∧
          record.before.CancelsOrder record.after cancelOrderFive := by
  obtain ⟨s, hrun, r, hr, result, hinput, hstage, hcancelled⟩ := plainCancellation_runs
  exact ⟨s, hrun, r, hr, result, hstage, hcancelled,
    ((endings_tell_acknowledged hrun).1 r hr _ result hinput hstage).mp hcancelled⟩

/-- A cancellation whose first attempt commits and is lost, and whose second is acknowledged. -/
def lostCancellation : List OrderEvent :=
  [.start "cancel-order-5" (.cancelOrder cancelOrderFive), .run 0 .begin, .run 0 .execute, .run 0 .lose,
    .run 0 .execute, .run 0 .report]

/-- A cancellation whose first attempt commits and which loses all three. -/
def lostThreeTimes : List OrderEvent :=
  [.start "cancel-order-5" (.cancelOrder cancelOrderFive), .run 0 .begin, .run 0 .execute, .run 0 .lose,
    .run 0 .lose, .run 0 .lose]

/-- After a lost acknowledgement a run that has cancelled its order reports that it has not, and
after three a run that has cancelled its order has failed. -/
theorem lost_cancellation_untold :
    (∃ s, runFrom orderService.step (System.initial pendingOrder) lostCancellation = some s ∧
      ∃ r ∈ s.runs, ∃ (result : CancellationResult) (record : CancelRecord),
        r.stage = .returned (.completed (.cancellation result)) ∧
        result.cancelled = false ∧ r.Did (.cancelOrder cancelOrderFive) record ∧
        record.before.CancelsOrder record.after cancelOrderFive) ∧
    ∃ s, runFrom orderService.step (System.initial pendingOrder) lostThreeTimes = some s ∧
      ∃ r ∈ s.runs, ∃ (e : Failure) (record : CancelRecord), r.stage = .raised e ∧
        r.Did (.cancelOrder cancelOrderFive) record ∧
        record.before.CancelsOrder record.after cancelOrderFive := by
  constructor
  · exact ⟨_, rfl, _, List.mem_singleton.mpr rfl, _, _, rfl, rfl,
      ⟨_, List.mem_append_left _ List.mem_cons_self, rfl⟩, _, _, rfl, by decide, rfl, rfl⟩
  · exact ⟨_, rfl, _, List.mem_singleton.mpr rfl, _, _, rfl,
      ⟨_, List.mem_append_left _ List.mem_cons_self, rfl⟩, _, _, rfl, by decide, rfl, rfl⟩

end Failures

section Refunds

open RefundWorkflow

/-- A status that a workflow never leaves. -/
def WorkflowState.Terminal : WorkflowState → Prop
  | .completed _ | .rejected _ | .failed => True
  | _ => False

/-- The second object has passed through everything the first one has. -/
def WorkflowObject.Extends (self self' : WorkflowObject) : Prop := self.trail <+: self'.trail

/-- Objects grow by their passed states. -/
instance : IsPreorder WorkflowObject WorkflowObject.Extends where
  refl _ := List.prefix_refl _
  trans _ _ _ h h' := h.trans h'

/-- Setting the state adds one. -/
theorem within_setState (state : WorkflowState) : (setState state).Within WorkflowObject.Extends :=
  ⟨fun self => by simp [WorkflowObject.Extends], trivial⟩

/-- So does an exception. -/
theorem within_onException (e : Failure) : (onException e).Within WorkflowObject.Extends :=
  (within_setState .failed).bind fun _ => trivial

/-- An activity adds none. -/
theorem within_executeActivity (a : OrderActivity) :
    (Body.executeActivity a : WorkflowBody a.Reply).Within WorkflowObject.Extends := by
  intro reply
  cases reply <;> trivial

/-- Nor does returning the state. -/
theorem within_returnState : returnState.Within WorkflowObject.Extends := fun _ => trivial

/-- Assigning a state and returning it keeps what was passed. -/
theorem within_setState_returnState (state : WorkflowState) :
    (setState state >>= fun _ => returnState).Within WorkflowObject.Extends :=
  (within_setState state).bind fun _ => within_returnState

/-- Everything the workflows do extends what their objects have passed through. -/
theorem orderService_extends : orderService.Within WorkflowObject.Extends where
  handle input message self := by
    cases input <;> exact List.prefix_refl _
  main input := by
    cases input with
    | cancelOrder inp =>
      exact (within_setState _).bind fun _ =>
        Body.Within.tryCatch ((within_executeActivity _).bind fun _ => within_setState_returnState _)
          within_onException
    | refund inp =>
      have hrefund : ∀ order, (refund inp order).Within WorkflowObject.Extends := fun order =>
        (within_setState _).bind fun _ => (within_executeActivity _).bind fun _ =>
          within_setState_returnState _
      have hanswered : ∀ order approval, (answered inp order approval).Within WorkflowObject.Extends := by
        intro order approval
        unfold answered
        split
        · trivial
        · split
          · exact within_setState_returnState _
          · exact hrefund order
      have hdecide : ∀ order, (RefundWorkflow.decide inp order).Within WorkflowObject.Extends := by
        intro order
        unfold RefundWorkflow.decide
        split
        · exact within_setState_returnState _
        · split
          · exact within_setState_returnState _
          · split
            · trivial
            · split
              · refine (within_setState _).bind fun _ => Body.Within.bind ?_ fun _ => ?_
                · exact (trivial : (Body.returned () : WorkflowBody Unit).Within WorkflowObject.Extends)
                · exact Body.Within.bind (fun _ => trivial) fun approval => hanswered order approval
              · exact hrefund order
      exact Body.Within.tryCatch ((within_setState _).bind fun _ =>
        (within_executeActivity _).bind fun order => hdecide order) within_onException

/-- Nothing follows a terminal status. -/
theorem WorkflowState.Terminal.not_canFollow {state next : WorkflowState} (h : state.Terminal) :
    ¬ state.CanFollow next := by
  cases state <;> simp_all [Terminal, CanFollow]

/-- A terminal status is the last one of every way through the states. -/
theorem WorkflowObject.Extends.state_eq {self self' : WorkflowObject} (h : self.Extends self')
    (hpath : Path self'.trail) (hterminal : self.state.Terminal) : self'.state = self.state := by
  obtain ⟨more, hmore⟩ := h
  have hlast : self'.trail.getLast? = some self'.state := by simp [trail]
  cases more with
  | nil =>
    rw [← hmore] at hlast
    simpa [trail, eq_comm] using hlast
  | cons next rest =>
    have hsteps := hpath.steps
    rw [← hmore] at hsteps
    simp only [trail, List.append_assoc, List.singleton_append, List.isChain_append,
      List.isChain_cons_cons] at hsteps
    exact absurd hsteps.2.1.1 hterminal.not_canFollow

variable {db : Database} {events : List OrderEvent} {s : OrderSystem} {r : OrderRun}
  {inp : OrderActionInput}

/-- An execution that has a result leaves the order refunded. -/
theorem ExecuteOutcome.refunded {input : OrderActionInput} {result : ExecutedRefund} {db' : Database}
    (h : ExecuteOutcome db input (.ok result, db')) (hsound : StoreSound db) :
    ∃ o, db'.findOrder input.orderNumber input.requestedBy = some o ∧ o.status = .refunded := by
  cases h with
  | alreadyRefunded o row hfind hrow hid =>
    obtain ⟨ho, hoid, -⟩ := Database.findOrder_eq_some hfind
    exact ⟨o, hfind, hsound.settled row hrow o ho (hoid.trans hid.symm)⟩
  | settled o amount hfind hnone hst hamount hkey =>
    refine ⟨{ o with status := .refunded }, ?_, rfl⟩
    have hfind' := Database.findOrder_setOrderStatus
      { db with refunds := db.refunds ++ [⟨input.orderNumber, amount, input.reason,
        refundIdempotencyKey input.orderNumber⟩] } input.orderNumber input.requestedBy .refunded
    exact hfind'.trans (congrArg (Option.map _) hfind)

/-- The order of a completed refund is refunded. -/
theorem refunded_of_completed (hdb : StoreSound db)
    (hrun : runFrom orderService.step (System.initial db) events = some s) (hr : r ∈ s.runs)
    (hinput : r.input = .refund inp) {result : WorkflowResult}
    (hstage : r.stage = .returned (.completed result)) :
    ∃ o, s.db.findOrder inp.orderNumber inp.requestedBy = some o ∧ o.status = .refunded := by
  have hsound := sound_of_run hdb hrun
  cases (kept.holds hrun r hr inp hinput).point with
  | alreadyRefunded order hs _ hloaded hst _ =>
    obtain ⟨record, hreply, -, hrecorded⟩ := hloaded.recorded hsound hr
    obtain ⟨hafter, hout⟩ := loaded_of_recorded hrecorded
    have hsince := hrecorded.since
    rw [hreply] at hout
    rw [hafter] at hsince
    cases hout with
    | loaded o hfind => exact hsince.refunded hsound.db.schema.ordersKey hfind hst
  | refunded result' hs hanswered _ =>
    obtain ⟨record, hack, hreply⟩ := hanswered
    have hrecorded := hsound.did r hr _ record hack.did
    have hout := executed_of_recorded hrecorded
    rw [hreply] at hout
    obtain ⟨o, hfind, hst⟩ := hout.refunded hrecorded.inv
    exact hrecorded.since.refunded hsound.db.schema.ordersKey hfind hst
  | _ => simp_all

/-- What a run returns is its state. -/
theorem RefundWorkflow.Invariant.state_of_returned (h : Invariant inp r) {value : WorkflowState}
    (hstage : r.stage = .returned value) : r.object.state = value := by
  cases h.point <;> simp_all

/-- For every refund run of every reachable state, and of every later one: if it has completed, its
order is refunded and stays so; if it is rejected, it has written nothing; what it has returned is
its state from then on; and its states go the way of `Path`, never leaving a terminal one. -/
theorem refund_status_sound (hdb : StoreSound db)
    (hrun : runFrom orderService.step (System.initial db) events = some s) {i : ℕ}
    (hr : s.runs[i]? = some r) (hinput : r.input = .refund inp) {later : List OrderEvent}
    {s' : OrderSystem} (hlater : runFrom orderService.step s later = some s') :
    ∃ r', s'.runs[i]? = some r' ∧
      (∀ result, r.stage = .returned (.completed result) →
        ∃ o, s'.db.findOrder inp.orderNumber inp.requestedBy = some o ∧ o.status = .refunded) ∧
      (∀ reason, r.stage = .returned (.rejected reason) → ∀ (a : OrderActivity)
        (record : Record Database Failure a.Reply), r'.Did a record → record.after = record.before) ∧
      (∀ value, r.stage = .returned value → r'.object.state = value) ∧
      Path r'.object.trail ∧ r.object.trail <+: r'.object.trail ∧
      (r.object.state.Terminal → r'.object.state = r.object.state) := by
  have hwhole : runFrom orderService.step (System.initial db) (events ++ later) = some s' :=
    (runFrom_append_eq_some _).mpr ⟨s, hrun, hlater⟩
  obtain ⟨r', hr', hlate⟩ := later_of_run hlater hr
  obtain ⟨q, hq, hextends⟩ := object_of_run orderService_extends hlater
    (orderService_extends.kept.holds hrun) hr
  obtain rfl := Option.some.inj (hr'.symm.trans hq)
  have hmem := List.mem_of_getElem? hr'
  have hinput' := hlate.input.trans hinput
  have hinv := kept.holds hwhole r' hmem inp hinput'
  have hclosed : ∀ value, r.stage = .returned value → r'.stage = .returned value := fun value hstage =>
    (hlate.closed (by rw [hstage]; rfl)).2.trans hstage
  exact ⟨r', hr', fun result hstage => refunded_of_completed hdb hwhole hmem hinput' (hclosed _ hstage),
    fun reason hstage a record hdid =>
      unchanged_of_rejected hwhole hmem hinput' (hclosed _ hstage) hdid,
    fun value hstage => hinv.state_of_returned (hclosed _ hstage), hinv.path, hextends,
    fun hterminal => hextends.state_eq hinv.path hterminal⟩

/-- The approved refund of order 5 goes through to its end. -/
def completedRefund : List OrderEvent := approvedRefund ++ [.run 0 .execute, .run 0 .report]

/-- Order 5 is refunded when its refund run has completed, and the run has passed through every
status of an approved refund. -/
theorem refund_status_sound_order_five :
    ∃ s r, runFrom orderService.step (System.initial orderOf300) completedRefund = some s ∧
      s.runs[0]? = some r ∧
      r.object.earlier = [.started, .checkingOrder, .waitingForApproval "300.00", .refunding "300.00"] ∧
      Path r.object.trail ∧ ∃ o, s.db.findOrder 5 "CUS-005" = some o ∧ o.status = .refunded := by
  have hcomputed : (runFrom orderService.step (System.initial orderOf300) completedRefund).map
      (fun s => (s.runs[0]?).map fun r => (r.input, r.object.earlier, r.stage.result?)) =
        some (some (.refund refundOrderFive,
          [.started, .checkingOrder, .waitingForApproval "300.00", .refunding "300.00"],
          some (.completed (.refund ⟨5, .refunded, "300.00", true, none⟩)))) := by decide +kernel
  obtain ⟨s, hrun, hfacts⟩ := Option.map_eq_some_iff.mp hcomputed
  obtain ⟨r, hr, hfacts⟩ := Option.map_eq_some_iff.mp hfacts
  simp only [Prod.mk.injEq] at hfacts
  obtain ⟨hinput, hearlier, hresult⟩ := hfacts
  obtain ⟨q, hq, hcompleted, -, -, hpath, -⟩ :=
    refund_status_sound storeSound_orderOf300 hrun hr hinput (runFrom_nil _ s)
  obtain rfl := Option.some.inj (hr.symm.trans hq)
  exact ⟨s, r, hrun, hr, hearlier, hpath, hcompleted _ (Stage.result?_eq_some.mp hresult)⟩

end Refunds

end Agentops
