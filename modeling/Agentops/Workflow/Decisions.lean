import Agentops.Workflow.ApprovalGate

/-!
# Whose approval decides

The approval is one field, overwritten by every message. A waiting run acts on what it finds
there when it is next activated: the last message of the first batch. And the message is
addressed to a workflow id, so it may have been meant for an earlier run under that id.
-/

namespace Agentops

open DurableExecution LabelledRun

namespace RefundWorkflow

section Batches

/-- The run is activated with these numbers of its waiting messages, one batch after the other. -/
def activations (db : Database) (counts : List ℕ) (r : OrderRun) : OrderRun :=
  counts.foldl (fun r count =>
    ((orderService.stepRun db r (.activate count)).map Prod.snd).getD r) r

/-- What the run has decided about its refund. -/
def decision (r : OrderRun) : Option Bool :=
  match r.object.state with
  | .refunding _ => some true
  | state => if state = .rejected "approval_denied" then some false else none

/-- The batches use up the messages that wait for the run. -/
structure Splits (counts : List ℕ) (r : OrderRun) : Prop where
  positive : ∀ count ∈ counts, 0 < count
  sum : counts.sum = r.mailbox.length

variable {db : Database} {inp : OrderActionInput} {r : OrderRun}

/-- Once a run has decided, further messages do not change its state. -/
theorem state_activations (hinput : r.input = .refund inp)
    (hdecided : ∀ condition next, r.stage ≠ .waiting condition next) (counts : List ℕ) :
    (activations db counts r).object.state = r.object.state := by
  induction counts generalizing r with
  | nil => rfl
  | cons count rest ih =>
    unfold activations
    rw [List.foldl_cons]
    cases hstep : orderService.stepRun db r (.activate count) with
    | none => exact ih hinput hdecided
    | some out =>
      obtain ⟨db', r'⟩ := out
      cases orderService.stepRun_moves hstep with
      | handled _ _ =>
        have hhandle : orderService.handle r.input = approve := by rw [hinput]; rfl
        have hsame := (foldl_approve (r.mailbox.take count) r.object).1
        refine (ih (r := r.handleBatch orderService count) hinput hdecided).trans ?_
        simpa only [Run.handleBatch, hhandle] using hsame
      | woken _ condition next hstage _ => exact absurd hstage (hdecided condition next)
      | retried _ _ _ _ _ _ _ _ _ he => simp at he
      | failed _ _ _ _ _ _ _ _ _ he => simp at he

/-- A waiting run acts on the last message of the first batch. -/
theorem decision_activations (h : Invariant inp r) {order : LoadedOrder}
    (hstage : r.stage = .waiting approvalGiven (afterWait inp order)) {first : ℕ} (rest : List ℕ)
    {e : Envelope WorkflowObject ApprovalInput} (hfirst : 0 < first)
    (he : r.mailbox[first - 1]? = some e) :
    decision (activations db (first :: rest) r) = some e.message.approved := by
  obtain ⟨hlength, -⟩ := List.getElem?_eq_some_iff.mp he
  have hle : first ≤ r.mailbox.length := by omega
  let q := r.handleBatch orderService first
  have hstep : orderService.stepRun db r (.activate first) =
      some (db, q.resume (.wait approvalGiven (afterWait inp order))) := by
    simp [Service.stepRun, hfirst, hle, hstage, q]
  have hlast : (r.mailbox.take first).getLast? = some e := by
    rw [List.getLast?_take, if_neg (by omega), he]
    rfl
  have happroval : q.object.approval = some e.message := by
    rw [(h.handled first).approval]
    simp [Run.handleBatch, List.getLast?_append, hlast]
  have hrest : ∀ out : WorkflowObject × WorkflowStage, (∀ condition next, out.2 ≠ .waiting condition next) →
      (activations db rest (q.arrive out)).object.state = out.1.state := fun out hout =>
    state_activations (r := q.arrive out) h.input hout rest
  have hunfold : activations db (first :: rest) r =
      activations db rest (q.resume (.wait approvalGiven (afterWait inp order))) := by
    simp [activations, hstep]
  rw [hunfold]
  change decision (activations db rest (q.arrive ((Body.wait approvalGiven (afterWait inp order)).drive
    q.object))) = _
  have hwakes := drive_wait q.object inp order
  generalize (Body.wait approvalGiven (afterWait inp order)).drive q.object = out at hwakes ⊢
  unfold decision
  cases hwakes with
  | waits hnone => simp [happroval] at hnone
  | denied approval hsome hdenied =>
    obtain rfl := Option.some.inj (happroval.symm.trans hsome)
    rw [hrest _ (by simp), hdenied]
    rfl
  | approved approval hsome happroved =>
    obtain rfl := Option.some.inj (happroval.symm.trans hsome)
    rw [hrest _ (by simp), happroved]
    rfl

/-- A run in `WAITING_FOR_APPROVAL` stands at its wait. -/
theorem Invariant.waiting_of_state (h : Invariant inp r) (hopen : r.stage.isOpen = true) {amount : String}
    (hstate : r.object.state = .waitingForApproval amount) :
    ∃ order, r.stage = .waiting approvalGiven (afterWait inp order) := by
  cases h.point with
  | waiting order hstage => exact ⟨order, hstage⟩
  | expired hstage => simp [hstage, Stage.isOpen] at hopen
  | _ => simp_all

/-- The decision of a waiting run is that of the last message of the first batch. So all ways of
splitting the waiting messages into batches give one decision exactly when the messages agree. -/
theorem decision_of_first_batch {start : Database} {events : List OrderEvent} {s : OrderSystem}
    (hrun : runFrom orderService.step (System.initial start) events = some s) (hr : r ∈ s.runs)
    (hinput : r.input = .refund inp) (hopen : r.stage.isOpen = true) {amount : String}
    (hstate : r.object.state = .waitingForApproval amount) (hmail : r.mailbox ≠ []) :
    (∀ first rest, Splits (first :: rest) r →
      ∃ e, r.mailbox[first - 1]? = some e ∧
        decision (activations s.db (first :: rest) r) = some e.message.approved) ∧
    ((∃ decided, ∀ counts, Splits counts r → decision (activations s.db counts r) = some decided) ↔
      ∃ decided, ∀ e ∈ r.mailbox, e.message.approved = decided) := by
  have hinv := kept.holds hrun r hr inp hinput
  obtain ⟨order, hstage⟩ := hinv.waiting_of_state hopen hstate
  have hfirst : ∀ first rest, Splits (first :: rest) r → ∃ e, r.mailbox[first - 1]? = some e ∧
      decision (activations s.db (first :: rest) r) = some e.message.approved := by
    intro first rest hsplits
    have hpositive := hsplits.positive first List.mem_cons_self
    have hle : first - 1 < r.mailbox.length := by
      have hsum := hsplits.sum
      rw [List.sum_cons] at hsum
      omega
    exact ⟨_, List.getElem?_eq_getElem hle,
      decision_activations hinv hstage rest hpositive (List.getElem?_eq_getElem hle)⟩
  refine ⟨hfirst, ?_, ?_⟩
  · rintro ⟨decided, hsame⟩
    refine ⟨decided, fun e he => ?_⟩
    -- a first batch that ends with this message
    obtain ⟨j, hj, rfl⟩ := List.mem_iff_getElem.mp he
    obtain ⟨rest, hsplits⟩ : ∃ rest, Splits ((j + 1) :: rest) r := by
      by_cases hend : j + 1 = r.mailbox.length
      · exact ⟨[], by simp, by simp [hend]⟩
      · refine ⟨[r.mailbox.length - (j + 1)], ?_, ?_⟩
        · simp only [List.mem_cons, List.not_mem_nil, or_false]
          rintro count (rfl | rfl) <;> omega
        · simp only [List.sum_cons, List.sum_nil]
          omega
    obtain ⟨e', he', hdecision⟩ := hfirst _ rest hsplits
    obtain rfl : r.mailbox[j] = e' := by
      rw [Nat.add_sub_cancel, List.getElem?_eq_getElem hj] at he'
      exact Option.some.inj he'
    exact Option.some.inj (hdecision.symm.trans (hsame _ hsplits))
  · rintro ⟨decided, hagree⟩
    refine ⟨decided, fun counts hsplits => ?_⟩
    cases counts with
    | nil =>
      have hlength := hsplits.sum
      exact absurd (List.length_eq_zero_iff.mp hlength.symm) hmail
    | cons first rest =>
      obtain ⟨e, he, hdecision⟩ := hfirst first rest hsplits
      rw [hdecision, hagree e (List.mem_of_getElem? he)]

/-- Order 5 waits for its approval; a denial and then an approval reach it. -/
def deniedThenApproved : List OrderEvent :=
  [.start "refund-order-5" (.refund refundOrderFive), .run 0 .begin, .run 0 .execute, .run 0 .report,
    .send "refund-order-5" ⟨false, "STAFF-1"⟩, .send "refund-order-5" ⟨true, "STAFF-2"⟩, .deliver 0,
    .deliver 0]

/-- One by one the two messages deny the refund; together they approve it. -/
theorem deniedThenApproved_decisions :
    ∃ s, runFrom orderService.step (System.initial orderOf300) deniedThenApproved = some s ∧
      ∃ r ∈ s.runs, r.input = .refund refundOrderFive ∧ r.stage.isOpen = true ∧
        r.object.state = .waitingForApproval "300.00" ∧
        r.mailbox.map (fun e => e.message.approved) = [false, true] ∧
        Splits [1, 1] r ∧ decision (activations s.db [1, 1] r) = some false ∧
        Splits [2] r ∧ decision (activations s.db [2] r) = some true := by
  have hcomputed : (runFrom orderService.step (System.initial orderOf300) deniedThenApproved).map
      (fun s => (s.runs[0]?).map fun r => ((r.input, r.stage.isOpen, r.object.state),
        r.mailbox.map fun e => e.message.approved,
        [[1, 1], [2]].map fun counts => decision (activations s.db counts r))) =
      some (some ((.refund refundOrderFive, true, .waitingForApproval "300.00"), [false, true],
        [some false, some true])) := by decide +kernel
  obtain ⟨s, hrun, hfacts⟩ := Option.map_eq_some_iff.mp hcomputed
  obtain ⟨r, hr, hfacts⟩ := Option.map_eq_some_iff.mp hfacts
  simp only [List.map_cons, List.map_nil, List.cons.injEq, and_true, Prod.mk.injEq] at hfacts
  obtain ⟨⟨hinput, hopen, hstate⟩, hmail, honeByOne, htogether⟩ := hfacts
  have hlength : r.mailbox.length = 2 := by simpa using congrArg List.length hmail
  exact ⟨s, hrun, r, List.mem_of_getElem? hr, hinput, hopen, hstate, hmail,
    ⟨by simp, by simp [hlength]⟩, honeByOne, ⟨by simp, by simp [hlength]⟩, htogether⟩

/-- Two approvals that reach a waiting run decide the same in any batches. -/
def approvedTwice : List OrderEvent :=
  [.start "refund-order-5" (.refund refundOrderFive), .run 0 .begin, .run 0 .execute, .run 0 .report,
    .send "refund-order-5" ⟨true, "STAFF-1"⟩, .send "refund-order-5" ⟨true, "STAFF-2"⟩, .deliver 0,
    .deliver 0]

theorem decision_of_first_batch_approvedTwice :
    ∃ s, runFrom orderService.step (System.initial orderOf300) approvedTwice = some s ∧
      ∃ r ∈ s.runs, r.mailbox.map (fun e => e.message.approved) = [true, true] ∧
        ∃ decided, ∀ counts, Splits counts r → decision (activations s.db counts r) = some decided := by
  have hcomputed : (runFrom orderService.step (System.initial orderOf300) approvedTwice).map
      (fun s => (s.runs[0]?).map fun r => ((r.input, r.stage.isOpen, r.object.state),
        r.mailbox.map fun e => e.message.approved)) =
      some (some ((.refund refundOrderFive, true, .waitingForApproval "300.00"), [true, true])) := by
    decide +kernel
  obtain ⟨s, hrun, hfacts⟩ := Option.map_eq_some_iff.mp hcomputed
  obtain ⟨r, hr, hfacts⟩ := Option.map_eq_some_iff.mp hfacts
  simp only [Prod.mk.injEq] at hfacts
  obtain ⟨⟨hinput, hopen, hstate⟩, hmail⟩ := hfacts
  have hagree : ∀ e ∈ r.mailbox, e.message.approved = true := by
    intro e he
    have hmem : e.message.approved ∈ r.mailbox.map fun e => e.message.approved := List.mem_map_of_mem he
    simpa [hmail] using hmem
  have hne : r.mailbox ≠ [] := by
    intro hnil
    simp [hnil] at hmail
  have hmem := List.mem_of_getElem? hr
  exact ⟨s, hrun, r, hmem, hmail,
    (decision_of_first_batch hrun hmem hinput hopen hstate hne).2.mpr ⟨true, hagree⟩⟩

end Batches

section Addressees

variable {db : Database} {events : List OrderEvent} {s s' : OrderSystem} {e : OrderEvent}

/-- A refund above the threshold, executed at the price of the load, is executed by a run that has
been in `WAITING_FOR_APPROVAL` with this amount and has received an approval that was sent to its
workflow id. -/
theorem approval_sent_to_workflowId (hdb : StoreSound db)
    (hrun : runFrom orderService.step (System.initial db) events = some s)
    (hstep : orderService.step s e = some s') {row : Refund} {i : ℕ} {r : OrderRun}
    {inp : OrderActionInput} (hinserts : Inserts s e s' row i r inp) (hheld : PriceHeld inp r s.db)
    (habove : 20000 < row.amount.cents) :
    .waitingForApproval (amountText row.amount.cents) ∈ r.object.trail ∧
      ∃ m ∈ r.received, m.message.approved = true ∧ m.workflowId = r.workflowId ∧
        .send m.workflowId m.message ∈ events := by
  have hsound := sound_of_run hdb hrun
  have hnew := hinserts.new (hsound.step orderService_guarantee hstep e.admissible_of_all).1.db.schema
  have hrow : row ∈ s'.db.refunds := by simp [hinserts.inserted]
  obtain ⟨j, q, inp', order, o, hinserts', hcleared, hfind, hamount⟩ :=
    exists_inserts hrun hsound.db hstep hrow hnew
  obtain ⟨rfl, rfl, rfl⟩ := hinserts.unique hinserts'
  have hmem := List.mem_of_getElem? hinserts'.run
  have htext := (hcleared.loaded.amount_eq_iff hsound hmem hsound.db.schema (.refl _) hfind).mpr hheld
  have hneeds : NeedsApproval order := (needsApproval_iff htext).mpr (hamount ▸ habove)
  have hwaited := hcleared.waited hneeds
  rw [htext, ← hamount] at hwaited
  obtain ⟨m, hm, happroved⟩ := hcleared.approved hneeds
  have hposted := (Posted.run hrun).messages _ hmem m (List.mem_append_left _ hm)
  exact ⟨hwaited, m, hm, happroved, hposted⟩

/-- Run 0 of order 5 waits; an approval is sent to it, but a denial arrives first. The refund is
started again, run 1 comes to its wait, and there the late approval arrives. -/
def lateApproval : List OrderEvent :=
  [.start "refund-order-5" (.refund refundOrderFive), .run 0 .begin, .run 0 .execute, .run 0 .report,
    .send "refund-order-5" ⟨true, "STAFF-1"⟩, .send "refund-order-5" ⟨false, "STAFF-2"⟩, .deliver 1,
    .run 0 (.activate 1), .start "refund-order-5" (.refund refundOrderFive), .run 1 .begin,
    .run 1 .execute, .run 1 .report, .deliver 0, .run 1 (.activate 1)]

/-- Run 1 executes a refund of 300.00 although every message it has received was issued for
run 0. -/
theorem lateApproval_authorises :
    ∃ s s' row r inp, runFrom orderService.step (System.initial orderOf300) lateApproval = some s ∧
      orderService.step s (.run 1 .execute) = some s' ∧ Inserts s (.run 1 .execute) s' row 1 r inp ∧
      20000 < row.amount.cents ∧ ∀ m ∈ r.received, m.addressee.map Prod.fst = some 0 := by
  obtain ⟨s, s', row, r, inp, hrun, hstep, hinserts, hamount⟩ :=
    exists_inserts_of_first_row storeSound_orderOf300
      (show (runFrom orderService.step (System.initial orderOf300) lateApproval).map
        (fun s => s.db.refunds) = some [] by decide +kernel)
      (show (runFrom orderService.step (System.initial orderOf300)
        (lateApproval ++ [.run 1 .execute])).map (fun s => s.db.refunds.map fun row => row.amount.cents) =
          some [30000] by decide +kernel)
  have hcomputed : (runFrom orderService.step (System.initial orderOf300) lateApproval).map
      (fun s => (s.runs[1]?).map fun r => r.received.map fun m => m.addressee.map Prod.fst) =
        some (some [some 0]) := by decide +kernel
  simp only [hrun, hinserts.run, Option.map_some, Option.some.injEq] at hcomputed
  refine ⟨s, s', row, r, inp, hrun, hstep, hinserts, by omega, fun m hm => ?_⟩
  have hmem : m.addressee.map Prod.fst ∈ r.received.map fun m => m.addressee.map Prod.fst :=
    List.mem_map_of_mem hm
  simpa [hcomputed] using hmem

/-- The refund of 300.00 was approved by a message to its workflow id. -/
theorem approval_sent_to_workflowId_order_five :
    ∃ s s' row r inp, runFrom orderService.step (System.initial orderOf300) approvedRefund = some s ∧
      orderService.step s (.run 0 .execute) = some s' ∧ Inserts s (.run 0 .execute) s' row 0 r inp ∧
      row.amount.cents = 30000 ∧ .waitingForApproval (amountText row.amount.cents) ∈ r.object.trail ∧
      ∃ m ∈ r.received, m.message.approved = true ∧ m.workflowId = r.workflowId ∧
        .send m.workflowId m.message ∈ approvedRefund := by
  obtain ⟨s, s', row, r, inp, hrun, hstep, hinserts, hamount⟩ :=
    exists_inserts_of_first_row storeSound_orderOf300 approvedRefund_before approvedRefund_after
  have hheld := priceHeld_of_run inp storeSound_orderOf300
    (by simp [approvedRefund, Event.Admissible]) hrun (List.mem_of_getElem? hinserts.run)
  have happroved := approval_sent_to_workflowId storeSound_orderOf300 hrun hstep hinserts hheld (by omega)
  exact ⟨s, s', row, r, inp, hrun, hstep, hinserts, hamount, happroved⟩

end Addressees

end RefundWorkflow

end Agentops
