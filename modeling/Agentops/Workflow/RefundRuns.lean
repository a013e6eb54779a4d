import Agentops.Workflow.Service
import Mathlib.Data.List.Chain

/-!
# What every run of the refund workflow keeps

The invariant ties together where the coroutine stands, what it was told, what it has tried and
which states it has passed through. It speaks of no table: the replies of activities are
arbitrary here, and what they say about the database is added later.
-/

namespace Agentops

open DurableExecution

namespace WorkflowObject

/-- Every state so far, oldest first. -/
def trail (self : WorkflowObject) : List WorkflowState := self.earlier ++ [self.state]

/-- An assignment is added to the trail. -/
@[simp] theorem trail_assign (self : WorkflowObject) (state : WorkflowState) :
    (self.assign state).trail = self.trail ++ [state] := by
  simp [trail, assign]

end WorkflowObject

/-- The states that may follow one another in a refund. -/
def WorkflowState.CanFollow : WorkflowState → WorkflowState → Prop
  | .started, .checkingOrder => True
  | .checkingOrder, .waitingForApproval _ => True
  | .checkingOrder, .refunding _ => True
  | .checkingOrder, .completed .alreadyRefunded => True
  | .checkingOrder, .rejected _ => True
  | .checkingOrder, .failed => True
  | .waitingForApproval amount, .refunding amount' => amount = amount'
  | .waitingForApproval _, .rejected _ => True
  | .refunding _, .completed (.refund _) => True
  | .refunding _, .failed => True
  | _, _ => False

namespace RefundWorkflow

/-- A way through the states, from the start. -/
structure Path (trail : List WorkflowState) : Prop where
  starts : trail.head? = some .started
  steps : trail.IsChain WorkflowState.CanFollow

/-- The trail begins with the first state. -/
theorem path_init : Path WorkflowObject.init.trail :=
  ⟨rfl, by simp [WorkflowObject.trail, WorkflowObject.init]⟩

/-- A state that may follow extends the way. -/
theorem Path.assign {self : WorkflowObject} (h : Path self.trail) {state : WorkflowState}
    (hnext : self.state.CanFollow state) : Path (self.assign state).trail := by
  rw [WorkflowObject.trail_assign]
  refine ⟨?_, ?_⟩
  · rw [List.head?_append_of_ne_nil _ (by simp [WorkflowObject.trail])]
    exact h.starts
  · rw [List.isChain_append]
    refine ⟨h.steps, by simp, ?_⟩
    simpa [WorkflowObject.trail] using hnext

section Facts

variable (inp : OrderActionInput) (r : OrderRun)

/-- The run was given this order, and no other. -/
def LoadedAs (order : LoadedOrder) : Prop :=
  ∀ order', r.Answered (.loadRefundOrder inp) order' ↔ order' = order

/-- The run has received an approval. -/
def Approved : Prop := ∃ e ∈ r.received, e.message.approved = true

/-- The amount of the order is above the threshold. -/
def NeedsApproval (order : LoadedOrder) : Prop :=
  ∃ amount, Decimal.ofString? order.amount = some amount ∧ refundApprovalThreshold < amount

/-- What the run knows of its order when it refunds it. -/
structure Cleared (order : LoadedOrder) : Prop where
  loaded : LoadedAs inp r order
  delivered : order.status = .delivered
  approved : NeedsApproval order → Approved r
  waited : NeedsApproval order → .waitingForApproval order.amount ∈ r.object.trail

/-- Where the coroutine stands, with what is special there. -/
inductive Point : Prop
  | fresh (hstage : r.stage = .fresh) (htried : ∀ a, ¬ r.TriedBefore a)
      (hstate : r.object.state = .started)
  | loading (number : ℕ) (record : Option (Record Database Failure LoadedOrder))
      (hstage : r.stage = .awaiting (.loadRefundOrder inp) (afterLoad inp) number record)
      (htried : ¬ r.TriedBefore (.executeRefund inp))
      (hnone : ∀ order, ¬ r.Answered (.loadRefundOrder inp) order)
      (hstate : r.object.state = .checkingOrder)
  | waiting (order : LoadedOrder) (hstage : r.stage = .waiting approvalGiven (afterWait inp order))
      (htried : ¬ r.TriedBefore (.executeRefund inp)) (hloaded : LoadedAs inp r order)
      (hdelivered : order.status = .delivered) (hneeds : NeedsApproval order)
      (hstate : r.object.state = .waitingForApproval order.amount)
  | executing (order : LoadedOrder) (number : ℕ)
      (record : Option (Record Database Failure ExecutedRefund))
      (hstage : r.stage = .awaiting (.executeRefund inp) afterExecute number record)
      (hcleared : Cleared inp r order)
      (hnone : ∀ result, ¬ r.Answered (.executeRefund inp) result)
      (hstate : r.object.state = .refunding order.amount)
  | alreadyRefunded (order : LoadedOrder) (hstage : r.stage = .returned (.completed .alreadyRefunded))
      (htried : ¬ r.TriedBefore (.executeRefund inp)) (hloaded : LoadedAs inp r order)
      (hst : order.status = .refunded) (hstate : r.object.state = .completed .alreadyRefunded)
  | rejected (reason : String) (hstage : r.stage = .returned (.rejected reason))
      (htried : ¬ r.TriedBefore (.executeRefund inp)) (hstate : r.object.state = .rejected reason)
  | refunded (result : ExecutedRefund) (hstage : r.stage = .returned (.completed (.refund result)))
      (hanswered : r.Answered (.executeRefund inp) result)
      (hstate : r.object.state = .completed (.refund result))
  | failed (e : Failure) (hstage : r.stage = .raised e)
      (hnone : ∀ result, ¬ r.Answered (.executeRefund inp) result) (hstate : r.object.state = .failed)
  | expired (hstage : r.stage = .expired)

/-- The invariant of a refund run. -/
structure Invariant : Prop where
  input : r.input = .refund inp
  approval : r.object.approval = r.received.getLast?.map Envelope.message
  path : Path r.object.trail
  waited : ∀ amount, .waitingForApproval amount ∈ r.object.trail →
    ∃ order, LoadedAs inp r order ∧ order.amount = amount ∧ NeedsApproval order
  tried : ∀ a, r.TriedBefore a → a = .loadRefundOrder inp ∨ a = .executeRefund inp
  cleared : r.TriedBefore (.executeRefund inp) → ∃ order, Cleared inp r order
  point : Point inp r

end Facts

section Transfer

variable {inp : OrderActionInput} {r r' : OrderRun} {order : LoadedOrder}

/-- What a run was given does not depend on anything else. -/
theorem LoadedAs.congr (h : LoadedAs inp r order)
    (hanswered : ∀ order', r'.Answered (.loadRefundOrder inp) order' ↔
      r.Answered (.loadRefundOrder inp) order') : LoadedAs inp r' order :=
  fun order' => (hanswered order').trans (h order')

/-- What was received before stays received. -/
theorem Approved.mono (h : Approved r) (hreceived : r.received <+: r'.received) : Approved r' :=
  have ⟨e, he, happroved⟩ := h
  ⟨e, hreceived.subset he, happroved⟩

/-- What clears a refund stays. -/
theorem Cleared.congr (h : Cleared inp r order)
    (hanswered : ∀ order', r'.Answered (.loadRefundOrder inp) order' ↔
      r.Answered (.loadRefundOrder inp) order')
    (hreceived : r.received <+: r'.received) (htrail : r.object.trail <+: r'.object.trail) :
    Cleared inp r' order :=
  ⟨h.loaded.congr hanswered, h.delivered, fun hneeds => (h.approved hneeds).mono hreceived,
    fun hneeds => htrail.subset (h.waited hneeds)⟩

/-- The approval after a batch is the last message of all. -/
theorem foldl_approve (batch : List (Envelope WorkflowObject ApprovalInput)) (self : WorkflowObject) :
    let self' := batch.foldl (fun s e => approve e.message s) self
    self'.state = self.state ∧ self'.earlier = self.earlier ∧
      self'.approval = (batch.getLast?.map Envelope.message).or self.approval := by
  induction batch generalizing self with
  | nil => simp
  | cons e batch ih =>
    obtain ⟨hstate, hearlier, happroval⟩ := ih (approve e.message self)
    refine ⟨hstate, hearlier, ?_⟩
    simp only [List.foldl_cons]
    rw [happroval]
    cases batch with
    | nil => simp [approve]
    | cons e' batch => simp [List.getLast?_cons]

end Transfer

section Kept

variable {inp : OrderActionInput} {r r' : OrderRun}

/-- Nothing is lost when only messages arrive, the approval changes or a late attempt is executed. -/
theorem Invariant.congr (h : Invariant inp r) (hinput : r'.input = r.input)
    (hstage : r'.stage = r.stage) (hstate : r'.object.state = r.object.state)
    (hearlier : r'.object.earlier = r.object.earlier)
    (happroval : r'.object.approval = r'.received.getLast?.map Envelope.message)
    (hreceived : r.received <+: r'.received)
    (hanswered : ∀ (a : OrderActivity) (x : a.Reply), r'.Answered a x ↔ r.Answered a x)
    (htried : ∀ a, r'.TriedBefore a → r.TriedBefore a) : Invariant inp r' := by
  have htrail : r'.object.trail = r.object.trail := by
    simp [WorkflowObject.trail, hstate, hearlier]
  refine ⟨hinput.trans h.input, happroval, htrail ▸ h.path, fun amount hamount => ?_,
    fun a ha => h.tried a (htried a ha), fun hexec => ?_, ?_⟩
  · obtain ⟨order, hloaded, hrest⟩ := h.waited amount (htrail ▸ hamount)
    exact ⟨order, hloaded.congr (hanswered _), hrest⟩
  · obtain ⟨order, hcleared⟩ := h.cleared (htried _ hexec)
    exact ⟨order, hcleared.congr (hanswered _) hreceived (htrail ▸ List.prefix_refl _)⟩
  · cases h.point with
    | fresh hs ht hst =>
      exact .fresh (hstage.trans hs) (fun a ha => ht a (htried a ha)) (hstate.trans hst)
    | loading number record hs ht hn hst =>
      exact .loading number record (hstage.trans hs) (fun ha => ht (htried _ ha))
        (fun order ha => hn order ((hanswered _ _).mp ha)) (hstate.trans hst)
    | waiting order hs ht hl hd hneeds hst =>
      exact .waiting order (hstage.trans hs) (fun ha => ht (htried _ ha)) (hl.congr (hanswered _)) hd
        hneeds (hstate.trans hst)
    | executing order number record hs hc hn hst =>
      exact .executing order number record (hstage.trans hs)
        (hc.congr (hanswered _) hreceived (htrail ▸ List.prefix_refl _))
        (fun result ha => hn result ((hanswered _ _).mp ha)) (hstate.trans hst)
    | alreadyRefunded order hs ht hl hst hstate' =>
      exact .alreadyRefunded order (hstage.trans hs) (fun ha => ht (htried _ ha))
        (hl.congr (hanswered _)) hst (hstate.trans hstate')
    | rejected reason hs ht hst =>
      exact .rejected reason (hstage.trans hs) (fun ha => ht (htried _ ha)) (hstate.trans hst)
    | refunded result hs ha hst =>
      exact .refunded result (hstage.trans hs) ((hanswered _ _).mpr ha) (hstate.trans hst)
    | failed e hs hn hst =>
      exact .failed e (hstage.trans hs) (fun result ha => hn result ((hanswered _ _).mp ha))
        (hstate.trans hst)
    | expired hs => exact .expired (hstage.trans hs)

/-- A run that has not begun. -/
theorem invariant_start (workflowId : String) :
    Invariant inp (Run.start orderService workflowId (.refund inp)) where
  input := rfl
  approval := rfl
  path := path_init
  waited amount h := by simp [Run.start, orderService, WorkflowObject.init, WorkflowObject.trail] at h
  tried _ h := absurd h (Run.not_triedBefore_start _ _ _)
  cleared h := absurd h (Run.not_triedBefore_start _ _ _)
  point := .fresh rfl (fun a => Run.not_triedBefore_start _ _ _) rfl

/-- The coroutine begins and awaits its order. -/
theorem Invariant.begun (h : Invariant inp r) (hstage : r.stage = .fresh) :
    Invariant inp (r.resume (run inp)) := by
  have hdrive := drive_run r.object inp
  cases h.point with
  | fresh _ htried hstate =>
    have hobject : (r.resume (run inp)).object = r.object.assign .checkingOrder :=
      congrArg Prod.fst hdrive
    refine ⟨h.input, ?_, ?_, ?_, fun a ha => absurd ha (htried a), fun ha => absurd ha (htried _), ?_⟩
    · rw [hobject]
      exact h.approval
    · rw [hobject]
      exact h.path.assign (by simp [hstate, WorkflowState.CanFollow])
    · intro amount hamount
      rw [hobject, WorkflowObject.trail_assign] at hamount
      exact h.waited amount (by simpa using hamount)
    · refine .loading 1 none (congrArg Prod.snd hdrive) (htried _) ?_ (by rw [hobject]; rfl)
      rintro order ⟨record, ⟨t, ht, -⟩, -⟩
      exact htried t.activity ⟨t, ht, rfl⟩
  | _ hs => simp_all

/-- A batch of messages is handled. -/
theorem Invariant.handled (h : Invariant inp r) (count : ℕ) :
    Invariant inp (r.handleBatch orderService count) := by
  have hhandle : orderService.handle r.input = approve := by rw [h.input]; rfl
  obtain ⟨hstate, hearlier, happroval⟩ := foldl_approve (r.mailbox.take count) r.object
  refine h.congr rfl rfl ?_ ?_ ?_ (List.prefix_append _ _) (fun _ _ => Iff.rfl) (fun _ => id)
  · simpa only [Run.handleBatch, hhandle] using hstate
  · simpa only [Run.handleBatch, hhandle] using hearlier
  · simp only [Run.handleBatch, hhandle]
    rw [happroval, h.approval, List.getLast?_append]
    cases (r.mailbox.take count).getLast? <;> rfl

/-- At the wait the coroutine goes on waiting, is denied, or refunds with an approval. -/
theorem Invariant.wakes (h : Invariant inp r) {order : LoadedOrder}
    (hstage : r.stage = .waiting approvalGiven (afterWait inp order))
    (htried : ¬ r.TriedBefore (.executeRefund inp)) (hloaded : LoadedAs inp r order)
    (hdelivered : order.status = .delivered)
    (hstate : r.object.state = .waitingForApproval order.amount)
    {out : WorkflowObject × WorkflowStage} (hwakes : Wakes r.object inp order out) :
    Invariant inp (r.arrive out) := by
  cases hwakes with
  | waits _ =>
    have hsame : r.arrive (r.object, .waiting approvalGiven (afterWait inp order)) = r := by
      rw [← hstage]
      rfl
    exact hsame ▸ h
  | denied approval _ _ =>
    refine ⟨h.input, h.approval, h.path.assign ?_, fun amount hamount => ?_, h.tried,
      fun ha => absurd ha htried, .rejected _ rfl htried rfl⟩
    · rw [hstate]
      trivial
    · simp only [Run.arrive, WorkflowObject.trail_assign, List.mem_append, List.mem_singleton,
        reduceCtorEq, or_false] at hamount
      exact h.waited amount hamount
  | approved approval happroval happroved =>
    have hreceived : Approved r := by
      rw [h.approval, Option.map_eq_some_iff] at happroval
      obtain ⟨e, he, rfl⟩ := happroval
      exact ⟨e, List.mem_of_getLast? he, happroved⟩
    refine ⟨h.input, h.approval, h.path.assign ?_, fun amount hamount => ?_, h.tried,
      fun ha => absurd ha htried, ?_⟩
    · rw [hstate]
      exact rfl
    · simp only [Run.arrive, WorkflowObject.trail_assign, List.mem_append, List.mem_singleton,
        reduceCtorEq, or_false] at hamount
      exact h.waited amount hamount
    · refine .executing order 1 none rfl ⟨hloaded, hdelivered, fun _ => hreceived, fun _ => ?_⟩ ?_ rfl
      · simp [Run.arrive, WorkflowObject.trail, WorkflowObject.assign, hstate]
      · rintro result ⟨record, ⟨t, ht, -, hwork⟩, -⟩
        exact htried ⟨t, ht, congrArg Sigma.fst hwork⟩

/-- The same for a run that stands at its wait. -/
theorem Invariant.woken (h : Invariant inp r) {condition : WorkflowObject → Bool}
    {next : WorkflowBody WorkflowState} (hstage : r.stage = .waiting condition next) :
    Invariant inp (r.resume (.wait condition next)) := by
  cases h.point with
  | waiting order hs htried hloaded hdelivered hneeds hstate =>
    obtain ⟨rfl, rfl⟩ := Stage.waiting.inj (hstage.symm.trans hs)
    exact h.wakes hs htried hloaded hdelivered hstate (drive_wait r.object inp order)
  | _ hs => simp_all

/-- The loaded order decides how the coroutine goes on. -/
theorem Invariant.loaded (h : Invariant inp r) {number : ℕ}
    {record : Record Database Failure LoadedOrder} {order : LoadedOrder}
    (hreply : record.reply = .ok order) (htried : ¬ r.TriedBefore (.executeRefund inp))
    (hnone : ∀ order, ¬ r.Answered (.loadRefundOrder inp) order)
    (hstate : r.object.state = .checkingOrder) :
    Invariant inp ((r.retire ⟨.loadRefundOrder inp, number, .acknowledged, some record⟩).resume
      (afterLoad inp (.ok order))) := by
  set q := r.retire ⟨.loadRefundOrder inp, number, .acknowledged, some record⟩ with hq
  have hloaded : LoadedAs inp q order := by
    intro order'
    rw [hq, Run.answered_retire_ok hreply]
    simp [hnone]
  have htried' : ¬ q.TriedBefore (.executeRefund inp) := by simp [hq, htried]
  have hloads : ∀ a, q.TriedBefore a → a = .loadRefundOrder inp ∨ a = .executeRefund inp := by
    intro a ha
    rcases Run.triedBefore_retire.mp ha with hold | rfl
    · exact h.tried a hold
    · exact .inl rfl
  have hnever : ∀ amount, .waitingForApproval amount ∉ r.object.trail := by
    intro amount hamount
    obtain ⟨order', hloaded', -⟩ := h.waited amount hamount
    exact hnone order' ((hloaded' order').mpr rfl)
  have hunanswered : ∀ result, ¬ q.Answered (.executeRefund inp) result := by
    rintro result ⟨record', ⟨t, ht, -, hwork⟩, -⟩
    exact htried' ⟨t, ht, congrArg Sigma.fst hwork⟩
  -- a state that is not a wait adds nothing to what has been waited for
  have harrives : ∀ {state : WorkflowState} {stage : WorkflowStage},
      WorkflowState.CanFollow .checkingOrder state → (∀ amount, state ≠ .waitingForApproval amount) →
      Point inp (q.arrive (r.object.assign state, stage)) →
        Invariant inp (q.arrive (r.object.assign state, stage)) := by
    intro state stage hfollows hne hpoint
    refine ⟨h.input, h.approval, h.path.assign (hstate ▸ hfollows), fun amount hamount => ?_, hloads,
      fun ha => absurd ha htried', hpoint⟩
    simp only [Run.arrive, WorkflowObject.trail_assign, List.mem_append, List.mem_singleton] at hamount
    rcases hamount with hold | hnew
    · exact absurd hold (hnever amount)
    · exact absurd hnew.symm (hne amount)
  change Invariant inp (q.arrive ((afterLoad inp (.ok order)).drive r.object))
  have hdecides := drive_afterLoad r.object inp order
  generalize (afterLoad inp (.ok order)).drive r.object = out at hdecides
  cases hdecides with
  | alreadyRefunded hst =>
    exact harrives trivial (by simp) (.alreadyRefunded order rfl htried' hloaded hst rfl)
  | notDelivered _ _ => exact harrives trivial (by simp) (.rejected _ rfl htried' rfl)
  | unreadable _ => exact harrives trivial (by simp) (.failed _ rfl hunanswered rfl)
  | automatic amount hst hread hle =>
    have hfree : ¬ NeedsApproval order := by
      rintro ⟨amount', hread', hlt⟩
      obtain rfl := Option.some.inj (hread.symm.trans hread')
      exact hle hlt
    have hcleared : Cleared inp (q.arrive (r.object.assign (.refunding order.amount),
        .awaiting (.executeRefund inp) afterExecute 1 none)) order :=
      ⟨hloaded, hst, fun hneeds => absurd hneeds hfree, fun hneeds => absurd hneeds hfree⟩
    exact harrives trivial (by simp) (.executing order 1 none rfl hcleared hunanswered rfl)
  | gated amount hst hread hlt _ hwakes =>
    -- the coroutine passes through the wait, where it may already find an approval
    let waits : OrderRun := q.arrive (r.object.assign (.waitingForApproval order.amount),
      .waiting approvalGiven (afterWait inp order))
    have hwaits : Invariant inp waits := by
      refine ⟨h.input, h.approval, h.path.assign (by rw [hstate]; trivial), ?_, hloads,
        fun ha => absurd ha htried',
        .waiting order rfl htried' hloaded hst ⟨amount, hread, hlt⟩ rfl⟩
      intro amount' hamount
      rw [show waits.object = r.object.assign (.waitingForApproval order.amount) from rfl,
        WorkflowObject.trail_assign, List.mem_append, List.mem_singleton] at hamount
      rcases hamount with hold | hnew
      · exact absurd hold (hnever amount')
      · exact ⟨order, hloaded, (WorkflowState.waitingForApproval.inj hnew).symm, amount, hread, hlt⟩
    exact hwaits.wakes rfl htried' hloaded hst rfl hwakes

/-- Whatever is over, the attempts are those of the two activities. -/
theorem Invariant.tried_retire (h : Invariant inp r)
    {t : Attempt OrderActivity OrderActivity.Reply Failure Database}
    (ht : t.activity = .loadRefundOrder inp ∨ t.activity = .executeRefund inp) :
    ∀ a, (r.retire t).TriedBefore a → a = .loadRefundOrder inp ∨ a = .executeRefund inp := by
  intro a ha
  rcases Run.triedBefore_retire.mp ha with hold | rfl
  · exact h.tried a hold
  · exact ht

/-- Whatever is over, an order that was executed was cleared. -/
theorem Invariant.cleared_retire (h : Invariant inp r)
    {t : Attempt OrderActivity OrderActivity.Reply Failure Database}
    (hcleared : t.activity = .executeRefund inp → ∃ order, Cleared inp r order)
    (hexec : (r.retire t).TriedBefore (.executeRefund inp)) : ∃ order, Cleared inp r order := by
  rcases Run.triedBefore_retire.mp hexec with hold | hnew
  · exact h.cleared hold
  · exact hcleared hnew

/-- The execution is over: its result becomes the state. -/
theorem Invariant.executed (h : Invariant inp r) {order : LoadedOrder} {number : ℕ}
    {record : Record Database Failure ExecutedRefund} {result : ExecutedRefund}
    (hreply : record.reply = .ok result) (hcleared : Cleared inp r order)
    (hstate : r.object.state = .refunding order.amount) :
    Invariant inp ((r.retire ⟨.executeRefund inp, number, .acknowledged, some record⟩).resume
      (afterExecute (.ok result))) := by
  have hanswered : ∀ order', (r.retire ⟨.executeRefund inp, number, .acknowledged, some record⟩).Answered
      (.loadRefundOrder inp) order' ↔ r.Answered (.loadRefundOrder inp) order' := by
    intro order'
    rw [Run.answered_retire_ok hreply]
    simp
  have htrail : r.object.trail <+: (r.object.assign (.completed (.refund result))).trail := by
    rw [WorkflowObject.trail_assign]
    exact List.prefix_append _ _
  refine ⟨h.input, h.approval, h.path.assign (by rw [hstate]; trivial), fun amount hamount => ?_,
    h.tried_retire (.inr rfl), fun _ => ⟨order, hcleared.congr hanswered (List.prefix_refl _) htrail⟩,
    .refunded result rfl ((Run.answered_retire_ok hreply).mpr (.inr rfl)) rfl⟩
  rw [show ∀ q : OrderRun, (q.resume (afterExecute (.ok result))).object =
    q.object.assign (.completed (.refund result)) from fun _ => rfl, WorkflowObject.trail_assign,
    List.mem_append, List.mem_singleton] at hamount
  rcases hamount with hold | hnew
  · obtain ⟨order', hloaded, hrest⟩ := h.waited amount hold
    exact ⟨order', hloaded.congr hanswered, hrest⟩
  · exact absurd hnew (by simp)

/-- An activity has failed for good: the failure is recorded and raised. -/
theorem Invariant.failed (h : Invariant inp r)
    {t : Attempt OrderActivity OrderActivity.Reply Failure Database} {e : Failure}
    (hend : orderService.EndsIn t e)
    (ht : t.activity = .loadRefundOrder inp ∨ t.activity = .executeRefund inp)
    (hcleared : t.activity = .executeRefund inp → ∃ order, Cleared inp r order)
    (hnone : ∀ result, ¬ r.Answered (.executeRefund inp) result)
    (hnext : r.object.state.CanFollow .failed) :
    Invariant inp ((r.retire t).resume (onException e)) := by
  have hanswered : ∀ (a : OrderActivity) (x : a.Reply), (r.retire t).Answered a x ↔ r.Answered a x :=
    fun _ _ => Run.answered_retire_of_endsIn hend
  have htrail : r.object.trail <+: (r.object.assign .failed).trail := by
    rw [WorkflowObject.trail_assign]
    exact List.prefix_append _ _
  refine ⟨h.input, h.approval, h.path.assign hnext, fun amount hamount => ?_, h.tried_retire ht,
    fun hexec => ?_, .failed e rfl (fun result ha => hnone result ((hanswered _ _).mp ha)) rfl⟩
  · rw [show ∀ q : OrderRun, (q.resume (onException e)).object = q.object.assign .failed from
      fun _ => rfl, WorkflowObject.trail_assign, List.mem_append, List.mem_singleton] at hamount
    rcases hamount with hold | hnew
    · obtain ⟨order, hloaded, hrest⟩ := h.waited amount hold
      exact ⟨order, hloaded.congr (hanswered _), hrest⟩
    · exact absurd hnew (by simp)
  · obtain ⟨order, hsome⟩ := h.cleared_retire hcleared hexec
    exact ⟨order, hsome.congr (hanswered _) (List.prefix_refl _) htrail⟩

/-- An attempt is over without a reply, and the coroutine is left where it is or cut off. -/
theorem Invariant.retired (h : Invariant inp r)
    {t : Attempt OrderActivity OrderActivity.Reply Failure Database}
    (hanswered : ∀ (a : OrderActivity) (x : a.Reply), (r.retire t).Answered a x ↔ r.Answered a x)
    (ht : t.activity = .loadRefundOrder inp ∨ t.activity = .executeRefund inp)
    (hcleared : t.activity = .executeRefund inp → ∃ order, Cleared inp r order)
    {stage : WorkflowStage} (hpoint : Point inp ((r.retire t).arrive (r.object, stage))) :
    Invariant inp ((r.retire t).arrive (r.object, stage)) := by
  refine ⟨h.input, h.approval, h.path, fun amount hamount => ?_, h.tried_retire ht,
    fun hexec => ?_, hpoint⟩
  · obtain ⟨order, hloaded, hrest⟩ := h.waited amount hamount
    exact ⟨order, hloaded.congr (hanswered _), hrest⟩
  · obtain ⟨order, hsome⟩ := h.cleared_retire hcleared hexec
    exact ⟨order, hsome.congr (hanswered _) (List.prefix_refl _) (List.prefix_refl _)⟩

/-- Only the stage has changed. -/
theorem Invariant.stays (h : Invariant inp r) {stage : WorkflowStage}
    (hpoint : Point inp (r.arrive (r.object, stage))) : Invariant inp (r.arrive (r.object, stage)) :=
  ⟨h.input, h.approval, h.path, h.waited, h.tried, fun hexec =>
    have ⟨order, hcleared⟩ := h.cleared hexec
    ⟨order, hcleared.congr (fun _ => Iff.rfl) (List.prefix_refl _) (List.prefix_refl _)⟩, hpoint⟩

/-- Every move keeps the invariant. -/
theorem Invariant.move (h : Invariant inp r) {db db' : Database} {e : RunEvent}
    (hmove : orderService.Moves db r e db' r') : Invariant inp r' := by
  cases hmove with
  | begun hstage =>
    have hmain : orderService.main r.input = run inp := by rw [h.input]; rfl
    exact hmain ▸ h.begun hstage
  | handled count _ => exact h.handled count
  | woken count condition next hstage _ => exact (h.handled count).woken hstage
  | executed a next number hstage =>
    cases h.point with
    | loading number' record hs htried hnone hstate =>
      cases hstage.symm.trans hs
      exact h.stays (.loading number _ rfl htried hnone hstate)
    | executing order number' record hs hcleared hnone hstate =>
      cases hstage.symm.trans hs
      refine h.stays (.executing order number _ rfl ?_ hnone hstate)
      exact hcleared.congr (fun _ => Iff.rfl) (List.prefix_refl _) (List.prefix_refl _)
    | _ hs => simp_all
  | executedLate k a number hk =>
    exact h.congr rfl rfl rfl rfl h.approval (List.prefix_refl _) (fun _ _ => Run.answered_executed hk)
      fun _ => Run.triedBefore_executed hk
  | answered a next number record reply hstage hreply =>
    cases h.point with
    | loading number' record' hs htried hnone hstate =>
      cases hstage.symm.trans hs
      exact h.loaded hreply htried hnone hstate
    | executing order number' record' hs hcleared hnone hstate =>
      cases hstage.symm.trans hs
      exact h.executed hreply hcleared hstate
    | _ hs => simp_all
  | retried e a next number record fate f hstage hend _ =>
    cases h.point with
    | loading number' record' hs htried hnone hstate =>
      cases hstage.symm.trans hs
      refine h.retired (fun _ _ => Run.answered_retire_of_endsIn hend) (.inl rfl) (by simp)
        (.loading (number + 1) none rfl ?_ (fun order ha => ?_) hstate)
      · intro ha
        exact (Run.triedBefore_retire.mp ha).elim htried (by simp)
      · exact hnone order ((Run.answered_retire_of_endsIn hend).mp ha)
    | executing order number' record' hs hcleared hnone hstate =>
      cases hstage.symm.trans hs
      refine h.retired (fun _ _ => Run.answered_retire_of_endsIn hend) (.inr rfl)
        (fun _ => ⟨order, hcleared⟩) (.executing order (number + 1) none rfl ?_ (fun result ha => ?_) hstate)
      · exact hcleared.congr (fun _ => Run.answered_retire_of_endsIn hend) (List.prefix_refl _)
          (List.prefix_refl _)
      · exact hnone result ((Run.answered_retire_of_endsIn hend).mp ha)
    | _ hs => simp_all
  | failed e a next number record fate f hstage hend _ =>
    cases h.point with
    | loading number' record' hs htried hnone hstate =>
      cases hstage.symm.trans hs
      refine h.failed hend (.inl rfl) (by simp) ?_ (by rw [hstate]; trivial)
      rintro result ⟨record'', ⟨t, ht, -, hwork⟩, -⟩
      exact htried ⟨t, ht, congrArg Sigma.fst hwork⟩
    | executing order number' record' hs hcleared hnone hstate =>
      cases hstage.symm.trans hs
      exact h.failed hend (.inr rfl) (fun _ => ⟨order, hcleared⟩) hnone (by rw [hstate]; trivial)
    | _ hs => simp_all
  | expired _ => exact h.stays (.expired rfl)
  | expiredAwaiting a next number record hstage =>
    have hlost : orderService.EndsIn (⟨a, number, .lost, record⟩ :
        Attempt OrderActivity OrderActivity.Reply Failure Database) .attemptLost := .lost rfl
    cases h.point with
    | loading number' record' hs htried hnone hstate =>
      cases hstage.symm.trans hs
      exact h.retired (fun _ _ => Run.answered_retire_of_endsIn hlost) (.inl rfl) (by simp) (.expired rfl)
    | executing order number' record' hs hcleared hnone hstate =>
      cases hstage.symm.trans hs
      exact h.retired (fun _ _ => Run.answered_retire_of_endsIn hlost) (.inr rfl)
        (fun _ => ⟨order, hcleared⟩) (.expired rfl)
    | _ hs => simp_all

/-- Every refund run of the system keeps the invariant. -/
theorem kept : Kept orderService fun r => ∀ inp, r.input = .refund inp → Invariant inp r where
  start workflowId input inp hinput := by
    obtain rfl : input = .refund inp := hinput
    exact invariant_start workflowId
  receive r e h inp hinput := by
    have hr := h inp hinput
    exact hr.congr rfl rfl rfl rfl hr.approval (List.prefix_refl _) (fun _ _ => Iff.rfl) fun _ => id
  move db r e db' r' h hmove inp hinput := (h inp (hmove.later.input ▸ hinput)).move hmove

end Kept

end RefundWorkflow

end Agentops
