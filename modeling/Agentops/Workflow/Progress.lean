import Agentops.Foundations.DurableProgress
import Agentops.Workflow.Endings

/-!
# The workflows come to an end

A cancellation awaits one activity and a refund two, each with at most three attempts. So a run takes
a bounded number of steps, whatever is lost, retried and executed late. And from every state that it
reaches it can go on by itself, to a terminal status or to the wait of a refund which nobody has
decided.
-/

namespace Agentops

open DurableExecution LabelledRun

section Bodies

/-- Setting the state awaits nothing. -/
theorem awaitsAtMost_setState (state : WorkflowState) : (setState state).AwaitsAtMost 0 := trivial

/-- Nor does returning it. -/
theorem awaitsAtMost_returnState : returnState.AwaitsAtMost 0 := fun _ => trivial

/-- Nor does handling an exception. -/
theorem awaitsAtMost_onException (e : Failure) : (onException e).AwaitsAtMost 0 := trivial

/-- An activity is one. -/
theorem awaitsAtMost_executeActivity (a : OrderActivity) :
    (Body.executeActivity a : WorkflowBody a.Reply).AwaitsAtMost 1 :=
  ⟨0, rfl, fun reply => by cases reply <;> trivial⟩

/-- A final state is assigned and returned. -/
theorem awaitsAtMost_finish (state : WorkflowState) :
    (do setState state; returnState : WorkflowBody WorkflowState).AwaitsAtMost 0 :=
  (awaitsAtMost_setState state).bind fun _ => awaitsAtMost_returnState

/-- A cancellation awaits its one activity. -/
theorem CancelOrderWorkflow.awaitsAtMost_run (inp : OrderActionInput) :
    (CancelOrderWorkflow.run inp).AwaitsAtMost 1 :=
  (awaitsAtMost_setState _).bind fun _ =>
    ((awaitsAtMost_executeActivity _).bind fun _ => awaitsAtMost_finish _).tryCatch awaitsAtMost_onException

namespace RefundWorkflow

variable (inp : OrderActionInput) (order : LoadedOrder)

/-- A refund awaits its execution. -/
theorem awaitsAtMost_refund : (refund inp order).AwaitsAtMost 1 :=
  (awaitsAtMost_setState _).bind fun _ =>
    (awaitsAtMost_executeActivity _).bind fun _ => awaitsAtMost_finish _

/-- Whatever the answer, no more than that is awaited. -/
theorem awaitsAtMost_answered (approval : Option ApprovalInput) : (answered inp order approval).AwaitsAtMost 1 := by
  cases approval with
  | none => trivial
  | some approval =>
    simp only [answered]
    split
    · exact (awaitsAtMost_finish _).mono (Nat.zero_le 1)
    · exact awaitsAtMost_refund inp order

/-- Waiting awaits no activity. -/
theorem awaitsAtMost_waitCondition (order : LoadedOrder) :
    (do .waitCondition approvalGiven
        answered inp order (← .get WorkflowObject.approval) : WorkflowBody WorkflowState).AwaitsAtMost 1 :=
  fun self => awaitsAtMost_answered inp order self.approval

/-- Once its order is loaded, a refund awaits its execution, if anything. -/
theorem awaitsAtMost_decide : (decide inp order).AwaitsAtMost 1 := by
  unfold decide
  split
  · exact (awaitsAtMost_finish _).mono (Nat.zero_le 1)
  · split
    · exact (awaitsAtMost_finish _).mono (Nat.zero_le 1)
    · split
      · trivial
      · split
        · exact (awaitsAtMost_setState _).bind fun _ => awaitsAtMost_waitCondition inp order
        · exact awaitsAtMost_refund inp order

/-- A refund awaits the loading and the execution. -/
theorem awaitsAtMost_run : (run inp).AwaitsAtMost 2 := by
  refine Body.AwaitsAtMost.tryCatch (n := 2) (m := 0) ?_ awaitsAtMost_onException
  refine (awaitsAtMost_setState .checkingOrder).bind (m := 2) fun _ => ?_
  exact (awaitsAtMost_executeActivity (.loadRefundOrder inp)).bind (awaitsAtMost_decide inp)

end RefundWorkflow

/-- How many activities a workflow awaits at most. -/
def WorkflowInput.activities : WorkflowInput → ℕ
  | .cancelOrder _ => 1
  | .refund _ => 2

/-- A cancellation awaits one activity, and a refund two. -/
theorem awaitsAtMost_main (input : WorkflowInput) : (orderService.main input).AwaitsAtMost input.activities := by
  cases input with
  | cancelOrder inp => exact CancelOrderWorkflow.awaitsAtMost_run inp
  | refund inp => exact RefundWorkflow.awaitsAtMost_run inp

end Bodies

section Ends

variable {db : Database} {events : List OrderEvent} {s : OrderSystem} {r : OrderRun}

/-- A refund that waits for its approval, and that no approval or denial has reached. -/
structure RefundWorkflow.Undecided (r : OrderRun) : Prop where
  input : ∃ inp, r.input = .refund inp
  state : ∃ amount, r.object.state = .waitingForApproval amount
  unheard : r.messages = []

/-- A run that waits and has handled every message is an undecided refund. -/
theorem undecided_of_idle (hrun : runFrom orderService.step (System.initial db) events = some s) (hr : r ∈ s.runs)
    (hidle : r.Idle) : RefundWorkflow.Undecided r := by
  obtain ⟨hmailbox, condition, next, hstage, hcondition⟩ := hidle
  cases hinput : r.input with
  | cancelOrder inp =>
    cases (CancelOrderWorkflow.kept.holds hrun r hr inp hinput).point with
    | _ => simp_all
  | refund inp =>
    have hinv := RefundWorkflow.kept.holds hrun r hr inp hinput
    cases hinv.point with
    | waiting order hs _ _ _ _ hstate =>
      obtain ⟨rfl, -⟩ := Stage.waiting.inj (hstage.symm.trans hs)
      refine ⟨⟨inp, hinput⟩, ⟨_, hstate⟩, ?_⟩
      have hnone : r.object.approval = none := by simpa [RefundWorkflow.approvalGiven] using hcondition
      have hreceived : r.received = [] := by simpa [hnone, eq_comm] using hinv.approval
      simp [Run.messages, hmailbox, hreceived]
    | _ => simp_all

/-- A run that has ended, and was not closed from outside, shows a terminal status. -/
theorem terminal_of_closed (hrun : runFrom orderService.step (System.initial db) events = some s) (hr : r ∈ s.runs)
    (hclosed : r.stage.isOpen = false) (hnot : r.stage ≠ .expired) : r.object.state.Terminal := by
  cases hinput : r.input with
  | cancelOrder inp =>
    cases (CancelOrderWorkflow.kept.holds hrun r hr inp hinput).point <;>
      simp_all [Stage.isOpen, WorkflowState.Terminal]
  | refund inp =>
    cases (RefundWorkflow.kept.holds hrun r hr inp hinput).point <;>
      simp_all [Stage.isOpen, WorkflowState.Terminal]

/-- What a run costs at most, counted in steps. -/
theorem steps_run (n : ℕ) : Charges.steps.run 3 n = 2 + 6 * n := by
  simp only [Charges.run, Charges.activities, Charges.attempt, Charges.steps]
  omega

/-- And in executions. -/
theorem executions_run (n : ℕ) : Charges.executions.run 3 n = 3 * n := by
  simp only [Charges.run, Charges.activities, Charges.attempt, Charges.executions]
  omega

/-- Whatever is lost, retried and executed late: handling messages apart, a run takes at most eight steps for a
cancellation and fourteen for a refund, with at most three and six executions. And wherever it stands, what is left of
that leads it, by steps of its own in which no attempt is lost, to a terminal status or to the wait of an undecided
refund, unless it was closed from outside. -/
theorem workflows_come_to_an_end (hrun : runFrom orderService.step (System.initial db) events = some s) {i : ℕ}
    (hr : s.runs[i]? = some r) :
    Charges.steps.spent i events ≤ 2 + 6 * r.input.activities ∧
    Charges.executions.spent i events ≤ 3 * r.input.activities ∧
    ∃ (steps : List RunEvent) (s' : OrderSystem) (r' : OrderRun), (∀ e ∈ steps, e.Undisturbed) ∧
      Charges.steps.spent i events + steps.length ≤ 2 + 6 * r.input.activities + r.mailbox.length ∧
      runFrom orderService.step s (steps.map (.run i)) = some s' ∧ s'.runs[i]? = some r' ∧
      (r.stage = .expired ∨ r'.stage.isOpen = false ∧ r'.object.state.Terminal ∨ RefundWorkflow.Undecided r') := by
  have hmax : orderService.maximumAttempts ≤ 3 := le_rfl
  obtain ⟨k, hcosts, hsteps⟩ :=
    (Paid.of_run (c := .steps) awaitsAtMost_main (Nat.succ_pos 2) hmax hrun).present i r hr
  obtain ⟨k', -, hexecutions⟩ :=
    (Paid.of_run (c := .executions) awaitsAtMost_main (Nat.succ_pos 2) hmax hrun).present i r hr
  rw [steps_run] at hsteps
  rw [executions_run] at hexecutions
  have hattentive : r.Attentive := Run.kept_attentive.holds hrun r (List.mem_of_getElem? hr)
  obtain ⟨steps, s', r', hundisturbed, hlength, hgoes, hr', hexpired, hend⟩ :=
    hcosts.exists_end (awaitsAtMost_main r.input) (Nat.succ_pos 2) hmax hr hattentive
  have hwhole : runFrom orderService.step (System.initial db) (events ++ steps.map (.run i)) = some s' :=
    (runFrom_append_eq_some _).mpr ⟨s, hrun, hgoes⟩
  refine ⟨by omega, by omega, steps, s', r', hundisturbed, by omega, hgoes, hr', ?_⟩
  by_cases hstage : r.stage = .expired
  · exact .inl hstage
  · rcases hend with hclosed | hidle
    · exact .inr (.inl ⟨hclosed, terminal_of_closed hwhole (List.mem_of_getElem? hr') hclosed (hstage ∘ hexpired)⟩)
    · exact .inr (.inr (undecided_of_idle hwhole (List.mem_of_getElem? hr') hidle))

/-- A cancellation whose first attempt was given up before it was executed. -/
def givenUpOnce : List OrderEvent :=
  [.start "cancel-order-5" (.cancelOrder cancelOrderFive), .run 0 .begin, .run 0 .lose]

/-- That run is still open, and steps of its own lead it to a terminal status. -/
theorem workflows_come_to_an_end_order_five :
    ∃ s r, runFrom orderService.step (System.initial pendingOrder) givenUpOnce = some s ∧ s.runs[0]? = some r ∧
      r.stage.isOpen = true ∧ ∃ (steps : List RunEvent) (s' : OrderSystem) (r' : OrderRun),
        runFrom orderService.step s (steps.map (.run 0)) = some s' ∧ s'.runs[0]? = some r' ∧
        r'.object.state.Terminal := by
  have hcomputed : ∃ s, runFrom orderService.step (System.initial pendingOrder) givenUpOnce = some s ∧
      ∃ r, s.runs[0]? = some r ∧ r.input = .cancelOrder cancelOrderFive ∧ r.stage.isOpen = true :=
    ⟨_, rfl, _, rfl, rfl, rfl⟩
  obtain ⟨s, hrun, r, hr, hinput, hopen⟩ := hcomputed
  obtain ⟨-, -, steps, s', r', -, -, hgoes, hr', hend⟩ := workflows_come_to_an_end hrun hr
  refine ⟨s, r, hrun, hr, hopen, steps, s', r', hgoes, hr', ?_⟩
  rcases hend with hexpired | ⟨-, hterminal⟩ | hundecided
  · exact absurd hopen (by simp [hexpired, Stage.isOpen])
  · exact hterminal
  · obtain ⟨q, hq, hlater⟩ := later_of_run hgoes hr
    obtain rfl := Option.some.inj (hq.symm.trans hr')
    obtain ⟨inp, hrefund⟩ := hundecided.input
    exact absurd (hrefund.symm.trans (hlater.input.trans hinput)) (by simp)

end Ends

end Agentops
