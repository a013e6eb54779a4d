import Agentops.Workflow.Service

/-!
# What every run of the cancel workflow keeps

One activity, awaited once: the run has been given its result exactly when it has completed.
-/

namespace Agentops

open DurableExecution

namespace CancelOrderWorkflow

section Facts

variable (inp : OrderActionInput) (r : OrderRun)

/-- Where the coroutine stands, with what is special there. -/
inductive Point : Prop
  | fresh (hstage : r.stage = .fresh) (hnone : ∀ result, ¬ r.Answered (.cancelOrder inp) result)
      (hstate : r.object.state = .started)
  | cancelling (number : ℕ) (record : Option (Record Database Failure CancellationResult))
      (hstage : r.stage = .awaiting (.cancelOrder inp) afterCancel number record)
      (hnone : ∀ result, ¬ r.Answered (.cancelOrder inp) result) (hstate : r.object.state = .cancelling)
  | completed (result : CancellationResult)
      (hstage : r.stage = .returned (.completed (.cancellation result)))
      (hanswered : ∀ result', r.Answered (.cancelOrder inp) result' ↔ result' = result)
      (hstate : r.object.state = .completed (.cancellation result))
  | failed (e : Failure) (hstage : r.stage = .raised e)
      (hnone : ∀ result, ¬ r.Answered (.cancelOrder inp) result) (hstate : r.object.state = .failed)
  | expired (hstage : r.stage = .expired)

/-- The invariant of a cancel run. -/
structure Invariant : Prop where
  input : r.input = .cancelOrder inp
  tried : ∀ a, r.TriedBefore a → a = .cancelOrder inp
  point : Point inp r

end Facts

variable {inp : OrderActionInput} {r r' : OrderRun}

/-- Nothing is lost when only messages arrive or a late attempt is executed. -/
theorem Invariant.congr (h : Invariant inp r) (hinput : r'.input = r.input)
    (hstage : r'.stage = r.stage) (hobject : r'.object = r.object)
    (hanswered : ∀ result, r'.Answered (.cancelOrder inp) result ↔ r.Answered (.cancelOrder inp) result)
    (htried : ∀ a, r'.TriedBefore a → r.TriedBefore a) : Invariant inp r' := by
  refine ⟨hinput.trans h.input, fun a ha => h.tried a (htried a ha), ?_⟩
  cases h.point with
  | fresh hs hnone hstate =>
    exact .fresh (hstage.trans hs) (fun result ha => hnone result ((hanswered result).mp ha))
      (hobject ▸ hstate)
  | cancelling number record hs hnone hstate =>
    exact .cancelling number record (hstage.trans hs)
      (fun result ha => hnone result ((hanswered result).mp ha)) (hobject ▸ hstate)
  | completed result hs ha hstate =>
    exact .completed result (hstage.trans hs) (fun result' => (hanswered result').trans (ha result'))
      (hobject ▸ hstate)
  | failed e hs hnone hstate =>
    exact .failed e (hstage.trans hs) (fun result ha => hnone result ((hanswered result).mp ha))
      (hobject ▸ hstate)
  | expired hs => exact .expired (hstage.trans hs)

/-- Messages mean nothing to a cancel run. -/
theorem Invariant.handled (h : Invariant inp r) (count : ℕ) :
    Invariant inp (r.handleBatch orderService count) := by
  refine h.congr rfl rfl ?_ (fun _ => Iff.rfl) (fun _ => id)
  have hfold : ∀ (batch : List (Envelope WorkflowObject ApprovalInput)) (self : WorkflowObject),
      batch.foldl (fun s e => orderService.handle r.input e.message s) self = self := by
    intro batch
    rw [h.input]
    induction batch with
    | nil => exact fun _ => rfl
    | cons e batch ih => exact ih
  exact hfold _ r.object

/-- An attempt that is over was one of the cancellation. -/
theorem Invariant.tried_retire (h : Invariant inp r) {number : ℕ} {fate : Fate}
    {record : Option (Record Database Failure CancellationResult)} :
    ∀ a, (r.retire ⟨.cancelOrder inp, number, fate, record⟩).TriedBefore a → a = .cancelOrder inp := by
  intro a ha
  rcases Run.triedBefore_retire.mp ha with hold | hnew
  · exact h.tried a hold
  · exact hnew.symm

/-- Every move keeps the invariant. -/
theorem Invariant.move (h : Invariant inp r) {db db' : Database} {e : RunEvent}
    (hmove : orderService.Moves db r e db' r') : Invariant inp r' := by
  cases hmove with
  | begun hstage =>
    have hmain : orderService.main r.input = run inp := by rw [h.input]; rfl
    have hdrive := drive_run r.object inp
    rw [hmain]
    cases h.point with
    | fresh _ hnone hstate =>
      refine ⟨h.input, h.tried, .cancelling 1 none (congrArg Prod.snd hdrive) hnone ?_⟩
      exact congrArg (fun out => WorkflowObject.state (Prod.fst out)) hdrive
    | _ hs => simp_all
  | handled count _ => exact h.handled count
  | woken count condition next hstage _ =>
    cases h.point with
    | _ hs => simp_all
  | executed a next number hstage =>
    cases h.point with
    | cancelling number' record hs hnone hstate =>
      cases hstage.symm.trans hs
      exact ⟨h.input, h.tried, .cancelling number _ rfl hnone hstate⟩
    | _ hs => simp_all
  | executedLate k a number hk =>
    exact h.congr rfl rfl rfl (fun _ => Run.answered_executed hk) fun _ => Run.triedBefore_executed hk
  | answered a next number record reply hstage hreply =>
    cases h.point with
    | cancelling number' record' hs hnone hstate =>
      cases hstage.symm.trans hs
      refine ⟨h.input, h.tried_retire, .completed reply rfl (fun result' => ?_) rfl⟩
      rw [Run.answered_resume, Run.answered_retire_ok hreply]
      simp [hnone]
    | _ hs => simp_all
  | retried e a next number record fate f hstage hend _ =>
    cases h.point with
    | cancelling number' record' hs hnone hstate =>
      cases hstage.symm.trans hs
      refine ⟨h.input, h.tried_retire, .cancelling (number + 1) none rfl (fun result ha => ?_) hstate⟩
      exact hnone result ((Run.answered_retire_of_endsIn hend).mp ha)
    | _ hs => simp_all
  | failed e a next number record fate f hstage hend _ =>
    cases h.point with
    | cancelling number' record' hs hnone hstate =>
      cases hstage.symm.trans hs
      refine ⟨h.input, h.tried_retire, .failed f rfl (fun result ha => ?_) rfl⟩
      exact hnone result ((Run.answered_retire_of_endsIn hend).mp ha)
    | _ hs => simp_all
  | expired _ => exact ⟨h.input, h.tried, .expired rfl⟩
  | expiredAwaiting a next number record hstage =>
    cases h.point with
    | cancelling number' record' hs hnone hstate =>
      cases hstage.symm.trans hs
      exact ⟨h.input, h.tried_retire, .expired rfl⟩
    | _ hs => simp_all

/-- A run that has not begun. -/
theorem invariant_start (workflowId : String) :
    Invariant inp (Run.start orderService workflowId (.cancelOrder inp)) where
  input := rfl
  tried _ h := absurd h (Run.not_triedBefore_start _ _ _)
  point := .fresh rfl (fun _ => Run.not_answered_start _ _ _) rfl

/-- Every cancel run of the system keeps the invariant. -/
theorem kept : Kept orderService fun r => ∀ inp, r.input = .cancelOrder inp → Invariant inp r where
  start workflowId input inp hinput := by
    obtain rfl : input = .cancelOrder inp := hinput
    exact invariant_start workflowId
  receive r e h inp hinput :=
    (h inp hinput).congr rfl rfl rfl (fun _ => Iff.rfl) fun _ => id
  move db r e db' r' h hmove inp hinput := (h inp (hmove.later.input ▸ hinput)).move hmove

end CancelOrderWorkflow

end Agentops
