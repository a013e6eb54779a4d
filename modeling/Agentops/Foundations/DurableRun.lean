import Agentops.Foundations.Coroutine
import Mathlib.Data.List.Basic
import Mathlib.Tactic.Common

/-!
# One durable run

A run executes a coroutine whose progress survives crashes. Its activities run outside of it,
in attempts: an attempt may be executed and acknowledged, executed and lost, or lost without
being executed, and an attempt that was given up may still be executed later. A failure is
retried up to a bound, unless its kind forbids that. Messages wait in the run's mailbox and are
handed over in order, several at a time; the whole batch is handled before the coroutine's
condition is looked at again.

`Service.Moves` says what each event can do to a run; everything else about runs is proved by
cases on it.
-/

namespace DurableExecution

/-- How runs are created, executed and retried, what activities do, and what else changes the
database. -/
structure Service (I S M A : Type) (R : A → Type) (F D α X : Type) where
  create : I → S
  main : I → Body S A R F α
  handle : I → M → S → S
  perform : (a : A) → D → Except F (R a) × D
  retryable : F → Bool
  maximumAttempts : ℕ
  attemptLost : F
  outside : X → D → Option D

/-- What the run knows of an attempt. -/
inductive Fate
  | inFlight | acknowledged | lost
  deriving DecidableEq, Repr

/-- One attempt of an activity. -/
structure Attempt (A : Type) (R : A → Type) (F D : Type) where
  activity : A
  number : ℕ
  fate : Fate
  record : Option (Record D F (R activity))

/-- A message on its way, with the run that was open under its workflow id when it was sent and
the state of that run's object. -/
structure Envelope (S M : Type) where
  workflowId : String
  message : M
  addressee : Option (ℕ × S)

structure Run (I S M A : Type) (R : A → Type) (F D α : Type) where
  workflowId : String
  input : I
  object : S
  stage : Stage S A R F D α
  past : List (Attempt A R F D)
  mailbox : List (Envelope S M)
  received : List (Envelope S M)

/-- What can happen to a run. -/
inductive RunEvent
  | begin
  | activate (count : ℕ)
  | execute
  | executeLate (k : ℕ)
  | report
  | lose
  | expire
  deriving DecidableEq, Repr

variable {I S M A : Type} {R : A → Type} {F D α X : Type}

/-- The attempt that is in flight. -/
def Stage.current : Stage S A R F D α → List (Attempt A R F D)
  | .awaiting a _ number record => [⟨a, number, .inFlight, record⟩]
  | _ => []

/-- A stage from which the coroutine can go on. -/
def Stage.isOpen : Stage S A R F D α → Bool
  | .fresh | .awaiting _ _ _ _ | .waiting _ _ => true
  | .returned _ | .raised _ | .expired => false

/-- The value a run has returned. -/
def Stage.result? : Stage S A R F D α → Option α
  | .returned value => some value
  | _ => none

/-- The failure with which a run has ended. -/
def Stage.failure? : Stage S A R F D α → Option F
  | .raised e => some e
  | _ => none

/-- The failure is that of a run that has raised it. -/
theorem Stage.failure?_eq_some {stage : Stage S A R F D α} {e : F} :
    stage.failure? = some e ↔ stage = .raised e := by
  cases stage <;> simp [failure?]

/-- The value is that of a run that has returned it. -/
theorem Stage.result?_eq_some {stage : Stage S A R F D α} {value : α} :
    stage.result? = some value ↔ stage = .returned value := by
  cases stage <;> simp [result?]

namespace Run

/-- A run that has not begun. -/
def start (P : Service I S M A R F D α X) (workflowId : String) (input : I) : Run I S M A R F D α where
  workflowId := workflowId
  input := input
  object := P.create input
  stage := .fresh
  past := []
  mailbox := []
  received := []

/-- Every attempt of the run. -/
def attempts (r : Run I S M A R F D α) : List (Attempt A R F D) := r.past ++ r.stage.current

/-- A message reaches the run. -/
def receive (e : Envelope S M) (r : Run I S M A R F D α) : Run I S M A R F D α :=
  { r with mailbox := r.mailbox ++ [e] }

/-- The coroutine has been driven to a stage. -/
def arrive (out : S × Stage S A R F D α) (r : Run I S M A R F D α) : Run I S M A R F D α :=
  { r with object := out.1, stage := out.2 }

/-- The coroutine goes on with a body. -/
def resume (b : Body S A R F α) (r : Run I S M A R F D α) : Run I S M A R F D α :=
  r.arrive (b.drive r.object)

/-- The first messages of the mailbox are handled. -/
def handleBatch (P : Service I S M A R F D α X) (count : ℕ) (r : Run I S M A R F D α) :
    Run I S M A R F D α :=
  let batch := r.mailbox.take count
  { r with
    object := batch.foldl (fun s e => P.handle r.input e.message s) r.object
    mailbox := r.mailbox.drop count
    received := r.received ++ batch }

/-- The attempt in flight is over. -/
def retire (t : Attempt A R F D) (r : Run I S M A R F D α) : Run I S M A R F D α :=
  { r with past := r.past ++ [t] }

/-- The next attempt of the awaited activity is in flight. -/
def await (a : A) (next : Except F (R a) → Body S A R F α) (number : ℕ)
    (record : Option (Record D F (R a))) (r : Run I S M A R F D α) : Run I S M A R F D α :=
  { r with stage := .awaiting a next number record }

/-- An attempt that was given up is executed after all. -/
def executed (k : ℕ) (t : Attempt A R F D) (r : Run I S M A R F D α) : Run I S M A R F D α :=
  { r with past := r.past.set k t }

/-- The run is closed from outside. -/
def expired (r : Run I S M A R F D α) : Run I S M A R F D α := { r with stage := .expired }

end Run

namespace Service

variable (P : Service I S M A R F D α X)

/-- What executing an activity leaves behind. -/
def record (a : A) (d : D) : Record D F (R a) := ⟨d, (P.perform a d).1, (P.perform a d).2⟩

/-- One event of a run, with the database it finds and leaves. -/
def stepRun (d : D) (r : Run I S M A R F D α) : RunEvent → Option (D × Run I S M A R F D α)
  | .begin =>
    match r.stage with
    | .fresh => some (d, r.resume (P.main r.input))
    | _ => none
  | .activate count =>
    if 0 < count ∧ count ≤ r.mailbox.length then
      match r.stage with
      | .fresh | .awaiting _ _ _ _ => some (d, r.handleBatch P count)
      | .waiting condition next => some (d, (r.handleBatch P count).resume (.wait condition next))
      | _ => none
    else none
  | .execute =>
    match r.stage with
    | .awaiting a next number none =>
      some ((P.perform a d).2, r.await a next number (some (P.record a d)))
    | _ => none
  | .executeLate k =>
    match r.past[k]? with
    | some ⟨a, number, .lost, none⟩ =>
      some ((P.perform a d).2, r.executed k ⟨a, number, .lost, some (P.record a d)⟩)
    | _ => none
  | .report =>
    match r.stage with
    | .awaiting a next number (some record) =>
      let retired := r.retire ⟨a, number, .acknowledged, some record⟩
      match record.reply with
      | .ok reply => some (d, retired.resume (next (.ok reply)))
      | .error e =>
        if P.retryable e ∧ number < P.maximumAttempts then some (d, retired.await a next (number + 1) none)
        else some (d, retired.resume (next (.error e)))
    | _ => none
  | .lose =>
    match r.stage with
    | .awaiting a next number record =>
      let retired := r.retire ⟨a, number, .lost, record⟩
      if number < P.maximumAttempts then some (d, retired.await a next (number + 1) none)
      else some (d, retired.resume (next (.error P.attemptLost)))
    | _ => none
  | .expire =>
    match r.stage with
    | .fresh | .waiting _ _ => some (d, r.expired)
    | .awaiting a _ number record => some (d, (r.retire ⟨a, number, .lost, record⟩).expired)
    | _ => none

/-- The failure with which an attempt ends: reported, or the loss itself. -/
inductive EndsIn (P : Service I S M A R F D α X) (t : Attempt A R F D) : F → Prop
  | reported (e : F) (record : Record D F (R t.activity)) (hfate : t.fate = .acknowledged)
      (hrecord : t.record = some record) (hreply : record.reply = .error e) : EndsIn P t e
  | lost (hfate : t.fate = .lost) : EndsIn P t P.attemptLost

/-- What each event does to the database and the run. -/
inductive Moves (d : D) (r : Run I S M A R F D α) : RunEvent → D → Run I S M A R F D α → Prop
  | begun (h : r.stage = .fresh) : Moves d r .begin d (r.resume (P.main r.input))
  | handled (count : ℕ) (h : r.stage = .fresh ∨ ∃ a next number record,
        r.stage = .awaiting a next number record) :
      Moves d r (.activate count) d (r.handleBatch P count)
  | woken (count : ℕ) (condition : S → Bool) (next : Body S A R F α)
      (h : r.stage = .waiting condition next) (hcount : 0 < count ∧ count ≤ r.mailbox.length) :
      Moves d r (.activate count) d ((r.handleBatch P count).resume (.wait condition next))
  | executed (a : A) (next : Except F (R a) → Body S A R F α) (number : ℕ)
      (h : r.stage = .awaiting a next number none) :
      Moves d r .execute (P.perform a d).2 (r.await a next number (some (P.record a d)))
  | executedLate (k : ℕ) (a : A) (number : ℕ) (h : r.past[k]? = some ⟨a, number, .lost, none⟩) :
      Moves d r (.executeLate k) (P.perform a d).2
        (r.executed k ⟨a, number, .lost, some (P.record a d)⟩)
  | answered (a : A) (next : Except F (R a) → Body S A R F α) (number : ℕ)
      (record : Record D F (R a)) (reply : R a) (h : r.stage = .awaiting a next number (some record))
      (hreply : record.reply = .ok reply) :
      Moves d r .report d
        ((r.retire ⟨a, number, .acknowledged, some record⟩).resume (next (.ok reply)))
  | retried (e : RunEvent) (a : A) (next : Except F (R a) → Body S A R F α) (number : ℕ)
      (record : Option (Record D F (R a))) (fate : Fate) (f : F)
      (h : r.stage = .awaiting a next number record) (hend : P.EndsIn ⟨a, number, fate, record⟩ f)
      (he : e = .report ∨ e = .lose) (hmore : number < P.maximumAttempts) :
      Moves d r e d ((r.retire ⟨a, number, fate, record⟩).await a next (number + 1) none)
  | failed (e : RunEvent) (a : A) (next : Except F (R a) → Body S A R F α) (number : ℕ)
      (record : Option (Record D F (R a))) (fate : Fate) (f : F)
      (h : r.stage = .awaiting a next number record) (hend : P.EndsIn ⟨a, number, fate, record⟩ f)
      (he : e = .report ∨ e = .lose) :
      Moves d r e d ((r.retire ⟨a, number, fate, record⟩).resume (next (.error f)))
  | expired (h : r.stage = .fresh ∨ ∃ condition next, r.stage = .waiting condition next) :
      Moves d r .expire d r.expired
  | expiredAwaiting (a : A) (next : Except F (R a) → Body S A R F α) (number : ℕ)
      (record : Option (Record D F (R a))) (h : r.stage = .awaiting a next number record) :
      Moves d r .expire d (r.retire ⟨a, number, .lost, record⟩).expired

/-- The same service in other surroundings. -/
def amid {Y : Type} (outside : Y → D → Option D) : Service I S M A R F D α Y where
  create := P.create
  main := P.main
  handle := P.handle
  perform := P.perform
  retryable := P.retryable
  maximumAttempts := P.maximumAttempts
  attemptLost := P.attemptLost
  outside := outside

section Amid

variable {P} {Y : Type} {outside : Y → D → Option D}

/-- The surroundings have no part in how an attempt ends. -/
theorem EndsIn.of_amid {t : Attempt A R F D} {f : F} (h : (P.amid outside).EndsIn t f) : P.EndsIn t f := by
  cases h with
  | reported e record hfate hrecord hreply => exact .reported _ record hfate hrecord hreply
  | lost hfate => exact .lost hfate

/-- Nor in what a run does. -/
theorem Moves.of_amid {d d' : D} {r r' : Run I S M A R F D α} {e : RunEvent}
    (h : (P.amid outside).Moves d r e d' r') : P.Moves d r e d' r' := by
  cases h with
  | begun hstage => exact .begun hstage
  | handled count hstage => exact .handled count hstage
  | woken count condition next hstage hcount => exact .woken count condition next hstage hcount
  | executed a next number hstage => exact .executed a next number hstage
  | executedLate k a number hk => exact .executedLate k a number hk
  | answered a next number record reply hstage hreply => exact .answered a next number record reply hstage hreply
  | retried e a next number record fate f hstage hend he hmore =>
    exact .retried e a next number record fate f hstage hend.of_amid he hmore
  | failed e a next number record fate f hstage hend he =>
    exact .failed e a next number record fate f hstage hend.of_amid he
  | expired hstage => exact .expired hstage
  | expiredAwaiting a next number record hstage => exact .expiredAwaiting a next number record hstage

end Amid

section Moves

variable {P} {d d' : D} {r r' : Run I S M A R F D α} {e : RunEvent}

/-- An activation handles messages, and a run that waits goes on after them. -/
theorem Moves.of_activate {count : ℕ} (h : P.stepRun d r (.activate count) = some (d', r')) :
    P.Moves d r (.activate count) d' r' := by
  simp only [stepRun, Option.ite_none_right_eq_some] at h
  obtain ⟨hcount, h⟩ := h
  cases hstage : r.stage with
  | fresh =>
    simp only [hstage, Option.some.injEq, Prod.mk.injEq] at h
    obtain ⟨rfl, rfl⟩ := h
    exact .handled count (.inl hstage)
  | awaiting a next number record =>
    simp only [hstage, Option.some.injEq, Prod.mk.injEq] at h
    obtain ⟨rfl, rfl⟩ := h
    exact .handled count (.inr ⟨a, next, number, record, hstage⟩)
  | waiting condition next =>
    simp only [hstage, Option.some.injEq, Prod.mk.injEq] at h
    obtain ⟨rfl, rfl⟩ := h
    exact .woken count condition next hstage hcount
  | _ => simp [hstage] at h

/-- An attempt that was not executed is executed. -/
theorem Moves.of_execute (h : P.stepRun d r .execute = some (d', r')) : P.Moves d r .execute d' r' := by
  cases hstage : r.stage with
  | awaiting a next number record =>
    cases record with
    | none =>
      simp only [stepRun, hstage, Option.some.injEq, Prod.mk.injEq] at h
      obtain ⟨rfl, rfl⟩ := h
      exact .executed a next number hstage
    | some record => simp [stepRun, hstage] at h
  | _ => simp [stepRun, hstage] at h

/-- A report is a reply, or a failure after which the activity is tried again or has failed. -/
theorem Moves.of_report (h : P.stepRun d r .report = some (d', r')) : P.Moves d r .report d' r' := by
  cases hstage : r.stage with
  | awaiting a next number record =>
    cases record with
    | none => simp [stepRun, hstage] at h
    | some record =>
      cases hreply : record.reply with
      | ok reply =>
        simp only [stepRun, hstage, hreply, Option.some.injEq, Prod.mk.injEq] at h
        obtain ⟨rfl, rfl⟩ := h
        exact .answered a next number record reply hstage hreply
      | error f =>
        have hend : P.EndsIn ⟨a, number, .acknowledged, some record⟩ f := .reported f record rfl rfl hreply
        simp only [stepRun, hstage, hreply] at h
        by_cases hretry : P.retryable f ∧ number < P.maximumAttempts
        · rw [if_pos hretry] at h
          obtain ⟨rfl, rfl⟩ := Prod.mk.inj (Option.some.inj h)
          exact .retried _ a next number _ _ f hstage hend (.inl rfl) hretry.2
        · rw [if_neg hretry] at h
          obtain ⟨rfl, rfl⟩ := Prod.mk.inj (Option.some.inj h)
          exact .failed _ a next number _ _ f hstage hend (.inl rfl)
  | _ => simp [stepRun, hstage] at h

/-- A lost attempt is followed by another one, or is the failure of the activity. -/
theorem Moves.of_lose (h : P.stepRun d r .lose = some (d', r')) : P.Moves d r .lose d' r' := by
  cases hstage : r.stage with
  | awaiting a next number record =>
    have hend : P.EndsIn ⟨a, number, .lost, record⟩ P.attemptLost := .lost rfl
    simp only [stepRun, hstage] at h
    by_cases hmore : number < P.maximumAttempts
    · rw [if_pos hmore] at h
      obtain ⟨rfl, rfl⟩ := Prod.mk.inj (Option.some.inj h)
      exact .retried _ a next number _ _ _ hstage hend (.inr rfl) hmore
    · rw [if_neg hmore] at h
      obtain ⟨rfl, rfl⟩ := Prod.mk.inj (Option.some.inj h)
      exact .failed _ a next number _ _ _ hstage hend (.inr rfl)
  | _ => simp [stepRun, hstage] at h

/-- An open run is closed from outside, and an attempt in flight is given up. -/
theorem Moves.of_expire (h : P.stepRun d r .expire = some (d', r')) : P.Moves d r .expire d' r' := by
  cases hstage : r.stage with
  | fresh =>
    simp only [stepRun, hstage, Option.some.injEq, Prod.mk.injEq] at h
    obtain ⟨rfl, rfl⟩ := h
    exact .expired (.inl hstage)
  | waiting condition next =>
    simp only [stepRun, hstage, Option.some.injEq, Prod.mk.injEq] at h
    obtain ⟨rfl, rfl⟩ := h
    exact .expired (.inr ⟨condition, next, hstage⟩)
  | awaiting a next number record =>
    simp only [stepRun, hstage, Option.some.injEq, Prod.mk.injEq] at h
    obtain ⟨rfl, rfl⟩ := h
    exact .expiredAwaiting a next number record hstage
  | _ => simp [stepRun, hstage] at h

end Moves

/-- Every event of a run is one of these moves. -/
theorem stepRun_moves {d d' : D} {r r' : Run I S M A R F D α} {e : RunEvent}
    (h : P.stepRun d r e = some (d', r')) : P.Moves d r e d' r' := by
  cases e with
  | begin =>
    cases hstage : r.stage with
    | fresh =>
      simp only [stepRun, hstage, Option.some.injEq, Prod.mk.injEq] at h
      obtain ⟨rfl, rfl⟩ := h
      exact .begun hstage
    | _ => simp [stepRun, hstage] at h
  | activate count => exact .of_activate h
  | execute => exact .of_execute h
  | executeLate k =>
    simp only [stepRun] at h
    split at h
    case h_1 a number hpast =>
      obtain ⟨rfl, rfl⟩ := Prod.mk.inj (Option.some.inj h)
      exact .executedLate k a number hpast
    case h_2 => cases h
  | report => exact .of_report h
  | lose => exact .of_lose h
  | expire => exact .of_expire h

end Service

section Executions

/-- The activity of an attempt with its record. -/
def Attempt.work (t : Attempt A R F D) : (a : A) × Option (Record D F (R a)) := ⟨t.activity, t.record⟩

/-- An attempt that did something has a record. -/
theorem Attempt.record_ne_none {t : Attempt A R F D} {a : A} {record : Record D F (R a)}
    (h : t.work = ⟨a, some record⟩) : t.record ≠ none := by
  intro hnone
  simp only [work, hnone, Sigma.mk.injEq] at h
  obtain ⟨rfl, hrecord⟩ := h
  exact absurd (eq_of_heq hrecord) (by simp)

/-- The run has executed an activity with this record, whether or not it ever heard of it. -/
def Run.Did (r : Run I S M A R F D α) (a : A) (record : Record D F (R a)) : Prop :=
  ∃ t ∈ r.attempts, t.work = ⟨a, some record⟩

/-- The attempt that a driven body has just begun is not executed yet. -/
theorem record_of_mem_current_drive (b : Body S A R F α) (s : S) :
    ∀ t ∈ ((b.drive (D := D) s).2).current, t.record = none := by
  induction b generalizing s with
  | returned value => simp [Body.drive, Stage.current]
  | raised e => simp [Body.drive, Stage.current]
  | update change next ih => exact ih (change s)
  | read next ih => exact ih s s
  | activity a next _ => simp [Body.drive, Stage.current]
  | wait condition next ih =>
    unfold Body.drive
    split
    · exact ih s
    · simp [Stage.current]

/-- Going on with a body executes nothing. -/
theorem Run.did_resume {r : Run I S M A R F D α} {b : Body S A R F α} {a : A}
    {record : Record D F (R a)} (h : (r.resume b).Did a record) :
    ∃ t ∈ r.past, t.work = ⟨a, some record⟩ := by
  obtain ⟨t, ht, hwork⟩ := h
  rcases List.mem_append.mp ht with hpast | hcurrent
  · exact ⟨t, hpast, hwork⟩
  · exact absurd (record_of_mem_current_drive b r.object t hcurrent) (Attempt.record_ne_none hwork)

/-- An attempt that is over was an attempt before. -/
theorem Run.did_of_retire {r : Run I S M A R F D α} {a a' : A} {number : ℕ} {fate : Fate}
    {next : Except F (R a) → Body S A R F α} {record : Option (Record D F (R a))}
    {record' : Record D F (R a')} (h : r.stage = .awaiting a next number record)
    {t : Attempt A R F D} (ht : t ∈ r.past ++ [⟨a, number, fate, record⟩])
    (hwork : t.work = ⟨a', some record'⟩) : r.Did a' record' := by
  rcases List.mem_append.mp ht with hpast | hover
  · exact ⟨t, List.mem_append_left _ hpast, hwork⟩
  · obtain rfl := List.mem_singleton.mp hover
    refine ⟨⟨a, number, .inFlight, record⟩, List.mem_append_right _ ?_, hwork⟩
    simp [h, Stage.current]

/-- What a run has executed after a move it had executed before, or executed in this move. -/
theorem Service.Moves.did {P : Service I S M A R F D α X} {d d' : D} {r r' : Run I S M A R F D α}
    {e : RunEvent} (h : P.Moves d r e d' r') {a : A} {record : Record D F (R a)}
    (hdid : r'.Did a record) :
    r.Did a record ∨ record = P.record a d ∧ d' = record.after := by
  cases h with
  | begun _ =>
    obtain ⟨t, ht, hwork⟩ := Run.did_resume hdid
    exact .inl ⟨t, List.mem_append_left _ ht, hwork⟩
  | handled count _ => exact .inl hdid
  | woken count condition next _ _ =>
    obtain ⟨t, ht, hwork⟩ := Run.did_resume hdid
    exact .inl ⟨t, List.mem_append_left _ ht, hwork⟩
  | executed b next number _ =>
    obtain ⟨t, ht, hwork⟩ := hdid
    rcases List.mem_append.mp ht with hpast | hcurrent
    · exact .inl ⟨t, List.mem_append_left _ hpast, hwork⟩
    · obtain rfl := List.mem_singleton.mp hcurrent
      simp only [Attempt.work, Sigma.mk.injEq] at hwork
      obtain ⟨rfl, hrecord⟩ := hwork
      obtain rfl := Option.some.inj (eq_of_heq hrecord)
      exact .inr ⟨rfl, rfl⟩
  | executedLate k b number hk =>
    obtain ⟨t, ht, hwork⟩ := hdid
    rcases List.mem_append.mp ht with hpast | hcurrent
    · rcases List.mem_or_eq_of_mem_set hpast with hold | rfl
      · exact .inl ⟨t, List.mem_append_left _ hold, hwork⟩
      · simp only [Attempt.work, Sigma.mk.injEq] at hwork
        obtain ⟨rfl, hrecord⟩ := hwork
        obtain rfl := Option.some.inj (eq_of_heq hrecord)
        exact .inr ⟨rfl, rfl⟩
    · exact .inl ⟨t, List.mem_append_right _ hcurrent, hwork⟩
  | answered b next number rec reply hstage _ =>
    obtain ⟨t, ht, hwork⟩ := Run.did_resume hdid
    exact .inl (Run.did_of_retire hstage ht hwork)
  | retried e b next number rec fate f hstage _ _ =>
    obtain ⟨t, ht, hwork⟩ := hdid
    rcases List.mem_append.mp ht with hpast | hcurrent
    · exact .inl (Run.did_of_retire hstage hpast hwork)
    · obtain rfl := List.mem_singleton.mp hcurrent
      exact absurd rfl (Attempt.record_ne_none hwork)
  | failed e b next number rec fate f hstage _ _ =>
    obtain ⟨t, ht, hwork⟩ := Run.did_resume hdid
    exact .inl (Run.did_of_retire hstage ht hwork)
  | expired _ =>
    obtain ⟨t, ht, hwork⟩ := hdid
    rcases List.mem_append.mp ht with hpast | hcurrent
    · exact .inl ⟨t, List.mem_append_left _ hpast, hwork⟩
    · simp [Run.expired, Stage.current] at hcurrent
  | expiredAwaiting b next number rec hstage =>
    obtain ⟨t, ht, hwork⟩ := hdid
    rcases List.mem_append.mp ht with hpast | hcurrent
    · exact .inl (Run.did_of_retire hstage hpast hwork)
    · simp [Run.expired, Stage.current] at hcurrent

end Executions

section Answers

/-- The run has been told of an attempt of the activity with this record. -/
def Run.Acknowledged (r : Run I S M A R F D α) (a : A) (record : Record D F (R a)) : Prop :=
  ∃ t ∈ r.past, t.fate = .acknowledged ∧ t.work = ⟨a, some record⟩

/-- The run has been given this reply to the activity. -/
def Run.Answered (r : Run I S M A R F D α) (a : A) (reply : R a) : Prop :=
  ∃ record, r.Acknowledged a record ∧ record.reply = .ok reply

/-- An attempt of the activity is over. -/
def Run.TriedBefore (r : Run I S M A R F D α) (a : A) : Prop := ∃ t ∈ r.past, t.activity = a

namespace Run

variable {r : Run I S M A R F D α} {a b : A} {reply : R a}

theorem Acknowledged.did {record : Record D F (R a)} (h : r.Acknowledged a record) : r.Did a record :=
  have ⟨t, ht, _, hwork⟩ := h
  ⟨t, List.mem_append_left _ ht, hwork⟩

@[simp] theorem answered_resume (b : Body S A R F α) :
    (r.resume b).Answered a reply ↔ r.Answered a reply := Iff.rfl

/-- A run that has not begun has been given no reply. -/
@[simp] theorem not_answered_start (P : Service I S M A R F D α X) (workflowId : String) (input : I) :
    ¬ (start P workflowId input).Answered a reply := by
  rintro ⟨record, ⟨t, ht, -⟩, -⟩
  simp [start] at ht

/-- What the run is told when an attempt is over. -/
theorem acknowledged_retire {t : Attempt A R F D} {record : Record D F (R a)} :
    (r.retire t).Acknowledged a record ↔
      r.Acknowledged a record ∨ t.fate = .acknowledged ∧ t.work = ⟨a, some record⟩ := by
  simp [Acknowledged, retire, or_and_right, exists_or]

/-- A failed attempt gives no reply. -/
theorem answered_retire_of_endsIn {P : Service I S M A R F D α X} {t : Attempt A R F D} {f : F}
    (h : P.EndsIn t f) : (r.retire t).Answered a reply ↔ r.Answered a reply := by
  constructor
  · rintro ⟨record, hack, hreply⟩
    rcases acknowledged_retire.mp hack with hold | ⟨hfate, hwork⟩
    · exact ⟨record, hold, hreply⟩
    · obtain ⟨ta, number, fate, tr⟩ := t
      cases h with
      | reported e record' _ hrecord' hreply' =>
        simp only [Attempt.work, Sigma.mk.injEq] at hwork hrecord'
        obtain ⟨rfl, hrecord⟩ := hwork
        obtain rfl := Option.some.inj (hrecord'.symm.trans (eq_of_heq hrecord))
        exact absurd (hreply'.symm.trans hreply) (by simp)
      | lost hlost => exact absurd (hfate.symm.trans hlost) (by simp)
  · rintro ⟨record, hack, hreply⟩
    exact ⟨record, acknowledged_retire.mpr (.inl hack), hreply⟩

/-- An acknowledged attempt gives its reply. -/
theorem answered_retire_ok {number : ℕ} {record : Record D F (R b)} {answer : R b}
    (h : record.reply = .ok answer) :
    (r.retire ⟨b, number, .acknowledged, some record⟩).Answered a reply ↔
      r.Answered a reply ∨ (⟨a, reply⟩ : Sigma R) = ⟨b, answer⟩ := by
  constructor
  · rintro ⟨record', hack, hreply⟩
    rcases acknowledged_retire.mp hack with hold | ⟨-, hwork⟩
    · exact .inl ⟨record', hold, hreply⟩
    · simp only [Attempt.work, Sigma.mk.injEq] at hwork
      obtain ⟨rfl, hrecord⟩ := hwork
      obtain rfl := Option.some.inj (eq_of_heq hrecord)
      obtain rfl := Except.ok.inj (h.symm.trans hreply)
      exact .inr rfl
  · rintro (⟨record', hack, hreply⟩ | heq)
    · exact ⟨record', acknowledged_retire.mpr (.inl hack), hreply⟩
    · cases heq
      exact ⟨record, acknowledged_retire.mpr (.inr ⟨rfl, rfl⟩), h⟩

/-- A late execution is not heard of. -/
theorem answered_executed {k number : ℕ} {record : Option (Record D F (R b))}
    (hk : r.past[k]? = some ⟨b, number, .lost, none⟩) :
    (r.executed k ⟨b, number, .lost, record⟩).Answered a reply ↔ r.Answered a reply := by
  have hmem : ∀ t : Attempt A R F D, t.fate = .acknowledged →
      (t ∈ r.past.set k ⟨b, number, .lost, record⟩ ↔ t ∈ r.past) := by
    intro t hfate
    constructor
    · intro ht
      rcases List.mem_or_eq_of_mem_set ht with hold | rfl
      · exact hold
      · exact absurd hfate (by simp)
    · intro ht
      obtain ⟨j, hj⟩ := List.mem_iff_getElem?.mp ht
      have hne : k ≠ j := by
        rintro rfl
        rw [hk] at hj
        obtain rfl := Option.some.inj hj
        exact absurd hfate (by simp)
      exact List.mem_iff_getElem?.mpr ⟨j, by rw [List.getElem?_set_ne hne]; exact hj⟩
  constructor
  · rintro ⟨record', ⟨t, ht, hfate, hwork⟩, hreply⟩
    exact ⟨record', ⟨t, (hmem t hfate).mp ht, hfate, hwork⟩, hreply⟩
  · rintro ⟨record', ⟨t, ht, hfate, hwork⟩, hreply⟩
    exact ⟨record', ⟨t, (hmem t hfate).mpr ht, hfate, hwork⟩, hreply⟩

/-- Which activities have been tried when an attempt is over. -/
@[simp] theorem triedBefore_retire {t : Attempt A R F D} :
    (r.retire t).TriedBefore a ↔ r.TriedBefore a ∨ t.activity = a := by
  simp [TriedBefore, retire, or_and_right, exists_or]

/-- A late execution tries nothing new. -/
theorem triedBefore_executed {k number : ℕ} {record : Option (Record D F (R b))}
    (hk : r.past[k]? = some ⟨b, number, .lost, none⟩)
    (h : (r.executed k ⟨b, number, .lost, record⟩).TriedBefore a) : r.TriedBefore a := by
  obtain ⟨t, ht, hactivity⟩ := h
  rcases List.mem_or_eq_of_mem_set ht with hold | rfl
  · exact ⟨t, hold, hactivity⟩
  · exact ⟨_, List.mem_of_getElem? hk, hactivity⟩

@[simp] theorem not_triedBefore_start (P : Service I S M A R F D α X) (workflowId : String) (input : I) :
    ¬ (start P workflowId input).TriedBefore a := by
  rintro ⟨t, ht, -⟩
  simp [start] at ht

end Run

end Answers

section Later

/-- The second run is the first at a later time. A closed run keeps its object and its end. -/
structure Run.Later (r r' : Run I S M A R F D α) : Prop where
  workflowId : r'.workflowId = r.workflowId
  input : r'.input = r.input
  received : r.received <+: r'.received
  closed : r.stage.isOpen = false → r'.object = r.object ∧ r'.stage = r.stage

theorem Run.Later.refl (r : Run I S M A R F D α) : r.Later r :=
  ⟨rfl, rfl, List.prefix_refl _, fun _ => ⟨rfl, rfl⟩⟩

theorem Run.Later.trans {r r' r'' : Run I S M A R F D α} (h : r.Later r') (h' : r'.Later r'') :
    r.Later r'' where
  workflowId := h'.workflowId.trans h.workflowId
  input := h'.input.trans h.input
  received := h.received.trans h'.received
  closed hclosed := by
    obtain ⟨hobject, hstage⟩ := h.closed hclosed
    obtain ⟨hobject', hstage'⟩ := h'.closed (hstage ▸ hclosed)
    exact ⟨hobject'.trans hobject, hstage'.trans hstage⟩

/-- Every move of a run leads to a later one. -/
theorem Service.Moves.later {P : Service I S M A R F D α X} {d d' : D} {r r' : Run I S M A R F D α}
    {e : RunEvent} (h : P.Moves d r e d' r') : r.Later r' := by
  cases h with
  | begun hstage =>
    exact ⟨rfl, rfl, List.prefix_refl _, fun hclosed => by simp [hstage, Stage.isOpen] at hclosed⟩
  | handled count hstage =>
    refine ⟨rfl, rfl, List.prefix_append _ _, fun hclosed => ?_⟩
    rcases hstage with hstage | ⟨_, _, _, _, hstage⟩
    · simp [hstage, Stage.isOpen] at hclosed
    · simp [hstage, Stage.isOpen] at hclosed
  | woken count condition next hstage _ =>
    exact ⟨rfl, rfl, List.prefix_append _ _, fun hclosed => by simp [hstage, Stage.isOpen] at hclosed⟩
  | executed a next number hstage =>
    exact ⟨rfl, rfl, List.prefix_refl _, fun hclosed => by simp [hstage, Stage.isOpen] at hclosed⟩
  | executedLate k a number _ => exact ⟨rfl, rfl, List.prefix_refl _, fun _ => ⟨rfl, rfl⟩⟩
  | answered a next number record reply hstage _ =>
    exact ⟨rfl, rfl, List.prefix_refl _, fun hclosed => by simp [hstage, Stage.isOpen] at hclosed⟩
  | retried e a next number record fate f hstage _ _ =>
    exact ⟨rfl, rfl, List.prefix_refl _, fun hclosed => by simp [hstage, Stage.isOpen] at hclosed⟩
  | failed e a next number record fate f hstage _ _ =>
    exact ⟨rfl, rfl, List.prefix_refl _, fun hclosed => by simp [hstage, Stage.isOpen] at hclosed⟩
  | expired hstage =>
    refine ⟨rfl, rfl, List.prefix_refl _, fun hclosed => ?_⟩
    rcases hstage with hstage | ⟨_, _, hstage⟩
    · simp [hstage, Stage.isOpen] at hclosed
    · simp [hstage, Stage.isOpen] at hclosed
  | expiredAwaiting a next number record hstage =>
    exact ⟨rfl, rfl, List.prefix_refl _, fun hclosed => by simp [hstage, Stage.isOpen] at hclosed⟩

end Later

section Messages

/-- Every message that has reached the run, handled or not. -/
def Run.messages (r : Run I S M A R F D α) : List (Envelope S M) := r.received ++ r.mailbox

/-- No move of a run invents or forgets a message. -/
theorem Service.Moves.messages {P : Service I S M A R F D α X} {d d' : D}
    {r r' : Run I S M A R F D α} {e : RunEvent} (h : P.Moves d r e d' r') :
    r'.messages = r.messages := by
  cases h with
  | handled count _ => simp [Run.messages, Run.handleBatch]
  | woken count condition next _ _ =>
    simp [Run.messages, Run.handleBatch, Run.resume, Run.arrive]
  | _ => rfl

end Messages

section Objects

/-- Everything the service does to an object lies in a relation. -/
structure Service.Within (P : Service I S M A R F D α X) (rel : S → S → Prop) : Prop where
  main : ∀ input, (P.main input).Within rel
  handle : ∀ input message s, rel s (P.handle input message s)

variable {P : Service I S M A R F D α X} {rel : S → S → Prop} [IsPreorder S rel]

/-- Going on with a body takes the object upwards. -/
theorem Run.resume_within {b : Body S A R F α} (hb : b.Within rel) (r : Run I S M A R F D α) :
    rel r.object (r.resume b).object ∧ (r.resume b).stage.Within rel :=
  hb.drive r.object

/-- Handling messages takes the object upwards. -/
theorem Service.Within.handleBatch (hP : P.Within rel) (count : ℕ) (r : Run I S M A R F D α) :
    rel r.object (r.handleBatch P count).object := by
  have hfold : ∀ (batch : List (Envelope S M)) (s : S),
      rel s (batch.foldl (fun s e => P.handle r.input e.message s) s) := by
    intro batch
    induction batch with
    | nil => exact fun s => refl s
    | cons e batch ih => exact fun s => trans_of rel (hP.handle r.input e.message s) (ih _)
  exact hfold _ r.object

/-- Every move of a run takes its object upwards. -/
theorem Service.Moves.object (hP : P.Within rel) {d d' : D} {r r' : Run I S M A R F D α}
    {e : RunEvent} (h : P.Moves d r e d' r') (hr : r.stage.Within rel) :
    rel r.object r'.object ∧ r'.stage.Within rel := by
  cases h with
  | begun _ => exact r.resume_within (hP.main r.input)
  | handled count _ => exact ⟨hP.handleBatch count r, hr⟩
  | woken count condition next hstage _ =>
    rw [hstage] at hr
    obtain ⟨hrel, hstage'⟩ := (r.handleBatch P count).resume_within (b := .wait condition next) hr
    exact ⟨trans_of rel (hP.handleBatch count r) hrel, hstage'⟩
  | executed a next number hstage =>
    rw [hstage] at hr
    exact ⟨refl r.object, hr⟩
  | executedLate k a number _ => exact ⟨refl r.object, hr⟩
  | answered a next number record reply hstage _ =>
    rw [hstage] at hr
    exact (r.retire ⟨a, number, .acknowledged, some record⟩).resume_within (hr (.ok reply))
  | retried e a next number record fate f hstage _ _ =>
    rw [hstage] at hr
    exact ⟨refl r.object, hr⟩
  | failed e a next number record fate f hstage _ _ =>
    rw [hstage] at hr
    exact (r.retire ⟨a, number, fate, record⟩).resume_within (hr (.error f))
  | expired _ => exact ⟨refl r.object, trivial⟩
  | expiredAwaiting a next number record _ => exact ⟨refl r.object, trivial⟩

end Objects

end DurableExecution
