import Agentops.Foundations.DurableSystem

/-!
# How long durable runs go on, and that they can go on

A body that awaits a bounded number of activities makes a run with a bounded number of steps, whatever is lost, retried,
given up and executed late. What the steps still to come can cost at most is the run's allowance: every step is paid
from it, and handling messages is free. And an open run that waits for no condition always has a step that needs
nothing to go wrong, so that by steps of its own a run comes to its end, or to a wait that no message can end.
-/

namespace DurableExecution

open LabelledRun

variable {I S M A : Type} {R : A → Type} {F D α β X : Type}

namespace Body

/-- The body awaits at most so many activities. -/
def AwaitsAtMost : Body S A R F α → ℕ → Prop
  | .returned _, _ => True
  | .raised _, _ => True
  | .update _ next, n => next.AwaitsAtMost n
  | .read next, n => ∀ s, (next s).AwaitsAtMost n
  | .activity _ next, n => ∃ k, n = k + 1 ∧ ∀ reply, (next reply).AwaitsAtMost k
  | .wait _ next, n => next.AwaitsAtMost n

/-- And so at most more. -/
theorem AwaitsAtMost.mono {b : Body S A R F α} {n m : ℕ} (h : b.AwaitsAtMost n) (hle : n ≤ m) : b.AwaitsAtMost m := by
  induction b generalizing n m with
  | returned value => trivial
  | raised e => trivial
  | update change next ih => exact ih h hle
  | read next ih => exact fun s => ih s (h s) hle
  | activity a next ih =>
    obtain ⟨k, rfl, hnext⟩ := h
    exact ⟨m - 1, by omega, fun reply => ih reply (hnext reply) (by omega)⟩
  | wait condition next ih => exact ih h hle

/-- A composed body awaits the activities of both parts. -/
theorem AwaitsAtMost.bind {b : Body S A R F α} {f : α → Body S A R F β} {n m : ℕ} (hb : b.AwaitsAtMost n)
    (hf : ∀ a, (f a).AwaitsAtMost m) : (b >>= f).AwaitsAtMost (n + m) := by
  change (Body.bind b f).AwaitsAtMost (n + m)
  induction b generalizing n with
  | returned value => exact (hf value).mono (Nat.le_add_left m n)
  | raised e => trivial
  | update change next ih => exact ih hb
  | read next ih => exact fun s => ih s (hb s)
  | activity a next ih =>
    obtain ⟨k, rfl, hnext⟩ := hb
    exact ⟨k + m, by omega, fun reply => ih reply (hnext reply)⟩
  | wait condition next ih => exact ih hb

/-- A guarded body awaits the activities of the handler as well. -/
theorem AwaitsAtMost.tryCatch {b : Body S A R F α} {handler : F → Body S A R F α} {n m : ℕ} (hb : b.AwaitsAtMost n)
    (hhandler : ∀ e, (handler e).AwaitsAtMost m) : (b.tryCatch handler).AwaitsAtMost (n + m) := by
  induction b generalizing n with
  | returned value => trivial
  | raised e => exact (hhandler e).mono (Nat.le_add_left m n)
  | update change next ih => exact ih hb
  | read next ih => exact fun s => ih s (hb s)
  | activity a next ih =>
    obtain ⟨k, rfl, hnext⟩ := hb
    exact ⟨k + m, by omega, fun reply => ih reply (hnext reply)⟩
  | wait condition next ih => exact ih hb

/-- A driven body waits for a condition only while it does not hold. -/
theorem condition_of_drive (b : Body S A R F α) (s : S) {condition : S → Bool} {next : Body S A R F α}
    (h : (b.drive (D := D) s).2 = .waiting condition next) : condition (b.drive (D := D) s).1 = false := by
  induction b generalizing s with
  | returned value => cases h
  | raised e => cases h
  | update change next ih => exact ih (change s) h
  | read next ih => exact ih s s h
  | activity a next _ => cases h
  | wait condition' next' ih =>
    unfold Body.drive at h ⊢
    by_cases hholds : condition' s = true
    · rw [if_pos hholds] at h ⊢
      exact ih s h
    · rw [if_neg hholds] at h ⊢
      obtain ⟨rfl, rfl⟩ := Stage.waiting.inj h
      exact Bool.not_eq_true _ ▸ hholds

/-- A driven body is not closed from outside. -/
theorem drive_ne_expired (b : Body S A R F α) (s : S) : (b.drive (D := D) s).2 ≠ .expired := by
  induction b generalizing s with
  | returned value => simp [Body.drive]
  | raised e => simp [Body.drive]
  | update change next ih => exact ih (change s)
  | read next ih => exact ih s s
  | activity a next _ => simp [Body.drive]
  | wait condition next ih =>
    unfold Body.drive
    split
    · exact ih s
    · simp

end Body

/-- What the steps of a run are charged. -/
structure Charges where
  begun : ℕ
  executed : ℕ
  ended : ℕ

namespace Charges

/-- Handling messages is free. -/
def charge (c : Charges) : RunEvent → ℕ
  | .begin => c.begun
  | .activate _ => 0
  | .execute | .executeLate _ => c.executed
  | .report | .lose | .expire => c.ended

/-- Every other step counts. -/
def steps : Charges := ⟨1, 1, 1⟩

/-- Only executions count. -/
def executions : Charges := ⟨0, 1, 0⟩

/-- An attempt is executed once and ends once. -/
def attempt (c : Charges) : ℕ := c.executed + c.ended

/-- What is left to pay of an attempt in flight. -/
def inFlight {ρ : Type} (c : Charges) : Option (Record D F ρ) → ℕ
  | none => c.attempt
  | some _ => c.ended

/-- Activities with so many attempts each. -/
def activities (c : Charges) (each n : ℕ) : ℕ := n * (each * c.attempt)

/-- A run whose body awaits so many activities: it begins and it is closed, at most. -/
def run (c : Charges) (each n : ℕ) : ℕ := c.begun + c.ended + c.activities each n

end Charges

section Costs

variable (c : Charges) (each whole : ℕ)

/-- The steps that a run at this stage still takes are charged at most so much, late executions apart. -/
def Stage.CostsAtMost : Stage S A R F D α → ℕ → Prop
  | .fresh, k => c.run each whole ≤ k
  | .awaiting _ next number record, k => number ≤ each ∧ ∃ n, (∀ reply, (next reply).AwaitsAtMost n) ∧
      c.ended + (each - number) * c.attempt + c.inFlight record + c.activities each n ≤ k
  | .waiting _ next, k => ∃ n, next.AwaitsAtMost n ∧ c.ended + c.activities each n ≤ k
  | .returned _, _ | .raised _, _ | .expired, _ => True

/-- An attempt that was given up and may be executed yet. -/
def Attempt.pending (t : Attempt A R F D) : Bool := t.fate = .lost && t.record.isNone

/-- How many attempts of the run may be executed late. -/
def Run.pending (r : Run I S M A R F D α) : ℕ := r.past.countP Attempt.pending

/-- All the steps that the run still takes are charged at most so much. -/
def Run.CostsAtMost (r : Run I S M A R F D α) (k : ℕ) : Prop :=
  ∃ m, r.stage.CostsAtMost c each whole m ∧ m + r.pending * c.executed ≤ k

variable {c each whole}

/-- One more attempt of an activity is an attempt fewer that is left. -/
theorem Charges.attempts_succ {number : ℕ} (h : number < each) :
    (each - number) * c.attempt = (each - (number + 1)) * c.attempt + c.attempt := by
  obtain ⟨left, rfl⟩ := Nat.exists_eq_add_of_lt h
  rw [show number + left + 1 - number = left + 1 by omega, show number + left + 1 - (number + 1) = left by omega,
    Nat.succ_mul]

/-- Going on with a body costs what its activities cost. -/
theorem Body.AwaitsAtMost.drive {b : Body S A R F α} {n k : ℕ} (hb : b.AwaitsAtMost n) (heach : 0 < each)
    (hk : c.ended + c.activities each n ≤ k) (s : S) : (b.drive (D := D) s).2.CostsAtMost c each whole k := by
  induction b generalizing s with
  | returned value => trivial
  | raised e => trivial
  | update change next ih => exact ih hb (change s)
  | read next ih => exact ih s (hb s) s
  | activity a next _ =>
    obtain ⟨m, rfl, hnext⟩ := hb
    refine ⟨heach, m, hnext, ?_⟩
    have hfirst := Charges.attempts_succ (c := c) heach
    simp only [Charges.activities, Charges.inFlight, Nat.sub_zero, Nat.zero_add, Nat.succ_mul] at hk hfirst ⊢
    omega
  | wait condition next ih =>
    unfold Body.drive
    split
    · exact ih hb s
    · exact ⟨n, hb, hk⟩

namespace Run

variable {r : Run I S M A R F D α}

/-- An attempt that is over may be pending. -/
theorem pending_retire (t : Attempt A R F D) : (r.retire t).pending = r.pending + if t.pending then 1 else 0 := by
  simp only [pending, retire, List.countP_append, List.countP_singleton]

/-- A late execution is pending no more. -/
theorem pending_executed {j number : ℕ} {a : A} {record : Record D F (R a)}
    (h : r.past[j]? = some ⟨a, number, .lost, none⟩) :
    (r.executed j ⟨a, number, .lost, some record⟩).pending + 1 = r.pending := by
  obtain ⟨hj, hget⟩ := List.getElem?_eq_some_iff.mp h
  have hpos : 0 < r.past.countP Attempt.pending :=
    List.countP_pos_iff.mpr ⟨_, List.mem_of_getElem? h, rfl⟩
  simp only [pending, executed, List.countP_set hj, hget]
  simp only [Attempt.pending, decide_true, Bool.true_and, Option.isNone_some, Option.isNone_none, if_true,
    Bool.false_eq_true, if_false]
  change r.past.countP Attempt.pending - 1 + 0 + 1 = r.past.countP Attempt.pending
  omega

/-- An attempt that is over leaves at most a late execution to pay. -/
theorem retire_le (a : A) (number : ℕ) (fate : Fate) (record : Option (Record D F (R a))) :
    (r.retire ⟨a, number, fate, record⟩).pending * c.executed + c.ended ≤
      r.pending * c.executed + c.inFlight record := by
  rw [pending_retire, Nat.add_mul]
  cases record with
  | none =>
    have hone : (if (⟨a, number, fate, none⟩ : Attempt A R F D).pending then 1 else 0) * c.executed ≤ c.executed := by
      split
      · exact (Nat.one_mul _).le
      · exact (Nat.zero_mul _).le.trans (Nat.zero_le _)
    simp only [Charges.inFlight, Charges.attempt]
    omega
  | some record => simp [Charges.inFlight, Attempt.pending]

/-- A run that goes on with a body can pay for what that awaits. -/
theorem CostsAtMost.resume {b : Body S A R F α} {n k : ℕ} (hb : b.AwaitsAtMost n) (heach : 0 < each)
    (hk : c.ended + c.activities each n + r.pending * c.executed ≤ k) : (r.resume b).CostsAtMost c each whole k :=
  ⟨c.ended + c.activities each n, hb.drive heach le_rfl r.object, hk⟩

variable {P : Service I S M A R F D α X} {a : A} {next : Except F (R a) → Body S A R F α} {number k : ℕ}
  {record : Option (Record D F (R a))}

/-- A run that begins can pay for its body. -/
theorem CostsAtMost.begin (h : r.CostsAtMost c each whole k) (hmain : (P.main r.input).AwaitsAtMost whole)
    (heach : 0 < each) (hs : r.stage = .fresh) :
    ∃ k', (r.resume (P.main r.input)).CostsAtMost c each whole k' ∧ k' + c.begun ≤ k := by
  obtain ⟨m, hstage, hm⟩ := h
  rw [hs] at hstage
  simp only [Stage.CostsAtMost, Charges.run] at hstage
  exact ⟨_, CostsAtMost.resume hmain heach le_rfl, by omega⟩

/-- A run that wakes up goes on with what it can pay for. -/
theorem CostsAtMost.wake (h : r.CostsAtMost c each whole k) (heach : 0 < each) {count : ℕ} {condition : S → Bool}
    {next : Body S A R F α} (hs : r.stage = .waiting condition next) :
    ((r.handleBatch P count).resume (.wait condition next)).CostsAtMost c each whole k := by
  obtain ⟨m, hstage, hm⟩ := h
  rw [hs] at hstage
  obtain ⟨n, hnext, hn⟩ := hstage
  refine CostsAtMost.resume (b := .wait condition next) hnext heach ?_
  change _ + r.pending * c.executed ≤ k
  omega

/-- A run that awaits an activity can pay for the attempts that are left, and for what comes after them. -/
theorem CostsAtMost.awaiting (h : r.CostsAtMost c each whole k) (hs : r.stage = .awaiting a next number record) :
    number ≤ each ∧ ∃ n, (∀ reply, (next reply).AwaitsAtMost n) ∧
      c.ended + (each - number) * c.attempt + c.inFlight record + c.activities each n + r.pending * c.executed ≤ k := by
  obtain ⟨m, hstage, hm⟩ := h
  rw [hs] at hstage
  obtain ⟨hnumber, n, hnext, hn⟩ := hstage
  exact ⟨hnumber, n, hnext, (Nat.add_le_add_right hn _).trans hm⟩

/-- The execution of an attempt is paid for. -/
theorem CostsAtMost.execute (h : r.CostsAtMost c each whole k) (hs : r.stage = .awaiting a next number none)
    (executed : Record D F (R a)) :
    ∃ k', (r.await a next number (some executed)).CostsAtMost c each whole k' ∧ k' + c.executed ≤ k := by
  obtain ⟨hnumber, n, hnext, hk⟩ := h.awaiting hs
  refine ⟨_, ⟨_, ⟨hnumber, n, hnext, le_rfl⟩, le_rfl⟩, ?_⟩
  simp only [Charges.inFlight, Charges.attempt] at hk ⊢
  change _ + r.pending * c.executed + c.executed ≤ k
  omega

/-- So is its execution after it was given up. -/
theorem CostsAtMost.executeLate (h : r.CostsAtMost c each whole k) {j : ℕ}
    (hj : r.past[j]? = some ⟨a, number, .lost, none⟩) (executed : Record D F (R a)) :
    ∃ k', (r.executed j ⟨a, number, .lost, some executed⟩).CostsAtMost c each whole k' ∧ k' + c.executed ≤ k := by
  obtain ⟨m, hstage, hm⟩ := h
  have hfewer : (r.executed j ⟨a, number, .lost, some executed⟩).pending + 1 = r.pending := pending_executed hj
  refine ⟨_, ⟨m, hstage, le_rfl⟩, ?_⟩
  rw [← hfewer, Nat.succ_mul] at hm
  omega

/-- A run that is given a reply, or a failure, has paid for the attempt. -/
theorem CostsAtMost.reply (h : r.CostsAtMost c each whole k) (hs : r.stage = .awaiting a next number record)
    (heach : 0 < each) (fate : Fate) (reply : Except F (R a)) :
    ∃ k', ((r.retire ⟨a, number, fate, record⟩).resume (next reply)).CostsAtMost c each whole k' ∧
      k' + c.ended ≤ k := by
  obtain ⟨-, n, hnext, hk⟩ := h.awaiting hs
  have hretire := r.retire_le (c := c) a number fate record
  exact ⟨_, CostsAtMost.resume (hnext reply) heach le_rfl, by omega⟩

/-- A run that tries an activity again has an attempt fewer left. -/
theorem CostsAtMost.retry (h : r.CostsAtMost c each whole k) (hs : r.stage = .awaiting a next number record)
    (hlt : number < each) (fate : Fate) :
    ∃ k', ((r.retire ⟨a, number, fate, record⟩).await a next (number + 1) none).CostsAtMost c each whole k' ∧
      k' + c.ended ≤ k := by
  obtain ⟨-, n, hnext, hk⟩ := h.awaiting hs
  have hretire := r.retire_le (c := c) a number fate record
  have hsucc := Charges.attempts_succ (c := c) hlt
  refine ⟨_, ⟨_, ⟨hlt, n, hnext, le_rfl⟩, le_rfl⟩, ?_⟩
  simp only [Charges.inFlight]
  change _ + (r.retire ⟨a, number, fate, record⟩).pending * c.executed + c.ended ≤ k
  omega

/-- A run that is closed before it has awaited anything, or while it waits, has paid for that. -/
theorem CostsAtMost.close (h : r.CostsAtMost c each whole k)
    (hs : r.stage = .fresh ∨ ∃ condition next, r.stage = .waiting condition next) :
    ∃ k', r.expired.CostsAtMost c each whole k' ∧ k' + c.ended ≤ k := by
  obtain ⟨m, hstage, hm⟩ := h
  refine ⟨_, ⟨0, trivial, le_rfl⟩, ?_⟩
  change 0 + r.pending * c.executed + c.ended ≤ k
  rcases hs with hs | ⟨condition, next, hs⟩
  · rw [hs] at hstage
    simp only [Stage.CostsAtMost, Charges.run] at hstage
    omega
  · rw [hs] at hstage
    obtain ⟨n, -, hn⟩ := hstage
    omega

/-- And so has a run that is closed while it awaits an activity. -/
theorem CostsAtMost.closeAwaiting (h : r.CostsAtMost c each whole k)
    (hs : r.stage = .awaiting a next number record) :
    ∃ k', (r.retire ⟨a, number, .lost, record⟩).expired.CostsAtMost c each whole k' ∧ k' + c.ended ≤ k := by
  obtain ⟨-, n, -, hk⟩ := h.awaiting hs
  have hretire := r.retire_le (c := c) a number .lost record
  refine ⟨_, ⟨0, trivial, le_rfl⟩, ?_⟩
  change 0 + (r.retire ⟨a, number, .lost, record⟩).pending * c.executed + c.ended ≤ k
  omega

end Run

/-- What ends an attempt is charged as its end. -/
theorem Charges.charge_of_ends {e : RunEvent} (he : e = .report ∨ e = .lose) : c.charge e = c.ended := by
  rcases he with rfl | rfl <;> rfl

/-- Every step of a run is paid from what the run costs at most. -/
theorem Run.CostsAtMost.step {P : Service I S M A R F D α X} {d d' : D} {r r' : Run I S M A R F D α} {e : RunEvent}
    {k : ℕ} (hmain : (P.main r.input).AwaitsAtMost whole) (heach : 0 < each) (hmax : P.maximumAttempts ≤ each)
    (h : r.CostsAtMost c each whole k) (hstep : P.stepRun d r e = some (d', r')) :
    ∃ k', r'.CostsAtMost c each whole k' ∧ k' + c.charge e ≤ k := by
  cases P.stepRun_moves hstep with
  | begun hs => exact h.begin hmain heach hs
  | handled count _ => exact ⟨k, h, le_rfl⟩
  | woken count condition next hs _ => exact ⟨k, h.wake heach hs, le_rfl⟩
  | executed a next number hs => exact h.execute hs (P.record a d)
  | executedLate j a number hj => exact h.executeLate hj (P.record a d)
  | answered a next number record reply hs _ => exact h.reply hs heach .acknowledged (.ok reply)
  | retried _ a next number record fate f hs _ he hmore =>
    rw [Charges.charge_of_ends he]
    exact h.retry hs (hmore.trans_le hmax) fate
  | failed _ a next number record fate f hs _ he =>
    rw [Charges.charge_of_ends he]
    exact h.reply hs heach fate (.error f)
  | expired hs => exact h.close hs
  | expiredAwaiting a next number record hs => exact h.closeAwaiting hs

/-- A run that has not begun. -/
theorem Run.costsAtMost_start (P : Service I S M A R F D α X) (workflowId : String) (input : I) :
    (Run.start P workflowId input).CostsAtMost c each whole (c.run each whole) :=
  ⟨_, le_refl (c.run each whole), by simp [Run.pending, Run.start]⟩

end Costs

section Spending

variable {P : Service I S M A R F D α X}

/-- What an event is charged to a run. -/
def Event.charge (c : Charges) (i : ℕ) : Event I M X → ℕ
  | .run j e => if j = i then c.charge e else 0
  | _ => 0

/-- What the events have been charged to a run. -/
def Charges.spent (c : Charges) (i : ℕ) : List (Event I M X) → ℕ
  | [] => 0
  | e :: rest => e.charge c i + c.spent i rest

/-- One event more is charged what it costs. -/
theorem Charges.spent_concat (c : Charges) (i : ℕ) (events : List (Event I M X)) (e : Event I M X) :
    c.spent i (events ++ [e]) = c.spent i events + e.charge c i := by
  induction events with
  | nil => exact Nat.add_comm _ _
  | cons first rest ih => simp only [List.cons_append, spent, ih, Nat.add_assoc]

/-- An event of a run is a step of that run and leaves the others alone. -/
theorem stepRun_of_step {s s' : System I S M A R F D α} {i : ℕ} {e : RunEvent}
    (hstep : P.step s (.run i e) = some s') :
    ∃ r d r', s.runs[i]? = some r ∧ P.stepRun s.db r e = some (d, r') ∧
      s' = { s with db := d, runs := s.runs.set i r' } := by
  simp only [Service.step] at hstep
  cases hr : s.runs[i]? with
  | none => simp [hr] at hstep
  | some r =>
    rw [hr] at hstep
    obtain ⟨⟨d, r'⟩, hout, rfl⟩ := Option.map_eq_some_iff.mp hstep
    exact ⟨r, d, r', rfl, hout, rfl⟩

/-- What has been charged to a run, and what it still costs, is within what it costs in all. -/
structure Paid (c : Charges) (each : ℕ) (whole : I → ℕ) (events : List (Event I M X))
    (s : System I S M A R F D α) : Prop where
  absent : ∀ i, s.runs[i]? = none → c.spent i events = 0
  present : ∀ i r, s.runs[i]? = some r → ∃ k, r.CostsAtMost c each (whole r.input) k ∧
    c.spent i events + k ≤ c.run each (whole r.input)

variable {c : Charges} {each : ℕ} {whole : I → ℕ}

/-- An event that is charged to no run, and leaves every run as it was. -/
theorem Paid.of_same {events : List (Event I M X)} {s s' : System I S M A R F D α} {e : Event I M X}
    (h : Paid c each whole events s) (hfree : ∀ i, e.charge c i = 0) (hsame : s'.runs = s.runs) :
    Paid c each whole (events ++ [e]) s' where
  absent i hi := by rw [c.spent_concat, hfree, h.absent i (hsame ▸ hi)]
  present i r hr := by rw [c.spent_concat, hfree]; exact h.present i r (hsame ▸ hr)

/-- Every event is paid for by the run that it is charged to. -/
theorem Paid.step {events : List (Event I M X)} {s s' : System I S M A R F D α} {e : Event I M X}
    (hmain : ∀ input, (P.main input).AwaitsAtMost (whole input)) (heach : 0 < each) (hmax : P.maximumAttempts ≤ each)
    (h : Paid c each whole events s) (hstep : P.step s e = some s') : Paid c each whole (events ++ [e]) s' := by
  cases e with
  | start workflowId input =>
    cases P.step_changes hstep with
    | joined _ _ _ _ => exact h.of_same (fun _ => rfl) rfl
    | started _ _ _ =>
      refine ⟨fun i hi => ?_, fun i r hr => ?_⟩
      · rw [c.spent_concat]
        refine h.absent i (List.getElem?_eq_none_iff.mpr ?_)
        have hlength := List.getElem?_eq_none_iff.mp hi
        rw [List.length_append] at hlength
        omega
      · rw [c.spent_concat]
        have hget := List.getElem?_append.symm.trans hr
        by_cases hi : i < s.runs.length
        · rw [if_pos hi] at hget
          exact h.present i r hget
        · rw [if_neg hi] at hget
          obtain rfl := List.mem_singleton.mp (List.mem_of_getElem? hget)
          refine ⟨_, Run.costsAtMost_start P workflowId input, ?_⟩
          rw [h.absent i (List.getElem?_eq_none_iff.mpr (by omega))]
          exact (Nat.zero_add _).le
  | run j e =>
    obtain ⟨q, d, q', hq, hout, rfl⟩ := stepRun_of_step hstep
    refine ⟨fun i hi => ?_, fun i r hr => ?_⟩
    · have hne : j ≠ i := by
        rintro rfl
        rw [List.getElem?_set_self (List.getElem?_eq_some_iff.mp hq).1] at hi
        exact absurd hi (by simp)
      rw [c.spent_concat, Event.charge, if_neg hne]
      exact h.absent i (by rwa [List.getElem?_set_ne hne] at hi)
    · rw [c.spent_concat, Event.charge]
      by_cases hij : j = i
      · subst hij
        obtain rfl := Option.some.inj ((List.getElem?_set_self (List.getElem?_eq_some_iff.mp hq).1).symm.trans hr)
        obtain ⟨k, hcosts, hk⟩ := h.present j q hq
        obtain ⟨k', hcosts', hk'⟩ := hcosts.step (hmain q.input) heach hmax hout
        rw [(P.stepRun_moves hout).later.input, if_pos rfl]
        exact ⟨k', hcosts', by omega⟩
      · rw [if_neg hij]
        exact h.present i r (by rwa [List.getElem?_set_ne hij] at hr)
  | send workflowId message =>
    cases P.step_changes hstep with
    | sent _ _ _ _ => exact h.of_same (fun _ => rfl) rfl
  | deliver k =>
    cases P.step_changes hstep with
    | dropped _ _ _ _ => exact h.of_same (fun _ => rfl) rfl
    | delivered _ e j _ _ =>
      refine ⟨fun i hi => ?_, fun i r hr => ?_⟩
      · rw [c.spent_concat]
        exact h.absent i (by simpa using hi)
      · rw [c.spent_concat]
        simp only [List.getElem?_modify] at hr
        obtain ⟨q, hq, rfl⟩ := Option.map_eq_some_iff.mp hr
        obtain ⟨m, hcosts, hm⟩ := h.present i q hq
        split
        · exact ⟨m, hcosts, hm⟩
        · exact ⟨m, hcosts, hm⟩
  | outside x =>
    cases P.step_changes hstep with
    | outside _ _ _ => exact h.of_same (fun _ => rfl) rfl

/-- In every system that a run of events reaches, everything is paid for. -/
theorem Paid.of_run {events : List (Event I M X)} {d : D} {s : System I S M A R F D α}
    (hmain : ∀ input, (P.main input).AwaitsAtMost (whole input)) (heach : 0 < each) (hmax : P.maximumAttempts ≤ each)
    (hrun : runFrom P.step (System.initial d) events = some s) : Paid c each whole events s :=
  runFrom_history P.step (Paid c each whole) (fun _ _ _ _ h hstep => h.step hmain heach hmax hstep) [] hrun
    ⟨fun _ _ => rfl, by simp [System.initial]⟩

end Spending

section Progress

variable {P : Service I S M A R F D α X} {d d' : D} {r r' : Run I S M A R F D α} {e : RunEvent}

/-- A run that waits does so because its condition does not hold. -/
def Run.Attentive (r : Run I S M A R F D α) : Prop :=
  ∀ condition next, r.stage = .waiting condition next → condition r.object = false

/-- The run waits for a condition, and it has handled every message that has reached it. -/
structure Run.Idle (r : Run I S M A R F D α) : Prop where
  mailbox : r.mailbox = []
  waiting : ∃ condition next, r.stage = .waiting condition next ∧ condition r.object = false

/-- The steps in which no attempt is lost and nobody closes the run. -/
def RunEvent.Undisturbed : RunEvent → Prop
  | .begin | .activate _ | .execute | .report => True
  | .executeLate _ | .lose | .expire => False

/-- A run that goes on looks at a condition before it waits. -/
theorem Run.attentive_resume (b : Body S A R F α) (r : Run I S M A R F D α) : (r.resume b).Attentive :=
  fun _ _ h => b.condition_of_drive r.object h

/-- Whenever a run comes to wait it has looked at its condition. -/
theorem Service.Moves.attentive (h : P.Moves d r e d' r') (hr : r.Attentive) : r'.Attentive := by
  cases h with
  | begun _ => exact Run.attentive_resume _ _
  | handled count hs =>
    intro condition next hwaiting
    rcases hs with hs | ⟨_, _, _, _, hs⟩
    · exact absurd (hs.symm.trans hwaiting) (by simp)
    · exact absurd (hs.symm.trans hwaiting) (by simp)
  | woken count condition next _ _ => exact Run.attentive_resume _ _
  | executed a next number _ => exact fun _ _ hwaiting => absurd hwaiting (by simp [Run.await])
  | executedLate k a number _ => exact hr
  | answered a next number record reply _ _ => exact Run.attentive_resume _ _
  | retried e a next number record fate f _ _ _ => exact fun _ _ hwaiting => absurd hwaiting (by simp [Run.await])
  | failed e a next number record fate f _ _ _ => exact Run.attentive_resume _ _
  | expired _ => exact fun _ _ hwaiting => absurd hwaiting (by simp [Run.expired])
  | expiredAwaiting a next number record _ => exact fun _ _ hwaiting => absurd hwaiting (by simp [Run.expired])

/-- So every run is attentive at every time. -/
theorem Run.kept_attentive : Kept P (Run.Attentive (I := I) (M := M) (D := D)) where
  start _ _ _ _ h := absurd h (by simp [Run.start])
  receive _ _ h := h
  move _ _ _ _ _ h hmove := hmove.attentive h

/-- A run is closed from outside by that alone. -/
theorem Service.Moves.expired_of_undisturbed (h : P.Moves d r e d' r') (he : e.Undisturbed)
    (hexpired : r'.stage = .expired) : r.stage = .expired := by
  cases h with
  | begun _ => exact absurd hexpired (Body.drive_ne_expired _ _)
  | handled count _ => exact hexpired
  | woken count condition next _ _ => exact absurd hexpired (Body.drive_ne_expired _ _)
  | executed a next number _ => exact absurd hexpired (by simp [Run.await])
  | executedLate k a number _ => exact absurd he id
  | answered a next number record reply _ _ => exact absurd hexpired (Body.drive_ne_expired _ _)
  | retried e a next number record fate f _ _ _ => exact absurd hexpired (by simp [Run.await])
  | failed e a next number record fate f _ _ _ => exact absurd hexpired (Body.drive_ne_expired _ _)
  | expired _ => exact absurd he id
  | expiredAwaiting a next number record _ => exact absurd he id

/-- An open run that is not idle can go on by itself. It is charged for that, or has a message less to handle. -/
theorem Run.exists_step (P : Service I S M A R F D α X) (d : D) (hr : r.Attentive) (hopen : r.stage.isOpen = true)
    (hbusy : ¬ r.Idle) :
    ∃ e d' r', e.Undisturbed ∧ P.stepRun d r e = some (d', r') ∧
      r'.mailbox.length < r.mailbox.length + Charges.steps.charge e := by
  cases hs : r.stage with
  | fresh =>
    exact ⟨.begin, d, r.resume (P.main r.input), trivial, by simp [Service.stepRun, hs], Nat.lt_succ_self _⟩
  | awaiting a next number record =>
    cases record with
    | none =>
      refine ⟨.execute, (P.perform a d).2, r.await a next number (some (P.record a d)), trivial, ?_, Nat.lt_succ_self _⟩
      simp only [Service.stepRun, hs]
    | some record =>
      refine ⟨.report, d, ?_⟩
      simp only [Service.stepRun, hs]
      split
      · exact ⟨_, trivial, rfl, Nat.lt_succ_self _⟩
      · split
        · exact ⟨_, trivial, rfl, Nat.lt_succ_self _⟩
        · exact ⟨_, trivial, rfl, Nat.lt_succ_self _⟩
  | waiting condition next =>
    have hmail : 0 < r.mailbox.length := List.length_pos_iff.mpr fun hnil =>
      hbusy ⟨hnil, condition, next, hs, hr condition next hs⟩
    refine ⟨.activate 1, d, (r.handleBatch P 1).resume (.wait condition next), trivial, ?_, ?_⟩
    · simp [Service.stepRun, hs, Nat.succ_le_of_lt hmail]
    · change (r.mailbox.drop 1).length < r.mailbox.length + 0
      rw [List.length_drop]
      omega
  | returned value | raised e | expired => exact absurd hopen (by simp [hs, Stage.isOpen])

/-- By steps of its own a run comes to its end, or to a wait that only a new message can end. -/
theorem Run.CostsAtMost.exists_end {each whole k : ℕ} {s : System I S M A R F D α} {i : ℕ}
    (hmain : (P.main r.input).AwaitsAtMost whole) (heach : 0 < each) (hmax : P.maximumAttempts ≤ each)
    (hr : s.runs[i]? = some r) (hcosts : r.CostsAtMost Charges.steps each whole k) (hattentive : r.Attentive) :
    ∃ (steps : List RunEvent) (s' : System I S M A R F D α) (r' : Run I S M A R F D α),
      (∀ e ∈ steps, e.Undisturbed) ∧ steps.length ≤ k + r.mailbox.length ∧
      runFrom P.step s (steps.map (.run i)) = some s' ∧ s'.runs[i]? = some r' ∧
      (r'.stage = .expired → r.stage = .expired) ∧ (r'.stage.isOpen = false ∨ r'.Idle) := by
  induction hn : k + r.mailbox.length using Nat.strong_induction_on generalizing s r k with
  | h n ih =>
    subst hn
    by_cases hdone : r.stage.isOpen = false ∨ r.Idle
    · exact ⟨[], s, r, by simp, Nat.zero_le _, rfl, hr, id, hdone⟩
    · obtain ⟨hopen, hbusy⟩ := not_or.mp hdone
      obtain ⟨e, d', r₁, hundisturbed, hstep, hless⟩ :=
        Run.exists_step P s.db hattentive (Bool.of_not_eq_false hopen) hbusy
      obtain ⟨k', hcosts', hpaid⟩ := hcosts.step hmain heach hmax hstep
      have hmove := P.stepRun_moves hstep
      have hget : (s.runs.set i r₁)[i]? = some r₁ := List.getElem?_set_self (List.getElem?_eq_some_iff.mp hr).1
      obtain ⟨steps, s', r', hall, hlength, hrun, hr', hexpired, hend⟩ :=
        ih (k' + r₁.mailbox.length) (by omega) (hmove.later.input ▸ hmain)
          (s := { s with db := d', runs := s.runs.set i r₁ }) hget hcosts' (hmove.attentive hattentive) rfl
      refine ⟨e :: steps, s', r', List.forall_mem_cons.mpr ⟨hundisturbed, hall⟩, ?_, ?_, hr',
        fun h => hmove.expired_of_undisturbed hundisturbed (hexpired h), hend⟩
      · rw [List.length_cons]
        omega
      · have hsystem : P.step s (.run i e) = some { s with db := d', runs := s.runs.set i r₁ } := by
          simp [Service.step, hr, hstep]
        exact (runFrom_cons_eq_some P.step).mpr ⟨_, hsystem, hrun⟩

end Progress

end DurableExecution
