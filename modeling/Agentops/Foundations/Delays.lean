import Mathlib.Data.List.Basic
import Mathlib.Data.Nat.Notation

/-!
# Timers of one delay

Timers that are all set for the same delay run in the order in which they were set, none of them early. One may run
late. Once no timer is due, those that wait are the ones that were set within the delay.
-/

namespace Delays

variable {A : Type}

/-- The time, and the timers that wait, each with the time when it was set. -/
structure Timers (A : Type) where
  now : ℕ := 0
  waiting : List (ℕ × A) := []

namespace Timers

/-- A timer is set. -/
def set (a : A) (timers : Timers A) : Timers A :=
  { timers with waiting := timers.waiting ++ [(timers.now, a)] }

/-- Time passes. -/
def pass (time : ℕ) (timers : Timers A) : Timers A := { timers with now := timers.now + time }

/-- The timer that runs next, if it is due. -/
def run? (delay : ℕ) (timers : Timers A) : Option (A × Timers A) :=
  match timers.waiting with
  | [] => none
  | (since, a) :: rest => if since + delay ≤ timers.now then some (a, { timers with waiting := rest }) else none

/-- No timer is due. -/
def Settled (delay : ℕ) (timers : Timers A) : Prop := ∀ timer ∈ timers.waiting, timers.now < timer.1 + delay

/-- Of the timers of the record, the first have been due and the others wait. -/
def Recorded (delay : ℕ) (record : List (ℕ × A)) (timers : Timers A) : Prop :=
  ∃ past, record = past ++ timers.waiting ∧ ∀ timer ∈ past, timer.1 + delay ≤ timers.now

variable {delay : ℕ} {record : List (ℕ × A)} {timers timers' : Timers A} {a : A}

/-- No timer has been set. -/
theorem recorded_initial (delay : ℕ) : Recorded delay [] ({} : Timers A) := ⟨[], rfl, nofun⟩

/-- A timer is set now. -/
theorem Recorded.set (h : Recorded delay record timers) (a : A) :
    Recorded delay (record ++ [(timers.now, a)]) (timers.set a) := by
  obtain ⟨past, rfl, hpast⟩ := h
  exact ⟨past, List.append_assoc .., hpast⟩

/-- Time passes. -/
theorem Recorded.pass (h : Recorded delay record timers) (time : ℕ) : Recorded delay record (timers.pass time) := by
  obtain ⟨past, hrecord, hpast⟩ := h
  exact ⟨past, hrecord, fun timer htimer => Nat.le_add_right_of_le (hpast timer htimer)⟩

/-- The timer that runs is the first that waits, and it is due. -/
theorem run?_eq_some (h : timers.run? delay = some (a, timers')) :
    ∃ since, timers.waiting = (since, a) :: timers'.waiting ∧ since + delay ≤ timers.now ∧
      timers'.now = timers.now := by
  cases hwaiting : timers.waiting with
  | nil => simp [run?, hwaiting] at h
  | cons first rest =>
    simp only [run?, hwaiting, Option.ite_none_right_eq_some, Option.some.injEq, Prod.mk.injEq] at h
    obtain ⟨hdue, rfl, rfl⟩ := h
    exact ⟨first.1, rfl, hdue, rfl⟩

/-- The oldest timer that waits runs. -/
theorem Recorded.run (h : Recorded delay record timers) (hrun : timers.run? delay = some (a, timers')) :
    Recorded delay record timers' := by
  obtain ⟨since, hwaiting, hdue, hnow⟩ := run?_eq_some hrun
  obtain ⟨past, hrecord, hpast⟩ := h
  refine ⟨past ++ [(since, a)], by rw [hrecord, hwaiting, List.append_assoc]; rfl, fun timer htimer => ?_⟩
  rw [hnow]
  rcases List.mem_append.mp htimer with hold | hlast
  · exact hpast timer hold
  · rw [List.mem_singleton.mp hlast]
    exact hdue

/-- Once no timer is due, those wait that were set within the delay. -/
theorem Recorded.waiting_eq (h : Recorded delay record timers) (hsettled : timers.Settled delay) :
    timers.waiting = record.filter fun timer => timers.now < timer.1 + delay := by
  obtain ⟨past, hrecord, hpast⟩ := h
  have hgone : (past.filter fun timer => decide (timers.now < timer.1 + delay)) = [] := by
    rw [List.filter_eq_nil_iff]
    intro timer htimer
    simpa using hpast timer htimer
  have hkept : (timers.waiting.filter fun timer => decide (timers.now < timer.1 + delay)) = timers.waiting := by
    rw [List.filter_eq_self]
    intro timer htimer
    simpa using hsettled timer htimer
  rw [hrecord, List.filter_append, hgone, hkept, List.nil_append]

end Timers

end Delays
