import Mathlib.Data.List.Basic
import Mathlib.Data.Nat.Notation

/-!
# Requests that are answered in any order

A client sends requests and numbers them; an answer may come to any of those that wait. Where an answer only ever
comes while no other request waits, the answer that came last is the one to the last request.
-/

namespace InFlight

/-- The requests in the order in which they were sent, the numbers of those that wait, and the answers with the number
of their request, the latest first. -/
structure Requests (Q R : Type) where
  sent : List Q := []
  waiting : List ℕ := []
  answers : List (ℕ × R) := []
  deriving DecidableEq, Repr

namespace Requests

variable {Q R : Type}

/-- A request is sent and waits. -/
def send (query : Q) (requests : Requests Q R) : Requests Q R :=
  { requests with sent := requests.sent ++ [query], waiting := requests.sent.length :: requests.waiting }

/-- Only a request that waits is answered. -/
def answer (number : ℕ) (reply : R) (requests : Requests Q R) : Option (Requests Q R) :=
  if number ∈ requests.waiting then
    some { requests with
      waiting := requests.waiting.erase number, answers := (number, reply) :: requests.answers }
  else none

/-- The number of the last request. -/
def last (requests : Requests Q R) : ℕ := requests.sent.length - 1

/-- The answer to the last request. -/
def lastAnswer (requests : Requests Q R) : Option R := requests.answers.lookup requests.last

/-- Where anything waits, the last request does. -/
def LastWaits (requests : Requests Q R) : Prop := requests.waiting ≠ [] → requests.last ∈ requests.waiting

variable {requests after : Requests Q R} {number : ℕ} {reply : R}

/-- A request that waits is answered. -/
theorem answer_eq_some : requests.answer number reply = some after ↔ number ∈ requests.waiting ∧
    after = { requests with
      waiting := requests.waiting.erase number, answers := (number, reply) :: requests.answers } := by
  unfold answer
  by_cases hmem : number ∈ requests.waiting
  · simp [hmem, eq_comm]
  · simp [hmem]

/-- Before anything is sent nothing waits. -/
theorem lastWaits_empty : LastWaits ({} : Requests Q R) := fun h => absurd rfl h

/-- A request that is sent is the last one, and waits. -/
theorem lastWaits_send (query : Q) (requests : Requests Q R) : (requests.send query).LastWaits := by
  intro _
  simp [send, last]

/-- What is answered alone was the last request. -/
theorem LastWaits.answer (h : requests.LastWaits) (halone : requests.waiting = [number])
    (hanswer : requests.answer number reply = some after) :
    after.LastWaits ∧ after.waiting = [] ∧ after.lastAnswer = some reply := by
  obtain ⟨-, rfl⟩ := answer_eq_some.mp hanswer
  have hlast : requests.last = number := by simpa [halone] using h (by simp [halone])
  have hnone : requests.waiting.erase number = [] := by simp [halone]
  refine ⟨fun hne => absurd hnone hne, hnone, ?_⟩
  rw [← hlast]
  exact List.lookup_cons_self

/-- Beside others that wait none is answered alone. -/
theorem waiting_ne_nil_of_not_alone (halone : requests.waiting ≠ [number])
    (hanswer : requests.answer number reply = some after) : after.waiting ≠ [] := by
  obtain ⟨hmem, rfl⟩ := answer_eq_some.mp hanswer
  intro (hnil : requests.waiting.erase number = [])
  refine halone ?_
  have hlength : requests.waiting.length = 1 := by
    have herase := List.length_erase_of_mem hmem
    rw [hnil] at herase
    have hpos := List.length_pos_of_mem hmem
    simp only [List.length_nil] at herase
    omega
  obtain ⟨other, hother⟩ := List.length_eq_one_iff.mp hlength
  rw [hother, List.mem_singleton] at hmem
  rw [hother, hmem]

end Requests

end InFlight
