import Agentops.Memory.Provenance
import Agentops.Memory.Search

/-!
# One customer's memory and another's

As long as no customer has a colon, a summary and everything that is read for it come from turns of the
customer and the thread that it is filed under. The thread of a request to end a conversation may be any
text, colons included, and leads nowhere else.
-/

namespace Agentops

open LabelledRun

variable {Args Vector : Type} {required : Bool} {idle : ℕ} {s s' : MemorySystem Args Vector}
  {events : List (MemoryEvent Args Vector)}

/-- The customer in whose name an event comes in. -/
def MemoryEvent.actor (required : Bool) : MemoryEvent Args Vector → Option String
  | .chat authorization verified request =>
    (effectiveUserId (fun _ => verified) required authorization request).toOption
  | .endConversation authorization verified _ _ => (callerCustomer required authorization verified).toOption
  | _ => none

/-- The customer, if there is one, has no colon. -/
def MemoryEvent.Plain (required : Bool) (e : MemoryEvent Args Vector) : Prop :=
  ∀ u ∈ e.actor required, ':' ∉ u.toList

/-- Decided on the customer of the event. -/
instance (required : Bool) (e : MemoryEvent Args Vector) : Decidable (e.Plain required) :=
  inferInstanceAs (Decidable (∀ u ∈ e.actor required, ':' ∉ u.toList))

namespace MemorySystem

/-- No customer of a turn, of a call or of a row has a colon. -/
structure Plain (s : MemorySystem Args Vector) : Prop where
  turns : ∀ c ∈ s.conversations, ':' ∉ c.1.toList
  attempts : ∀ a ∈ s.attempts, ':' ∉ a.customerId.toList
  summaries : ∀ row ∈ s.summaries, ':' ∉ row.customerId.toList

/-- At first nobody has called. -/
theorem plain_initial : (initial : MemorySystem Args Vector).Plain := by
  constructor <;> simp [initial, conversations]

/-- A call for a customer whose id has no colon. -/
theorem Plain.summarise (h : s.Plain) {customerId : String} (threadId : String) (readable : Bool)
    (hcustomer : ':' ∉ customerId.toList) : (s.summarise customerId threadId readable).Plain := by
  refine { h with attempts := fun a ha => ?_ }
  rcases List.mem_append.mp ha with hold | hnew
  · exact h.attempts a hold
  · exact List.mem_singleton.mp hnew ▸ hcustomer

/-- A call that goes on stays the call of its customer. -/
theorem Plain.advance (h : s.Plain) (stage : AttemptStage) {k : ℕ} {attempt : SummaryAttempt Args}
    (hattempt : s.attempts[k]? = some attempt) : (s.advance k attempt stage).Plain := by
  refine { h with attempts := fun a ha => ?_ }
  rcases List.mem_or_eq_of_mem_set ha with hold | rfl
  · exact h.attempts a hold
  · exact h.attempts attempt (List.mem_of_getElem? hattempt)

/-- An event in the name of a customer without a colon brings no colon in. -/
theorem Plain.step (h : s.Plain) {e : MemoryEvent Args Vector} (hplain : e.Plain required)
    (hstep : memoryStep required idle s e = some s') : s'.Plain := by
  cases memoryStep_changes hstep with
  | touched authorization verified request userId huser =>
    have huser' : ':' ∉ userId.toList := hplain userId (by simp [MemoryEvent.actor, huser, Except.toOption])
    refine { h with turns := fun c hc => ?_ }
    simp only [conversations, List.map_append, List.map_cons, List.map_nil] at hc
    rcases List.mem_append.mp hc with hold | hnew
    · exact h.turns c hold
    · exact List.mem_singleton.mp hnew ▸ huser'
  | saved e i turn messages hturn _ =>
    exact ⟨fun c hc => h.turns c (conversations_save hturn messages ▸ hc), h.attempts, h.summaries⟩
  | ended authorization verified threadId readable customerId hcaller =>
    refine h.summarise threadId readable (hplain customerId ?_)
    simp [MemoryEvent.actor, hcaller, Except.toOption]
  | replied k content attempt hattempt _ => exact h.advance _ hattempt
  | stored k vector attempt summary hattempt _ =>
    refine { h.advance .stored hattempt with summaries := fun row hrow => ?_ }
    rcases KeyedTable.mem_upsert.mp hrow with rfl | ⟨hold, -⟩
    · exact h.attempts attempt (List.mem_of_getElem? hattempt)
    · exact h.summaries row hold
  | failed k attempt hattempt _ => exact h.advance _ hattempt
  | taken j readable sweep entry rest _ _ _ =>
    have hsummarised := h.summarise (partitionMember entry).2 readable (colon_notMem_partitionMember entry)
    exact { hsummarised with }
  | abandoned j sweep k attempt _ hattempt _ => exact { h.advance .cancelled hattempt with }
  | _ => exact { h with }

/-- A message that is found under a key of a customer without a colon is that customer's. -/
theorem Plain.of (h : s.Plain) {m : Entry Args} {u t : String} {commits : ℕ}
    (hof : m.Of s.conversations (conversationKey u t) commits) (hu : ':' ∉ u.toList) :
    (m.customerId, m.threadId) ∈ s.conversations ∧ m.customerId = u ∧ m.threadId = t :=
  ⟨hof.turn, conversationKey_injective_of_customers (h.turns _ hof.turn) hu hof.key⟩

end MemorySystem

section Isolation

open MemorySystem

/-- In every run in which no customer has a colon, the messages that a call of `summarise_and_store` has
read, and those that a stored row was computed from, are messages of turns on the customer and the thread
of the call and of the row. A sweep summarises conversations for the customers of their turns. A row goes
away only when a call for its own customer and thread stores another. And every result of a search is
about a row of the customer who searches. -/
theorem memory_isolated (hplain : ∀ e ∈ events, e.Plain required)
    (hrun : runFrom (memoryStep required idle) initial events = some s) :
    (∀ row ∈ s.summaries, row.messageCount = (transcript row.found).2 ∧ ∀ m ∈ row.found,
      (m.customerId, m.threadId) ∈ s.conversations ∧
        m.customerId = row.customerId ∧ m.threadId = row.threadId) ∧
    (∀ a ∈ s.attempts, ∀ m ∈ a.found, (m.customerId, m.threadId) ∈ s.conversations ∧
      m.customerId = a.customerId ∧ m.threadId = a.threadId) ∧
    (∀ sweep ∈ s.sweeps, ∀ k entry rest, sweep.stage = .summarising k entry rest →
      ∃ a, s.attempts[k]? = some a ∧ (a.customerId, a.threadId) ∈ s.conversations) ∧
    (∀ e s', memoryStep required idle s e = some s' → ∀ row ∈ s.summaries, row ∈ s'.summaries ∨
      ∃ k vector a, e = .embedded k vector ∧ s.attempts[k]? = some a ∧
        a.customerId = row.customerId ∧ a.threadId = row.threadId) ∧
    ∀ authorization verified plan distance vector limit results,
      conversationSearch required authorization verified plan distance vector limit s = .ok results →
      ∃ customerId, callerCustomer required authorization verified = .ok customerId ∧
        ∀ result ∈ results, ∃ row ∈ s.summaries, row.customerId = customerId ∧
          result = row.result distance vector := by
  have hsound := sound_of_run hrun
  have h : s.Plain := (StepsMeet.of_forall _ _ hplain).invariant _ Plain
    (fun _ _ _ hcond hs hstep => hs.step hcond hstep) hrun plain_initial
  refine ⟨fun row hrow => ?_, fun a ha m hm => ?_, fun sweep hsweep k entry rest hstage => ?_,
    fun e s' hstep row hrow => ?_,
    fun authorization verified plan distance vector limit results hsearch => ?_⟩
  · obtain ⟨hcount, hfound⟩ := hsound.summaries row hrow
    exact ⟨hcount, fun m hm => h.of (hfound m hm) (h.summaries row hrow)⟩
  · exact h.of (hsound.found a ha m hm) (h.attempts a ha)
  · obtain ⟨a, ha, hpair, hkey⟩ := hsound.sweeps sweep hsweep k entry rest hstage
    obtain ⟨c, hc, hentry⟩ := hsound.pending sweep hsweep entry (by simp [hstage, SweepStage.pending])
    obtain ⟨hcustomer, hthread⟩ := conversationKey_injective_of_customers
      (h.attempts a (List.mem_of_getElem? ha)) (h.turns c hc) (hkey.trans hentry)
    exact ⟨a, ha, hcustomer ▸ hthread ▸ hc⟩
  · cases memoryStep_changes hstep with
    | stored k vector attempt summary hattempt _ =>
      by_cases hkey : row.key = (attempt.customerId, attempt.threadId)
      · obtain ⟨hcustomer, hthread⟩ := Prod.mk.inj hkey
        exact .inr ⟨k, vector, attempt, rfl, hattempt, hcustomer.symm, hthread.symm⟩
      · exact .inl (KeyedTable.mem_upsert.mpr (.inr ⟨hrow, hkey⟩))
    | _ => exact .inl hrow
  · exact conversationSearch_eq_ok hsearch

/-- A turn of CUS-001 is summarised by a sweep while CUS-002 ends a thread that it calls `x:t1`. -/
def sweptTurn : List (MemoryEvent Unit ℕ) :=
  [.chat (some "Bearer token") (.ok ⟨"sub-1", none, some "CUS-001", none⟩) .aboutOrder,
    .begin 0, .commit 0 none (.ai { content := "It is on its way." }), .tick 301, .sweep, .range 0,
    .next 0 true,
    .endConversation (some "Bearer token") (.ok ⟨"sub-2", none, some "CUS-002", none⟩) "x:t1" true,
    .reply 0 (some "The customer asked where the order was."), .embedded 0 7, .remove 0]

/-- The row of CUS-001 was computed from its own two messages, and CUS-002 has read nothing. -/
theorem memory_isolated_sweptTurn :
    ∃ s row a, runFrom (memoryStep true 300) (initial : MemorySystem Unit ℕ) sweptTurn = some s ∧
      row ∈ s.summaries ∧ row.customerId = "CUS-001" ∧ row.found.length = 2 ∧
      (∀ m ∈ row.found, m.customerId = "CUS-001" ∧ m.threadId = "t1") ∧
      s.attempts[1]? = some a ∧ a.customerId = "CUS-002" ∧ a.threadId = "x:t1" ∧ a.found.length = 0 := by
  have hcomputed : (runFrom (memoryStep true 300) (initial : MemorySystem Unit ℕ) sweptTurn).map (fun s =>
      (s.summaries.head?.map fun row => (row.customerId, row.threadId, row.found.length),
        (s.attempts[1]?).map fun a => (a.customerId, a.threadId, a.found.length))) =
      some (some ("CUS-001", "t1", 2), some ("CUS-002", "x:t1", 0)) := by decide +kernel
  obtain ⟨s, hrun, hfacts⟩ := Option.map_eq_some_iff.mp hcomputed
  obtain ⟨hrow, hattempt⟩ := Prod.mk.inj hfacts
  obtain ⟨row, hhead, hrow⟩ := Option.map_eq_some_iff.mp hrow
  obtain ⟨a, ha, hattempt⟩ := Option.map_eq_some_iff.mp hattempt
  simp only [Prod.mk.injEq] at hrow hattempt
  obtain ⟨hcustomer, hthread, hlength⟩ := hrow
  have hmem := List.mem_of_mem_head? hhead
  have hown := ((memory_isolated (by decide +kernel) hrun).1 row hmem).2
  exact ⟨s, row, a, hrun, hmem, hcustomer, hlength,
    fun m hm => hcustomer ▸ hthread ▸ (hown m hm).2, ha, hattempt⟩

end Isolation

end Agentops
