import Agentops.Agent.Reasoning
import Agentops.Memory.Provenance
import Agentops.Memory.Search

/-!
# Guards on the texts that models write

A text that a model has written reaches the customer by the chat stream, as the summary that
`end_conversation` returns, and as the summary of a row that a search finds. The chat stream removes reasoning
from it and checks it. A summary is stored and returned as the model has written it, stripped of blanks.
-/

namespace Agentops

open LabelledRun

variable {Args Vector : Type} (isAlnum : Char → Bool)

/-- The text has passed the guards of the chat stream: it is the blocked message, or a text that
`strip_reasoning` leaves as it is and `validate_output` lets through. -/
def Guarded (text : String) : Prop :=
  text = outputBlockedMessage ∨ (stripReasoning text = text ∧ validateOutput isAlnum text = .ok ())

/-- The summary that the model's answer is taken for. -/
def summaryOf (content : Option String) : String := (content.map stripText).getD ""

/-- If the model writes a summary in this event, it is one that the guards would let through. -/
def MemoryEvent.GuardedReply : MemoryEvent Args Vector → Prop
  | .reply _ content => summaryOf content ≠ "" → Guarded isAlnum (summaryOf content)
  | _ => True

namespace MemorySystem

/-- The summary that a call of `summarise_and_store` returns in an event. -/
def returnedSummary (s : MemorySystem Args Vector) : MemoryEvent Args Vector → Option String
  | .embedded k _ =>
    match s.attempts[k]? with
    | some attempt =>
      match attempt.stage with
      | .embedding summary => some summary
      | _ => none
    | none => none
  | _ => none

/-- The summaries that are returned in a run. -/
def returnedSummaries (required : Bool) (idle : ℕ) :
    MemorySystem Args Vector → List (MemoryEvent Args Vector) → List String
  | _, [] => []
  | s, e :: events =>
    (s.returnedSummary e).toList ++
      ((memoryStep required idle s e).map (returnedSummaries required idle · events)).getD []

/-- The summaries that are stored or wait for their embedding have passed the guards. -/
structure GuardedSummaries (s : MemorySystem Args Vector) : Prop where
  stored : ∀ row ∈ s.summaries, Guarded isAlnum row.summary
  waiting : ∀ attempt ∈ s.attempts, ∀ summary, attempt.stage = .embedding summary → Guarded isAlnum summary

variable {isAlnum} {required : Bool} {idle : ℕ} {s s' : MemorySystem Args Vector}

theorem guardedSummaries_initial : (initial : MemorySystem Args Vector).GuardedSummaries isAlnum :=
  ⟨fun _ h => absurd h List.not_mem_nil, fun _ h => absurd h List.not_mem_nil⟩

/-- A call that goes on to a stage without a summary changes nothing for the others. -/
theorem GuardedSummaries.advance (h : s.GuardedSummaries isAlnum) {k : ℕ} (attempt : SummaryAttempt Args)
    (stage : AttemptStage) (hstage : ∀ summary, stage = .embedding summary → Guarded isAlnum summary) :
    (s.advance k attempt stage).GuardedSummaries isAlnum := by
  refine ⟨h.stored, fun a ha summary hsummary => ?_⟩
  rcases List.mem_or_eq_of_mem_set ha with hold | rfl
  · exact h.waiting a hold summary hsummary
  · exact hstage summary hsummary

theorem GuardedSummaries.summarise (h : s.GuardedSummaries isAlnum) (customerId threadId : String)
    (readable : Bool) : (s.summarise customerId threadId readable).GuardedSummaries isAlnum := by
  refine ⟨h.stored, fun a ha summary hsummary => ?_⟩
  rcases List.mem_append.mp ha with hold | hnew
  · exact h.waiting a hold summary hsummary
  · obtain rfl := List.mem_singleton.mp hnew
    simp only at hsummary
    split_ifs at hsummary

/-- A row is stored with the summary that waited for its embedding. -/
theorem GuardedSummaries.store (h : s.GuardedSummaries isAlnum) {k : ℕ} {attempt : SummaryAttempt Args}
    {summary : String} (hattempt : s.attempts[k]? = some attempt) (hstage : attempt.stage = .embedding summary)
    (vector : Vector) : (s.saveConversationSummary k attempt summary vector).GuardedSummaries isAlnum := by
  refine ⟨fun row hrow => ?_, (h.advance attempt .stored (by simp)).waiting⟩
  rcases KeyedTable.mem_upsert.mp hrow with rfl | ⟨hold, -⟩
  · exact h.waiting attempt (List.mem_of_getElem? hattempt) summary hstage
  · exact h.stored row hold

/-- Every event keeps that, if what the model writes in it would pass the guards. -/
theorem GuardedSummaries.step (h : s.GuardedSummaries isAlnum) {e : MemoryEvent Args Vector}
    (he : e.GuardedReply isAlnum) (hstep : memoryStep required idle s e = some s') :
    s'.GuardedSummaries isAlnum := by
  cases memoryStep_changes hstep with
  | replied k content attempt hattempt hstage =>
    refine h.advance attempt _ fun summary hsummary => ?_
    split_ifs at hsummary with hempty
    obtain rfl := AttemptStage.embedding.inj hsummary
    exact he hempty
  | stored k vector attempt summary hattempt hstage => exact h.store hattempt hstage vector
  | failed k attempt hattempt hover => exact h.advance attempt .failed (by simp)
  | abandoned j sweep k attempt hsweep hattempt hover =>
    have hcancelled := h.advance (k := k) attempt .cancelled (by simp)
    exact ⟨hcancelled.stored, hcancelled.waiting⟩
  | ended authorization verified threadId readable customerId hcaller => exact h.summarise _ _ _
  | taken j readable sweep entry rest hsweep hstage hthread =>
    have hsummarised := h.summarise (partitionMember entry).1 (partitionMember entry).2 readable
    exact ⟨hsummarised.stored, hsummarised.waiting⟩
  | _ => exact ⟨h.stored, h.waiting⟩

/-- A summary that is returned waited for its embedding. -/
theorem GuardedSummaries.returned (h : s.GuardedSummaries isAlnum) {e : MemoryEvent Args Vector} {summary : String}
    (hsummary : s.returnedSummary e = some summary) : Guarded isAlnum summary := by
  cases e with
  | embedded k vector =>
    cases hattempt : s.attempts[k]? with
    | none => simp [returnedSummary, hattempt] at hsummary
    | some attempt =>
      cases hstage : attempt.stage with
      | embedding waiting =>
        simp only [returnedSummary, hattempt, hstage, Option.some.injEq] at hsummary
        exact hsummary ▸ h.waiting attempt (List.mem_of_getElem? hattempt) waiting hstage
      | _ => simp [returnedSummary, hattempt, hstage] at hsummary
  | _ => cases hsummary

/-- All that a run returns has passed the guards. -/
theorem GuardedSummaries.returnedSummaries (h : s.GuardedSummaries isAlnum)
    {events : List (MemoryEvent Args Vector)} (hevents : ∀ e ∈ events, e.GuardedReply isAlnum) :
    ∀ summary ∈ s.returnedSummaries required idle events, Guarded isAlnum summary := by
  induction events generalizing s with
  | nil => simp [MemorySystem.returnedSummaries]
  | cons e events ih =>
    intro summary hsummary
    rcases List.mem_append.mp hsummary with hnow | hlater
    · exact h.returned (Option.mem_toList.mp hnow)
    · cases hstep : memoryStep required idle s e with
      | none => simp [hstep] at hlater
      | some mid =>
        have hmid := h.step (hevents e List.mem_cons_self) hstep
        exact ih hmid (fun e he => hevents e (List.mem_cons_of_mem _ he)) summary (by simpa [hstep] using hlater)

end MemorySystem

section Texts

variable {isAlnum : Char → Bool} {userMessage content sent : String} {run : StreamRun}

/-- A text that is sent is stripped, or blocked. -/
theorem guarded_of_deliveredText (h : deliveredText isAlnum run = .ok sent) : Guarded isAlnum sent := by
  obtain ⟨hgraph, hmay⟩ := deliveredText_eq_ok h
  have hresponse : run.responseText = .ok (stripReasoning (String.join (run.events.filterMap responsePart))) := by
    simp [StreamRun.responseText, hgraph]
  rcases hmay with hblocked | hvalid
  · exact .inl hblocked
  · unfold deliveredText at h
    rw [hresponse] at h
    cases hvalidated : validatedText isAlnum (stripReasoning (String.join (run.events.filterMap responsePart))) with
    | error exception => simp [hvalidated, bind, Except.bind] at h
    | ok validated =>
      have hchecked : nemoCheckedText run validated = .ok sent := by
        simpa only [hvalidated, bind, Except.bind] using h
      rcases eq_or_eq_of_nemoCheckedText hchecked with rfl | hblocked
      · unfold validatedText at hvalidated
        split at hvalidated
        · exact .inl (Except.ok.inj hvalidated).symm
        · exact absurd hvalidated (by simp)
        · obtain rfl := Except.ok.inj hvalidated
          exact .inr ⟨stripReasoning_stripReasoning _, hvalid⟩
      · exact .inl hblocked

/-- What the chat stream sends is the refusal of the message, or has passed the guards. -/
theorem guarded_of_message (h : .message content ∈ (streamLlmResponse isAlnum userMessage run).frames) :
    content = inputBlockedMessage ∨ Guarded isAlnum content := by
  have htakes := streamTakes isAlnum userMessage run
  generalize streamLlmResponse isAlnum userMessage run = outcome at h htakes
  cases htakes with
  | inputBlocked hinput => exact .inl (by simpa using h)
  | inputFailed exception hinput => exact absurd h (message_notMem_failed exception _ _)
  | answerFailed exception hinput hanswer => exact absurd h (message_notMem_failed exception _ _)
  | empty hinput hanswer => simp at h
  | delivered sent hinput hanswer hsent =>
    obtain rfl : content = sent := by simpa using h
    exact .inr (guarded_of_deliveredText hanswer)

end Texts

section Runs

variable {required : Bool} {idle : ℕ} {events : List (MemoryEvent Args Vector)} {s : MemorySystem Args Vector}

open MemorySystem

/-- In every run in which the model writes only summaries that the guards would let through, every text that a
model has written and a customer receives has passed the guards: the summaries that are returned, those that
searches find, and whatever the chat stream sends. -/
theorem returned_texts_guarded (hevents : ∀ e ∈ events, e.GuardedReply isAlnum)
    (hrun : runFrom (memoryStep required idle) initial events = some s) :
    (∀ summary ∈ (initial : MemorySystem Args Vector).returnedSummaries required idle events,
      Guarded isAlnum summary) ∧
    (∀ authorization verified plan distance (vector : Vector) limit results,
      conversationSearch required authorization verified plan distance vector limit s = .ok results →
        ∀ result ∈ results, Guarded isAlnum result.summary) ∧
    ∀ userMessage run content, .message content ∈ (streamLlmResponse isAlnum userMessage run).frames →
      content = inputBlockedMessage ∨ Guarded isAlnum content := by
  have hguarded : s.GuardedSummaries isAlnum :=
    (StepsMeet.of_forall _ _ hevents).invariant _ (GuardedSummaries isAlnum)
      (fun _ _ _ he h hstep => h.step he hstep) hrun guardedSummaries_initial
  refine ⟨guardedSummaries_initial.returnedSummaries hevents, ?_, fun _ _ _ => guarded_of_message⟩
  intro authorization verified plan distance vector limit results hsearch result hresult
  obtain ⟨customerId, -, hresults⟩ := conversationSearch_eq_ok hsearch
  obtain ⟨row, hrow, -, rfl⟩ := hresults result hresult
  exact hguarded.stored row hrow

/-- A customer ends a conversation, for which the model writes the summary. -/
def endedTurn (summary : String) : List (MemoryEvent Unit ℕ) :=
  [.chat (some "Bearer token") (.ok ⟨"sub-1", none, some "CUS-001", none⟩) .aboutOrder,
    .begin 0, .commit 0 none (.ai { content := "It is on its way." }),
    .endConversation (some "Bearer token") (.ok ⟨"sub-1", none, some "CUS-001", none⟩) "t1" true,
    .reply 0 (some summary), .embedded 0 7]

/-- A summary without reasoning or sensitive data is returned as it is written. -/
theorem returned_texts_guarded_endedTurn :
    "The customer asked about ORD-1001." ∈
        (initial : MemorySystem Unit ℕ).returnedSummaries true 300 (endedTurn "The customer asked about ORD-1001.") ∧
      Guarded Char.isAlphanum "The customer asked about ORD-1001." := by
  have hcomputed : (runFrom (memoryStep true 300) (initial : MemorySystem Unit ℕ)
      (endedTurn "The customer asked about ORD-1001.")).isSome := by decide +kernel
  obtain ⟨s, hrun⟩ := Option.isSome_iff_exists.mp hcomputed
  have hguarded : Guarded Char.isAlphanum "The customer asked about ORD-1001." :=
    .inr ⟨by decide +kernel, by decide +kernel⟩
  have hreturned : "The customer asked about ORD-1001." ∈ (initial : MemorySystem Unit ℕ).returnedSummaries true 300
      (endedTurn "The customer asked about ORD-1001.") := by decide +kernel
  have hevents : ∀ e ∈ endedTurn "The customer asked about ORD-1001.", e.GuardedReply Char.isAlphanum := by
    have hsummary : summaryOf (some "The customer asked about ORD-1001.") = "The customer asked about ORD-1001." := by
      decide +kernel
    simp only [endedTurn, List.forall_mem_cons, MemoryEvent.GuardedReply, hsummary]
    simp [hguarded]
  exact ⟨hreturned, (returned_texts_guarded Char.isAlphanum hevents hrun).1 _ hreturned⟩

/-- A summary with a password behind a block of reasoning is returned and found as it is written. -/
theorem returned_text_unguarded :
    ∃ s, runFrom (memoryStep true 300) (initial : MemorySystem Unit ℕ)
        (endedTurn "<think>No.</think>The password: hunter2") = some s ∧
      "<think>No.</think>The password: hunter2" ∈ (initial : MemorySystem Unit ℕ).returnedSummaries true 300
        (endedTurn "<think>No.</think>The password: hunter2") ∧
      (∃ results result, conversationSearch true (some "Bearer token") (.ok ⟨"sub-1", none, some "CUS-001", none⟩)
          .scan (fun _ _ => 0) 7 5 s = .ok results ∧
        result ∈ results ∧ result.summary = "<think>No.</think>The password: hunter2") ∧
      stripReasoning "<think>No.</think>The password: hunter2" ≠ "<think>No.</think>The password: hunter2" ∧
      ¬ Guarded Char.isAlphanum "<think>No.</think>The password: hunter2" := by
  have hcomputed : (runFrom (memoryStep true 300) (initial : MemorySystem Unit ℕ)
      (endedTurn "<think>No.</think>The password: hunter2")).map (fun s =>
        s.summaries.map fun row => (row.customerId, row.summary)) =
      some [("CUS-001", "<think>No.</think>The password: hunter2")] := by decide +kernel
  obtain ⟨s, hrun, hrows⟩ := Option.map_eq_some_iff.mp hcomputed
  obtain ⟨row, hrow, hfacts⟩ := List.map_eq_singleton_iff.mp hrows
  obtain ⟨hcustomer, hsummary⟩ := Prod.mk.inj hfacts
  have hchanged : stripReasoning "<think>No.</think>The password: hunter2" ≠
      "<think>No.</think>The password: hunter2" := by decide +kernel
  refine ⟨s, hrun, by decide +kernel, ?_, hchanged, ?_⟩
  · have hcaller : callerCustomer true (some "Bearer token") (.ok ⟨"sub-1", none, some "CUS-001", none⟩) =
        .ok "CUS-001" := by decide +kernel
    refine ⟨[row.result (fun _ _ => 0) 7], row.result (fun _ _ => 0) 7, ?_, List.mem_singleton_self _, hsummary⟩
    simp [conversationSearch, hcaller, search, searchConversationSummaries, nearest, hrow, hcustomer]
  · rintro (hblocked | ⟨hsame, -⟩)
    · exact absurd hblocked (by decide +kernel)
    · exact hchanged hsame

end Runs

end Agentops
