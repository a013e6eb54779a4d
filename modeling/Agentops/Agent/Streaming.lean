import Agentops.Agent.Guardrails
import Agentops.Foundations.JsonText

/-!
# The streamed answer, `app/routes/agent.py`

`stream_llm_response` collects the text of a turn, strips it of reasoning, checks it and sends it in one
frame. What the graph streams, what the NeMo checks say and where an exception leaves the graph or a check
is arbitrary. An exception that `except Exception` does not catch, such as a cancellation, ends the stream
without a frame.
-/

namespace Agentops

open Backtracking

/-- `_THINK_BLOCK`. -/
def thinkBlock : Pattern Char :=
  .all [literal "<think>", .rep false 0 none (.one fun _ => true), literal "</think>"]

/-- `_THINK_OPEN`. -/
def thinkOpen : Pattern Char :=
  .all [literal "<think>", .rep true 0 none (.one fun _ => true),
    .check fun _ after => after = [] ∨ after = ['\n']]

/-- `strip_reasoning`. -/
def stripReasoning (text : String) : String :=
  stripText (String.ofList (thinkOpen.removeAll (thinkBlock.removeAll text.toList)))

/-- `USER_RESPONSE_GRAPH_NODES`. -/
def userResponseGraphNodes : List String :=
  ["order_tracking_agent", "order_actions_agent", "infrastructure_agent", "limit", "invalid"]

/-- The content of a message is a text or a list of blocks. -/
inductive ChunkContent
  | text (content : String)
  | blocks
  deriving DecidableEq, Repr

/-- A chunk of a message that the graph streams. -/
structure MessageChunk where
  isAIMessage : Bool
  content : ChunkContent
  deriving DecidableEq, Repr

/-- What comes with a chunk: the node that it is from. -/
structure ChunkMetadata where
  langgraphNode : Option String
  deriving DecidableEq, Repr

/-- What `astream` yields. -/
inductive GraphEvent
  | messages (chunk : MessageChunk) (metadata : Option ChunkMetadata)
  | other
  deriving DecidableEq, Repr

/-- The part of the answer that an event brings. -/
def responsePart : GraphEvent → Option String
  | .other => none
  | .messages chunk metadata =>
    let graphNode := metadata.bind ChunkMetadata.langgraphNode
    if ¬ chunk.isAIMessage then none
    else if graphNode.any fun node => node ≠ "" ∧ node ∉ userResponseGraphNodes then none
    else
      match chunk.content with
      | .text content => if content = "" then none else some content
      | .blocks => none

/-- An exception that `except Exception` catches, or another one. -/
inductive StreamException
  | ordinary
  | other
  deriving DecidableEq, Repr

/-- A NeMo check that is not enabled, that says whether it allows the text, or that raises. -/
inductive NemoCheck
  | disabled
  | verdict (allowed : Bool)
  | raises (exception : StreamException)
  deriving DecidableEq, Repr

/-- Whether an answer goes on after a check. -/
def NemoCheck.passes : NemoCheck → Except StreamException Bool
  | .disabled => .ok true
  | .verdict allowed => .ok allowed
  | .raises exception => .error exception

/-- The surroundings of a call. The graph may raise after it has yielded the events. -/
structure StreamRun where
  checkNemoInput : String → NemoCheck
  events : List GraphEvent
  graphException : Option StreamException
  checkNemoOutput : String → NemoCheck

/-- A frame of the stream. -/
inductive StreamFrame
  | message (content : String)
  | error (description : String)
  | done
  deriving DecidableEq, Repr

/-- `DONE_EVENT`. -/
def doneEvent : String := "event: done\ndata: {}\n\n"

/-- A frame as it is sent. -/
def StreamFrame.text : StreamFrame → String
  | .message content => "event: message\ndata: " ++ JsonText.dumpsField "content" content ++ "\n\n"
  | .error description => "event: error\ndata: " ++ JsonText.dumpsField "message" description ++ "\n\n"
  | .done => doneEvent

/-- The body of the response. -/
def responseBody (frames : List StreamFrame) : List UInt8 :=
  TextDecoder.utf8 (String.join (frames.map StreamFrame.text))

/-- The text of the error frame. -/
def modelUnavailableMessage : String := "The language model is currently unavailable."

/-- What a call does: the frames it yields, whether it runs the graph, and the exception that stopped it. -/
structure StreamOutcome where
  frames : List StreamFrame
  graphInvoked : Bool
  exception : Option StreamException
  deriving DecidableEq, Repr

/-- The handling of an exception. -/
def StreamOutcome.failed (exception : StreamException) (graphInvoked : Bool) : StreamOutcome where
  frames := if exception = .ordinary then [.error modelUnavailableMessage, .done] else []
  graphInvoked := graphInvoked
  exception := some exception

variable (isAlnum : Char → Bool)

/-- The checks on the message of the user. -/
def inputPasses (userMessage : String) (run : StreamRun) : Except StreamException Bool :=
  match validateInput isAlnum userMessage with
  | .error (.violation _) => .ok false
  | .error .valueError => .error .ordinary
  | .ok () => (run.checkNemoInput userMessage).passes

/-- The text of the answer, as far as the graph comes to its end. -/
def StreamRun.responseText (run : StreamRun) : Except StreamException String :=
  match run.graphException with
  | some exception => .error exception
  | none => .ok (stripReasoning (String.join (run.events.filterMap responsePart)))

/-- The text after `validate_output`. -/
def validatedText (responseText : String) : Except StreamException String :=
  match validateOutput isAlnum responseText with
  | .error (.violation _) => .ok outputBlockedMessage
  | .error .valueError => .error .ordinary
  | .ok () => .ok responseText

/-- The text after the NeMo check, which is not asked about the blocked message. -/
def nemoCheckedText (run : StreamRun) (responseText : String) : Except StreamException String :=
  if responseText = outputBlockedMessage then .ok responseText
  else do
    let passes ← (run.checkNemoOutput responseText).passes
    return if passes then responseText else outputBlockedMessage

/-- The text that is sent. -/
def deliveredText (run : StreamRun) : Except StreamException String := do
  let responseText ← run.responseText
  let responseText ← validatedText isAlnum responseText
  nemoCheckedText run responseText

/-- `stream_llm_response`. -/
def streamLlmResponse (userMessage : String) (run : StreamRun) : StreamOutcome :=
  match inputPasses isAlnum userMessage run with
  | .error exception => .failed exception false
  | .ok false => ⟨[.message inputBlockedMessage, .done], false, none⟩
  | .ok true =>
    match deliveredText isAlnum run with
    | .error exception => .failed exception true
    | .ok responseText =>
      ⟨(if responseText = "" then [] else [.message responseText]) ++ [.done], true, none⟩

variable {isAlnum} {userMessage : String} {run : StreamRun}

/-- An answer goes on after a check that is not enabled or that allows the text. -/
theorem NemoCheck.passes_eq_true {check : NemoCheck} :
    check.passes = .ok true ↔ check = .disabled ∨ check = .verdict true := by
  cases check <;> simp [NemoCheck.passes]

/-- The graph is run for messages that every check lets through. -/
theorem inputPasses_eq_true (h : inputPasses isAlnum userMessage run = .ok true) :
    validateInput isAlnum userMessage = .ok () ∧
      (run.checkNemoInput userMessage = .disabled ∨ run.checkNemoInput userMessage = .verdict true) := by
  unfold inputPasses at h
  split at h
  · exact absurd h (by simp)
  · exact absurd h (by simp)
  · next hvalid => exact ⟨hvalid, NemoCheck.passes_eq_true.mp h⟩

/-- A text that may be sent: the blocked message, or one that the output check lets through. -/
def MaySend (isAlnum : Char → Bool) (text : String) : Prop :=
  text = outputBlockedMessage ∨ validateOutput isAlnum text = .ok ()

/-- What is left after `validate_output` may be sent. -/
theorem maySend_of_validatedText {text sent : String} (h : validatedText isAlnum text = .ok sent) :
    MaySend isAlnum sent := by
  unfold validatedText at h
  split at h
  · obtain rfl : outputBlockedMessage = sent := Except.ok.inj h
    exact .inl rfl
  · exact absurd h (by simp)
  · next hvalid =>
    obtain rfl : text = sent := Except.ok.inj h
    exact .inr hvalid

/-- The NeMo check leaves the text as it is or replaces it as a whole. -/
theorem eq_or_eq_of_nemoCheckedText {text sent : String} (h : nemoCheckedText run text = .ok sent) :
    sent = text ∨ sent = outputBlockedMessage := by
  unfold nemoCheckedText at h
  split at h
  · exact .inl (Except.ok.inj h).symm
  · cases hpasses : (run.checkNemoOutput text).passes with
    | error exception => simp [hpasses, bind, Except.bind] at h
    | ok passes =>
      rw [hpasses] at h
      obtain rfl : (if passes then text else outputBlockedMessage) = sent := Except.ok.inj h
      cases passes
      · exact .inr rfl
      · exact .inl rfl

/-- The text that is sent is the whole text of a graph run that came to its end, after both checks. -/
theorem deliveredText_eq_ok {sent : String} (h : deliveredText isAlnum run = .ok sent) :
    run.graphException = none ∧ MaySend isAlnum sent := by
  unfold deliveredText StreamRun.responseText at h
  cases hgraph : run.graphException with
  | some exception => simp [hgraph, bind, Except.bind] at h
  | none =>
    simp only [hgraph, bind, Except.bind] at h
    split at h
    · exact absurd h (by simp)
    · next validated hvalidated =>
      have hmay := maySend_of_validatedText hvalidated
      rcases eq_or_eq_of_nemoCheckedText h with rfl | rfl
      · exact ⟨rfl, hmay⟩
      · exact ⟨rfl, .inl rfl⟩

/-- The courses that a call can take. -/
inductive StreamTakes (isAlnum : Char → Bool) (userMessage : String) (run : StreamRun) :
    StreamOutcome → Prop
  | inputBlocked (hinput : inputPasses isAlnum userMessage run = .ok false) :
      StreamTakes isAlnum userMessage run ⟨[.message inputBlockedMessage, .done], false, none⟩
  | inputFailed (exception : StreamException)
      (hinput : inputPasses isAlnum userMessage run = .error exception) :
      StreamTakes isAlnum userMessage run (.failed exception false)
  | answerFailed (exception : StreamException) (hinput : inputPasses isAlnum userMessage run = .ok true)
      (hanswer : deliveredText isAlnum run = .error exception) :
      StreamTakes isAlnum userMessage run (.failed exception true)
  | empty (hinput : inputPasses isAlnum userMessage run = .ok true)
      (hanswer : deliveredText isAlnum run = .ok "") :
      StreamTakes isAlnum userMessage run ⟨[.done], true, none⟩
  | delivered (content : String) (hinput : inputPasses isAlnum userMessage run = .ok true)
      (hanswer : deliveredText isAlnum run = .ok content) (hcontent : content ≠ "") :
      StreamTakes isAlnum userMessage run ⟨[.message content, .done], true, none⟩

variable (isAlnum userMessage run)

/-- A call takes one of these courses. -/
theorem streamTakes : StreamTakes isAlnum userMessage run (streamLlmResponse isAlnum userMessage run) := by
  unfold streamLlmResponse
  split
  · next exception hinput => exact .inputFailed exception hinput
  · next hinput => exact .inputBlocked hinput
  · next hinput =>
    split
    · next exception hanswer => exact .answerFailed exception hinput hanswer
    · next content hanswer =>
      by_cases hcontent : content = ""
      · subst hcontent
        exact .empty hinput hanswer
      · rw [if_neg hcontent]
        exact .delivered content hinput hanswer hcontent

variable {isAlnum userMessage run}

/-- A call that an exception stopped sends no text. -/
theorem message_notMem_failed (exception : StreamException) (graphInvoked : Bool) (content : String) :
    .message content ∉ (StreamOutcome.failed exception graphInvoked).frames := by
  cases exception <;> simp [StreamOutcome.failed]

variable {outcome : StreamOutcome}

/-- The frames of a call: a message, or nothing, or the report of an exception. -/
theorem StreamTakes.frames_eq (h : StreamTakes isAlnum userMessage run outcome) :
    (∃ content, content ≠ "" ∧ outcome.frames = [.message content, .done] ∧ outcome.exception = none) ∨
    (outcome.frames = [.done] ∧ outcome.exception = none) ∨
    (outcome.frames = [.error modelUnavailableMessage, .done] ∧ outcome.exception = some .ordinary) ∨
    (outcome.frames = [] ∧ outcome.exception = some .other) := by
  cases h with
  | inputBlocked hinput => exact .inl ⟨inputBlockedMessage, by decide, rfl, rfl⟩
  | inputFailed exception hinput =>
    cases exception with
    | ordinary => exact .inr (.inr (.inl ⟨rfl, rfl⟩))
    | other => exact .inr (.inr (.inr ⟨rfl, rfl⟩))
  | answerFailed exception hinput hanswer =>
    cases exception with
    | ordinary => exact .inr (.inr (.inl ⟨rfl, rfl⟩))
    | other => exact .inr (.inr (.inr ⟨rfl, rfl⟩))
  | empty hinput hanswer => exact .inr (.inl ⟨rfl, rfl⟩)
  | delivered content hinput hanswer hcontent => exact .inl ⟨content, hcontent, rfl, rfl⟩

/-- A text in a message frame is a blocked message or has passed the output check. -/
theorem StreamTakes.content_checked (h : StreamTakes isAlnum userMessage run outcome) {content : String}
    (hcontent : .message content ∈ outcome.frames) :
    content = inputBlockedMessage ∨ content = outputBlockedMessage ∨
      (validateOutput isAlnum content = .ok () ∧ content.length ≤ maxOutputLength ∧
        containsSensitiveData isAlnum content = .ok false) := by
  cases h with
  | inputBlocked hinput =>
    left
    simpa using hcontent
  | inputFailed exception hinput => exact absurd hcontent (message_notMem_failed exception _ _)
  | answerFailed exception hinput hanswer => exact absurd hcontent (message_notMem_failed exception _ _)
  | empty hinput hanswer => simp at hcontent
  | delivered sent hinput hanswer hsent =>
    obtain rfl : content = sent := by simpa using hcontent
    rcases (deliveredText_eq_ok hanswer).2 with hblocked | hvalid
    · exact .inr (.inl hblocked)
    · exact .inr (.inr ⟨hvalid, (validateOutput_eq_ok isAlnum).mp hvalid⟩)

/-- An interrupted answer is not sent, not even in part. -/
theorem StreamTakes.nothing_sent (h : StreamTakes isAlnum userMessage run outcome)
    (hexception : outcome.exception.isSome) (content : String) : .message content ∉ outcome.frames := by
  cases h with
  | inputBlocked hinput => simp at hexception
  | inputFailed exception hinput => exact message_notMem_failed exception _ _
  | answerFailed exception hinput hanswer => exact message_notMem_failed exception _ _
  | empty hinput hanswer => simp at hexception
  | delivered sent hinput hanswer hsent => simp at hexception

/-- An exception of the graph stops the call. -/
theorem StreamTakes.graph_exception (h : StreamTakes isAlnum userMessage run outcome)
    (hinvoked : outcome.graphInvoked = true) (hgraph : run.graphException.isSome) :
    outcome.exception = run.graphException := by
  obtain ⟨raised, hraised⟩ := Option.isSome_iff_exists.mp hgraph
  have hanswer : deliveredText isAlnum run = .error raised := by
    simp [deliveredText, StreamRun.responseText, hraised, bind, Except.bind]
  cases h with
  | inputBlocked hinput => simp at hinvoked
  | inputFailed exception hinput => simp [StreamOutcome.failed] at hinvoked
  | answerFailed exception hinput hfailed =>
    obtain rfl : exception = raised := Except.error.inj (hfailed.symm.trans hanswer)
    exact hraised.symm
  | empty hinput hempty => simp [hanswer] at hempty
  | delivered sent hinput hdelivered hsent => simp [hanswer] at hdelivered

/-- The graph is run only after the checks on the message. -/
theorem StreamTakes.input_passed (h : StreamTakes isAlnum userMessage run outcome)
    (hinvoked : outcome.graphInvoked = true) : inputPasses isAlnum userMessage run = .ok true := by
  cases h with
  | inputBlocked hinput => simp at hinvoked
  | inputFailed exception hinput => simp [StreamOutcome.failed] at hinvoked
  | answerFailed exception hinput hanswer => exact hinput
  | empty hinput hanswer => exact hinput
  | delivered sent hinput hanswer hsent => exact hinput

variable (isAlnum userMessage run)

/-- Nothing unchecked is streamed. Every text in a message frame is one of the two blocked messages or has
itself passed the output check, nothing is sent of an answer that an exception interrupted, and the graph
is run only for messages that passed the input checks. -/
theorem streamed_checked :
    (∀ content, .message content ∈ (streamLlmResponse isAlnum userMessage run).frames →
      content = inputBlockedMessage ∨ content = outputBlockedMessage ∨
        (validateOutput isAlnum content = .ok () ∧ content.length ≤ maxOutputLength ∧
          containsSensitiveData isAlnum content = .ok false)) ∧
    ((streamLlmResponse isAlnum userMessage run).exception.isSome →
      ∀ content, .message content ∉ (streamLlmResponse isAlnum userMessage run).frames) ∧
    ((streamLlmResponse isAlnum userMessage run).graphInvoked = true → run.graphException.isSome →
      (streamLlmResponse isAlnum userMessage run).exception = run.graphException) ∧
    ((streamLlmResponse isAlnum userMessage run).graphInvoked = true →
      validateInput isAlnum userMessage = .ok () ∧
        (run.checkNemoInput userMessage = .disabled ∨ run.checkNemoInput userMessage = .verdict true)) := by
  have htakes := streamTakes isAlnum userMessage run
  refine ⟨fun content hcontent => htakes.content_checked hcontent, htakes.nothing_sent,
    htakes.graph_exception, fun hinvoked => ?_⟩
  exact inputPasses_eq_true (htakes.input_passed hinvoked)

/-- A run of the graph that streams the parts in order. -/
def StreamRun.ofParts (parts : List String) : StreamRun where
  checkNemoInput _ := .disabled
  events := parts.map fun part => .messages ⟨true, .text part⟩ none
  graphException := none
  checkNemoOutput _ := .disabled

example :
    (streamLlmResponse Char.isAlphanum "Where is my order?"
        (.ofParts ["<think>", "no", "</THINK> On its", " way. "])).frames =
      [.message "On its way.", .done] ∧
    (streamLlmResponse Char.isAlphanum "Where is my order?"
        (.ofParts ["api_<thi", "nk></think>key", "=do-not-expose"])).frames =
      [.message outputBlockedMessage, .done] := by decide +kernel

end Agentops
