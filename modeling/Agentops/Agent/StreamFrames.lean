import Agentops.Foundations.Generator
import Agentops.Frontend.ReplyDecoding

/-!
# The frames of a stream

`stream_llm_response` statement by statement: two early returns that send the terminator themselves, a handler
for exceptions, and the terminator behind the clean-up. The frames of every course that a call can take end
with one terminator, and each is one event line, one line of JSON and a blank line.
-/

namespace Agentops

open Generators

/-- What is raised in a call. -/
inductive Raise
  | guardrailViolation (reason : String)
  | exception (exception : StreamException)
  deriving DecidableEq, Repr

/-- `except Exception`. -/
def Raise.isException : Raise → Bool
  | .guardrailViolation _ => true
  | .exception raised => raised = .ordinary

/-- What is raised when a guardrail does not let a text pass. -/
def Raise.ofGuardrail : GuardFailure → Raise
  | .violation reason => .guardrailViolation reason
  | .valueError => .exception .ordinary

/-- A block of `stream_llm_response`. -/
abbrev StreamBlock (A : Type) := Block StreamFrame Raise A

open Block

/-- A check of the guardrails. -/
def checkWith (result : Except GuardFailure Unit) : StreamBlock Unit :=
  match result with
  | .ok () => pure ()
  | .error exception => raise (.ofGuardrail exception)

/-- `not nemo_guardrails_enabled() or await check(text)`. -/
def nemoAllows (check : NemoCheck) : StreamBlock Bool :=
  match check with
  | .disabled => pure true
  | .verdict allowed => pure allowed
  | .raises exception => raise (.exception exception)

/-- The loop over the events of the graph. -/
def responseParts (run : StreamRun) : StreamBlock (List String) :=
  match run.graphException with
  | none => pure (run.events.filterMap responsePart)
  | some exception => raise (.exception exception)

/-- The frames of a blocked message, and the return. -/
def refuseInput {A : Type} : StreamBlock A := do
  yield (.message inputBlockedMessage)
  yield .done
  leave

/-- `except GuardrailViolation`. -/
def exceptViolation {A : Type} (body handler : StreamBlock A) : StreamBlock A :=
  body.tryExcept fun
    | .guardrailViolation _ => some handler
    | .exception _ => none

variable (isAlnum : Char → Bool)

/-- The statements of the outer `try` before the graph is run. -/
def inputChecks (userMessage : String) (run : StreamRun) : StreamBlock Unit := do
  exceptViolation (checkWith (validateInput isAlnum userMessage)) refuseInput
  let allowed ← nemoAllows (run.checkNemoInput userMessage)
  if allowed then pure () else refuseInput

/-- The text after `validate_output` and its handler. -/
def outputValidated (responseText : String) : StreamBlock String :=
  exceptViolation (do
      checkWith (validateOutput isAlnum responseText)
      pure responseText)
    (pure outputBlockedMessage)

/-- The text after the NeMo check of it. -/
def outputNemoChecked (run : StreamRun) (responseText : String) : StreamBlock String :=
  if responseText = outputBlockedMessage then pure responseText
  else do
    let allowed ← nemoAllows (run.checkNemoOutput responseText)
    pure (if allowed then responseText else outputBlockedMessage)

/-- The statements that run the graph and check its answer. -/
def checkedAnswer (run : StreamRun) : StreamBlock String := do
  let parts ← responseParts run
  let responseText ← outputValidated isAlnum (stripReasoning (String.join parts))
  outputNemoChecked run responseText

/-- The statements of the outer `try`. -/
def answerStream (userMessage : String) (run : StreamRun) : StreamBlock Unit := do
  inputChecks isAlnum userMessage run
  let responseText ← checkedAnswer isAlnum run
  if responseText = "" then pure () else yield (.message responseText)

/-- `stream_llm_response` with its handlers. -/
def streamGenerator (userMessage : String) (run : StreamRun) : StreamBlock Unit := do
  ((answerStream isAlnum userMessage run).tryExcept fun raised =>
      if raised.isException then some (yield (.error modelUnavailableMessage)) else none).tryFinally (pure ())
  yield .done

/-- What a block raises that comes to an exception. -/
def ofExcept {A : Type} : Except StreamException A → StreamBlock A
  | .ok value => pure value
  | .error exception => raise (.exception exception)

section Blocks

variable (userMessage : String) (run : StreamRun)

/-- The checks of NeMo raise what they come to. -/
theorem nemoAllows_eq (check : NemoCheck) : nemoAllows check = ofExcept check.passes := by
  cases check <;> rfl

/-- The checks of the message pass, refuse it or raise. -/
theorem inputChecks_eq : inputChecks isAlnum userMessage run =
    (ofExcept (inputPasses isAlnum userMessage run) >>= fun passes => if passes then pure () else refuseInput) := by
  unfold inputChecks inputPasses exceptViolation
  cases hvalid : validateInput isAlnum userMessage with
  | error failure => cases failure <;> rfl
  | ok _ => rw [nemoAllows_eq]; rfl

/-- What follows a result follows it inside the block. -/
theorem ofExcept_bind {A B : Type} (result : Except StreamException A) (f : A → Except StreamException B) :
    ofExcept (result >>= f) = (ofExcept result >>= fun value => ofExcept (f value)) := by
  cases result <;> rfl

/-- The validation of an answer raises what it comes to. -/
theorem outputValidated_eq (responseText : String) :
    outputValidated isAlnum responseText = ofExcept (validatedText isAlnum responseText) := by
  unfold outputValidated validatedText exceptViolation
  cases validateOutput isAlnum responseText with
  | error failure => cases failure <;> rfl
  | ok _ => rfl

/-- And so does the check of an answer. -/
theorem outputNemoChecked_eq (responseText : String) :
    outputNemoChecked run responseText = ofExcept (nemoCheckedText run responseText) := by
  unfold outputNemoChecked nemoCheckedText
  split_ifs with hblocked
  · rfl
  · rw [ofExcept_bind, nemoAllows_eq]
    rfl

/-- The answer of the graph after the checks is the text that is delivered. -/
theorem checkedAnswer_eq : checkedAnswer isAlnum run = ofExcept (deliveredText isAlnum run) := by
  have hparts : (responseParts run >>= fun parts => outputValidated isAlnum (stripReasoning (String.join parts))
      >>= outputNemoChecked run) = (ofExcept run.responseText >>= fun stripped =>
        outputValidated isAlnum stripped >>= outputNemoChecked run) := by
    unfold responseParts StreamRun.responseText
    cases run.graphException <;> rfl
  have hchecked : ∀ stripped, (outputValidated isAlnum stripped >>= outputNemoChecked run) =
      ofExcept (validatedText isAlnum stripped >>= nemoCheckedText run) := by
    intro stripped
    rw [ofExcept_bind, outputValidated_eq]
    congr 1
    funext responseText
    exact outputNemoChecked_eq run responseText
  rw [checkedAnswer, hparts, deliveredText, ofExcept_bind]
  congr 1
  funext stripped
  exact hchecked stripped

/-- The statements yield the frames of the call. -/
theorem yields_streamGenerator :
    (streamGenerator isAlnum userMessage run).yields = (streamLlmResponse isAlnum userMessage run).frames := by
  rw [streamGenerator, answerStream, inputChecks_eq, checkedAnswer_eq, streamLlmResponse]
  cases inputPasses isAlnum userMessage run with
  | error exception => cases exception <;> rfl
  | ok passes =>
    cases passes with
    | false => rfl
    | true =>
      cases deliveredText isAlnum run with
      | error exception => cases exception <;> rfl
      | ok responseText =>
        by_cases hempty : responseText = ""
        · subst hempty
          rfl
        · simp [ofExcept, hempty, yield]

/-- The surroundings raise nothing but what `except Exception` catches. -/
structure OnlyOrdinary (run : StreamRun) : Prop where
  nemoInput : ∀ text, run.checkNemoInput text ≠ .raises .other
  graph : run.graphException ≠ some .other
  nemoOutput : ∀ text, run.checkNemoOutput text ≠ .raises .other

/-- The graph is run: both checks of the message allow it. -/
def GraphRuns (isAlnum : Char → Bool) (userMessage : String) (run : StreamRun) : Prop :=
  validateInput isAlnum userMessage = .ok () ∧
    (run.checkNemoInput userMessage = .disabled ∨ run.checkNemoInput userMessage = .verdict true)

/-- The whole text of the graph without reasoning. -/
def StreamRun.strippedText (run : StreamRun) : String :=
  stripReasoning (String.join (run.events.filterMap responsePart))

/-- Where a call may raise something besides the violations that the two checks of the guardrails find. -/
inductive Raises (isAlnum : Char → Bool) (userMessage : String) (run : StreamRun) : Prop
  | validateInput (hvalid : validateInput isAlnum userMessage = .error .valueError)
  | nemoInput (exception : StreamException) (hvalid : Agentops.validateInput isAlnum userMessage = .ok ())
      (hraised : run.checkNemoInput userMessage = .raises exception)
  | graph (exception : StreamException) (hruns : GraphRuns isAlnum userMessage run)
      (hraised : run.graphException = some exception)
  | validateOutput (hruns : GraphRuns isAlnum userMessage run) (hgraph : run.graphException = none)
      (hvalid : validateOutput isAlnum run.strippedText = .error .valueError)
  | nemoOutput (exception : StreamException) (hruns : GraphRuns isAlnum userMessage run)
      (hgraph : run.graphException = none)
      (hvalid : Agentops.validateOutput isAlnum run.strippedText = .ok ())
      (hasked : run.strippedText ≠ outputBlockedMessage)
      (hraised : run.checkNemoOutput run.strippedText = .raises exception)

/-- One event line, one line of JSON and a blank line. -/
def IsFrame (text : String) : Prop :=
  ∃ event data value, text = sseText event data ∧ (∀ c ∈ event.toList ++ data.toList, c ≠ '\n' ∧ c ≠ '\r') ∧
    JsonText.parse (TextDecoder.utf16 data) = some value

variable {isAlnum userMessage run}

/-- A check raises what it is said to raise. -/
theorem passes_eq_error {check : NemoCheck} {exception : StreamException} :
    check.passes = .error exception ↔ check = .raises exception := by
  cases check <;> simp [NemoCheck.passes]

/-- The graph runs if the message passes the checks. -/
theorem inputPasses_eq_true_iff :
    inputPasses isAlnum userMessage run = .ok true ↔ GraphRuns isAlnum userMessage run := by
  refine ⟨inputPasses_eq_true, fun h => ?_⟩
  rw [inputPasses, h.1]
  exact NemoCheck.passes_eq_true.mpr h.2

/-- An exception is raised where the message is checked. -/
theorem inputPasses_eq_error_iff {exception : StreamException} :
    inputPasses isAlnum userMessage run = .error exception ↔
      (validateInput isAlnum userMessage = .error .valueError ∧ exception = .ordinary) ∨
      (validateInput isAlnum userMessage = .ok () ∧ run.checkNemoInput userMessage = .raises exception) := by
  unfold inputPasses
  cases hvalid : validateInput isAlnum userMessage with
  | error failure => cases failure <;> simp [eq_comm]
  | ok _ => simp [passes_eq_error]

/-- The check of the answer raises if there is anything to check. -/
theorem nemoCheckedText_eq_error_iff {text : String} {exception : StreamException} :
    nemoCheckedText run text = .error exception ↔
      text ≠ outputBlockedMessage ∧ run.checkNemoOutput text = .raises exception := by
  unfold nemoCheckedText
  split_ifs with hblocked
  · simp [hblocked]
  · rw [← passes_eq_error]
    cases hpasses : (run.checkNemoOutput text).passes <;> simp [hblocked, bind, Except.bind, pure, Except.pure]

/-- An exception is raised where the answer is made. -/
theorem deliveredText_eq_error_iff {exception : StreamException} : deliveredText isAlnum run = .error exception ↔
    run.graphException = some exception ∨ (run.graphException = none ∧
      ((validateOutput isAlnum run.strippedText = .error .valueError ∧ exception = .ordinary) ∨
        (validateOutput isAlnum run.strippedText = .ok () ∧ run.strippedText ≠ outputBlockedMessage ∧
          run.checkNemoOutput run.strippedText = .raises exception))) := by
  cases hgraph : run.graphException with
  | some raised => simp [deliveredText, StreamRun.responseText, hgraph, bind, Except.bind]
  | none =>
    have hanswer : deliveredText isAlnum run =
        (validatedText isAlnum run.strippedText >>= nemoCheckedText run) := by
      have hbind : ∀ (text : String) (f : String → Except StreamException String),
          ((.ok text : Except StreamException String) >>= f) = f text := fun _ _ => rfl
      simp only [deliveredText, StreamRun.responseText, hgraph, hbind, StreamRun.strippedText]
    have hasked : ∀ text, ((.ok text : Except StreamException String) >>= nemoCheckedText run) = .error exception ↔
        text ≠ outputBlockedMessage ∧ run.checkNemoOutput text = .raises exception :=
      fun text => nemoCheckedText_eq_error_iff
    rw [hanswer, validatedText]
    cases hvalid : validateOutput isAlnum run.strippedText with
    | error failure =>
      cases failure with
      | violation reason => simp only [hasked, ne_eq, not_true_eq_false, false_and, Except.error.injEq, reduceCtorEq,
          or_self, and_false]
      | valueError =>
        have hraised : ((.error .ordinary : Except StreamException String) >>= nemoCheckedText run) =
            .error .ordinary := rfl
        simp [hraised, eq_comm]
    | ok _ => simp [hasked]

/-- A call raises exactly where the message checks do or, after them, the answer does. -/
theorem raises_iff : Raises isAlnum userMessage run ↔
    (∃ exception, inputPasses isAlnum userMessage run = .error exception) ∨
      (inputPasses isAlnum userMessage run = .ok true ∧ ∃ exception, deliveredText isAlnum run = .error exception) := by
  simp only [inputPasses_eq_error_iff, inputPasses_eq_true_iff, deliveredText_eq_error_iff]
  constructor
  · intro h
    cases h with
    | validateInput hvalid => exact .inl ⟨.ordinary, .inl ⟨hvalid, rfl⟩⟩
    | nemoInput exception hvalid hraised => exact .inl ⟨exception, .inr ⟨hvalid, hraised⟩⟩
    | graph exception hruns hraised => exact .inr ⟨hruns, exception, .inl hraised⟩
    | validateOutput hruns hgraph hvalid => exact .inr ⟨hruns, .ordinary, .inr ⟨hgraph, .inl ⟨hvalid, rfl⟩⟩⟩
    | nemoOutput exception hruns hgraph hvalid hasked hraised =>
      exact .inr ⟨hruns, exception, .inr ⟨hgraph, .inr ⟨hvalid, hasked, hraised⟩⟩⟩
  · rintro (⟨exception, ⟨hvalid, -⟩ | ⟨hvalid, hraised⟩⟩ |
      ⟨hruns, exception, hraised | ⟨hgraph, ⟨hvalid, -⟩ | ⟨hvalid, hasked, hraised⟩⟩⟩)
    · exact .validateInput hvalid
    · exact .nemoInput exception hvalid hraised
    · exact .graph exception hruns hraised
    · exact .validateOutput hruns hgraph hvalid
    · exact .nemoOutput exception hruns hgraph hvalid hasked hraised

/-- Where only ordinary exceptions are raised, the checks of the message raise no others. -/
theorem OnlyOrdinary.input (h : OnlyOrdinary run) {exception : StreamException}
    (hinput : inputPasses isAlnum userMessage run = .error exception) : exception = .ordinary := by
  rcases inputPasses_eq_error_iff.mp hinput with ⟨-, rfl⟩ | ⟨-, hraised⟩
  · rfl
  · cases exception with
    | ordinary => rfl
    | other => exact absurd hraised (h.nemoInput _)

/-- Nor does the answer. -/
theorem OnlyOrdinary.answer (h : OnlyOrdinary run) {exception : StreamException}
    (hanswer : deliveredText isAlnum run = .error exception) : exception = .ordinary := by
  cases exception with
  | ordinary => rfl
  | other =>
    rcases deliveredText_eq_error_iff.mp hanswer with hraised | ⟨-, ⟨-, heq⟩ | ⟨-, -, hraised⟩⟩
    · exact absurd hraised h.graph
    · exact heq
    · exact absurd hraised (h.nemoOutput _)

/-- The text of a frame has the shape of one. -/
theorem isFrame_text (frame : StreamFrame) : IsFrame frame.text := by
  obtain ⟨hevent, hdata⟩ := frame.allPrintable
  have hlines : ∀ c ∈ frame.event.toList ++ frame.data.toList, c ≠ '\n' ∧ c ≠ '\r' := by
    intro c hc
    have hprintable : JsonText.Printable c := (List.mem_append.mp hc).elim (hevent c) (hdata c)
    constructor
    · rintro rfl
      exact absurd hprintable (by decide)
    · rintro rfl
      exact absurd hprintable (by decide)
  cases frame with
  | message content =>
    exact ⟨_, _, _, StreamFrame.text_eq _, hlines, JsonText.parse_dumpsField "content" content⟩
  | error description =>
    exact ⟨_, _, _, StreamFrame.text_eq _, hlines, JsonText.parse_dumpsField "message" description⟩
  | done => exact ⟨_, _, .object [], StreamFrame.text_eq _, hlines, rfl⟩

variable (isAlnum userMessage)

/-- The frame protocol on every path: one terminator, which is the last frame, behind at most one message or
error; an error exactly where something is raised besides the violations that the guardrails find; and frames of
the right shape. -/
theorem stream_frames (hordinary : OnlyOrdinary run) :
    ((streamGenerator isAlnum userMessage run).yields = [.done] ∨
      (∃ content, (streamGenerator isAlnum userMessage run).yields = [.message content, .done]) ∨
      ∃ description, (streamGenerator isAlnum userMessage run).yields = [.error description, .done]) ∧
    (streamGenerator isAlnum userMessage run).yields.count .done = 1 ∧
    (streamGenerator isAlnum userMessage run).yields.getLast? = some .done ∧
    ((∃ description, .error description ∈ (streamGenerator isAlnum userMessage run).yields) ↔
      Raises isAlnum userMessage run) ∧
    ∀ frame ∈ (streamGenerator isAlnum userMessage run).yields, IsFrame frame.text := by
  rw [yields_streamGenerator, raises_iff]
  have htakes := streamTakes isAlnum userMessage run
  generalize streamLlmResponse isAlnum userMessage run = outcome at htakes ⊢
  cases htakes with
  | inputBlocked hinput => simp [hinput, isFrame_text]
  | inputFailed exception hinput =>
    obtain rfl := hordinary.input hinput
    simp [hinput, isFrame_text, StreamOutcome.failed]
  | answerFailed exception hinput hanswer =>
    obtain rfl := hordinary.answer hanswer
    simp [hinput, hanswer, isFrame_text, StreamOutcome.failed]
  | empty hinput hanswer => simp [hinput, hanswer, isFrame_text]
  | delivered content hinput hanswer hcontent => simp [hinput, hanswer, isFrame_text]

/-- A graph that raises after its first part leads to an error frame and one terminator. -/
theorem stream_frames_interrupted :
    (∃ description, .error description ∈ (streamGenerator Char.isAlphanum "Where is my order?"
      { StreamRun.ofParts ["On its"] with graphException := some .ordinary }).yields) ∧
    (streamGenerator Char.isAlphanum "Where is my order?"
      { StreamRun.ofParts ["On its"] with graphException := some .ordinary }).yields.count .done = 1 := by
  have hordinary : OnlyOrdinary { StreamRun.ofParts ["On its"] with graphException := some .ordinary } :=
    ⟨fun _ => by simp [StreamRun.ofParts], by simp, fun _ => by simp [StreamRun.ofParts]⟩
  obtain ⟨-, hdone, -, herror, -⟩ := stream_frames Char.isAlphanum "Where is my order?" hordinary
  refine ⟨herror.mpr (.graph .ordinary ⟨by decide +kernel, .inl rfl⟩ rfl), hdone⟩

end Blocks

end Agentops
