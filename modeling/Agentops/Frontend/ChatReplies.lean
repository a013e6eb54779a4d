import Agentops.Api.Identity
import Agentops.Frontend.ChatTranscripts

/-!
# Replies of the server in the chat panel

The server streams the frames of a call, cut anywhere, or refuses a request. Once the panel waits for nothing it shows
every question with the reply that the server gave to it, in the order in which they were asked.
-/

namespace Agentops

open LabelledRun
open TextDecoder (utf16)

/-- What the server does with a request: it streams a call, or raises before that. -/
inductive ServerAnswer
  | streamed (run : StreamRun)
  | refused (exception : HttpException)

/-- A question as the server has read it, its answer, and the request id of the answer. -/
structure ServedTurn where
  message : String
  answer : ServerAnswer
  requestId : Option JsString

namespace ServedTurn

/-- What the customer is to read. -/
def reading (isAlnum : Char → Bool) (turn : ServedTurn) : ChatRole × JsString :=
  match turn.answer with
  | .streamed run =>
    match (streamLlmResponse isAlnum turn.message run).frames with
    | .message content :: _ => (.agent, utf16 content)
    | .error description :: _ => (.error, utf16 description)
    | _ => (.agent, emptyReplyText)
  | .refused exception => (.error, describeThrown ⟨"Error", utf16 exception.detail⟩)

/-- The question, and what is read of the answer. -/
def bubbles (isAlnum : Char → Bool) (turn : ServedTurn) : List Bubble :=
  [⟨.user, utf16 turn.message, none, false⟩,
    ⟨(turn.reading isAlnum).1, (turn.reading isAlnum).2, turn.requestId, false⟩]

/-- The response carries the answer: the frames of the call in any parts, or the detail of the exception. -/
def Carries (isAlnum : Char → Bool) (turn : ServedTurn) (response : StreamResponse) : Prop :=
  match turn.answer with
  | .streamed run =>
    response.ok = true ∧ response.hasBody = true ∧ response.readError = none ∧
      response.requestId = turn.requestId ∧
      response.chunks.flatten = responseBody (streamLlmResponse isAlnum turn.message run).frames
  | .refused exception =>
    response.ok = false ∧ response.status = exception.statusCode ∧ exception.statusCode ≠ 404 ∧
      (response.json.bind (JsonText.Value.field? (utf16 "detail"))) = some (.string (utf16 exception.detail)) ∧
      turn.requestId = none

/-- The turn is what the server made of a request. -/
def Serves (isAlnum : Char → Bool) (turn : ServedTurn)
    (request : JsString × Except StreamError StreamResponse) : Prop :=
  utf16 turn.message = request.1 ∧ ∃ response, request.2 = .ok response ∧ turn.Carries isAlnum response

end ServedTurn

section Replies

variable {isAlnum : Char → Bool} {turn : ServedTurn} {x : Exchange} {events : List AgentStreamEvent}

/-- Everything of the stream of a settled exchange has come. -/
theorem Exchange.text_of_settled (hover : x.isOver = true) (hsettled : x.Settled) {ending : StreamEnding}
    (hstream : streamAgent x.fetched = (events, ending)) :
    x.text = events.flatMap AgentStreamEvent.text ∧
      x.requestId = events.foldl AgentStreamEvent.requestIdAfter none ∧ x.ending = ending := by
  have hevents : x.events = events := congrArg Prod.fst hstream
  have htake : x.events.take x.received = events := by
    rw [List.take_of_length_le (hsettled.2 (hsettled.1 hover)), hevents]
  exact ⟨by rw [text, htake], by rw [requestId, htake], congrArg Prod.snd hstream⟩

/-- An exchange whose stream is complete shows its text. -/
theorem Exchange.bubbles_of_completed (hover : x.isOver = true) (hsettled : x.Settled)
    (hstream : streamAgent x.fetched = (events, .completed)) :
    x.bubbles = [⟨.user, x.question, none, false⟩,
      ⟨.agent,
        if events.flatMap AgentStreamEvent.text = [] then emptyReplyText else events.flatMap AgentStreamEvent.text,
        events.foldl AgentStreamEvent.requestIdAfter none, false⟩] := by
  obtain ⟨htext, hid, hending⟩ := text_of_settled hover hsettled hstream
  simp only [bubbles, hover, if_true, closed, hending, htext, hid]

/-- An exchange whose stream has failed before any text shows the error. -/
theorem Exchange.bubbles_of_failed (hover : x.isOver = true) (hsettled : x.Settled) {message : JsString}
    (hstream : streamAgent x.fetched = (events, .errored ⟨"Error", message⟩))
    (hempty : events.flatMap AgentStreamEvent.text = []) :
    x.bubbles = [⟨.user, x.question, none, false⟩,
      ⟨.error, describeThrown ⟨"Error", message⟩, events.foldl AgentStreamEvent.requestIdAfter none, false⟩] := by
  obtain ⟨htext, hid, hending⟩ := text_of_settled hover hsettled hstream
  have hname : ¬ ("Error" : String) = streamUnavailable := by decide
  simp only [bubbles, hover, if_true, closed, hending, htext, hid, hempty, if_neg hname]

/-- A response that streams a call is shown as its frames say. -/
theorem ServedTurn.bubbles_of_streamed {run : StreamRun} (hanswer : turn.answer = .streamed run)
    {response : StreamResponse} (hcarries : turn.Carries isAlnum response) (hover : x.isOver = true)
    (hsettled : x.Settled) (hquestion : utf16 turn.message = x.question) (hfetched : x.fetched = .ok response) :
    x.bubbles = turn.bubbles isAlnum := by
  simp only [Carries, hanswer] at hcarries
  obtain ⟨hok, hbody, hread, hid, hchunks⟩ := hcarries
  have hcourses := (streamTakes isAlnum turn.message run).frames_eq
  simp only [ServedTurn.bubbles, reading, hanswer]
  rcases hcourses with ⟨content, hcontent, hframes, -⟩ | ⟨hframes, -⟩ | ⟨hframes, -⟩ | ⟨hframes, -⟩
  · have hstream : streamAgent x.fetched = _ := hfetched ▸ streamAgent_message hok hbody hchunks hcontent hframes
    rw [Exchange.bubbles_of_completed hover hsettled hstream, hframes, hquestion, ← hid]
    simp [AgentStreamEvent.text, AgentStreamEvent.requestIdAfter, mt TextDecoder.utf16_eq_nil.mp hcontent]
  · have hstream : streamAgent x.fetched = _ := hfetched ▸ streamAgent_done hok hbody hchunks hframes
    rw [Exchange.bubbles_of_completed hover hsettled hstream, hframes, hquestion, ← hid]
    rfl
  · have hstream : streamAgent x.fetched = _ :=
      hfetched ▸ streamAgent_error hok hbody hchunks modelUnavailableMessage (by decide) hframes
    have hdescribed : describeThrown ⟨"Error", utf16 modelUnavailableMessage⟩ = utf16 modelUnavailableMessage :=
      if_neg (by decide)
    rw [Exchange.bubbles_of_failed hover hsettled hstream rfl, hframes, hquestion, hdescribed, ← hid]
    rfl
  · have hstream : streamAgent x.fetched = ([.opened response.requestId], .completed) := by
      rw [hfetched, streamAgent_eq hok hbody hchunks, hframes, hread]
      rfl
    rw [Exchange.bubbles_of_completed hover hsettled hstream, hframes, hquestion, ← hid]
    rfl

/-- A refusal is shown with its detail. -/
theorem ServedTurn.bubbles_of_refused {exception : HttpException} (hanswer : turn.answer = .refused exception)
    {response : StreamResponse} (hcarries : turn.Carries isAlnum response) (hover : x.isOver = true)
    (hsettled : x.Settled) (hquestion : utf16 turn.message = x.question) (hfetched : x.fetched = .ok response) :
    x.bubbles = turn.bubbles isAlnum := by
  simp only [Carries, hanswer] at hcarries
  obtain ⟨hok, hstatus, hfound, hdetail, hid⟩ := hcarries
  have hstream : streamAgent x.fetched = ([], .errored ⟨"Error", utf16 exception.detail⟩) := by
    have hrefused : ¬ response.ok = true ∨ ¬ response.hasBody = true := .inl (by simp [hok])
    simp only [hfetched, streamAgent, if_pos hrefused, describeStreamFailure, hdetail, hstatus, if_neg hfound]
  rw [Exchange.bubbles_of_failed hover hsettled hstream rfl, hquestion.symm, ServedTurn.bubbles, reading, hanswer, hid]
  rfl

/-- An exchange shows what the server made of its request. -/
theorem ServedTurn.bubbles_of_serves (hserves : turn.Serves isAlnum x.request) (hover : x.isOver = true)
    (hsettled : x.Settled) : x.bubbles = turn.bubbles isAlnum := by
  obtain ⟨hquestion, response, hfetched, hcarries⟩ := hserves
  cases hanswer : turn.answer with
  | streamed run => exact bubbles_of_streamed hanswer hcarries hover hsettled hquestion hfetched
  | refused exception => exact bubbles_of_refused hanswer hcarries hover hsettled hquestion hfetched

/-- So do exchanges, one after the other. -/
theorem ServedTurn.flatMap_bubbles {turns : List ServedTurn} {exchanges : List Exchange}
    (hserved : List.Forall₂ (fun turn x => ServedTurn.Serves isAlnum turn x.request) turns exchanges)
    (hover : ∀ x ∈ exchanges, x.isOver = true ∧ x.Settled) :
    exchanges.flatMap Exchange.bubbles = turns.flatMap (ServedTurn.bubbles isAlnum) := by
  induction hserved with
  | nil => rfl
  | cons hserves _ ih =>
    obtain ⟨hfirst, hrest⟩ := List.forall_mem_cons.mp hover
    rw [List.flatMap_cons, List.flatMap_cons, bubbles_of_serves hserves hfirst.1 hfirst.2, ih hrest]

/-- Whatever the user does meanwhile and however the network cuts what it brings: once the panel waits for nothing, it
shows the questions that the server has answered, each followed by what the server delivered to it, or by the error
that it raised. -/
theorem chat_shows_replies {events : List ChatPanelEvent} {panel : ChatPanel} {turns : List ServedTurn}
    (hrun : runFrom ChatPanel.step {} events = some panel) (hidle : panel.chat.pending = false)
    (hserved : List.Forall₂ (ServedTurn.Serves isAlnum) turns panel.sent) :
    panel.chat.messages = numbered (turns.flatMap (ServedTurn.bubbles isAlnum)) := by
  obtain ⟨steps, t, hsteps, hshows⟩ := ChatPanel.follows.run hrun ChatPanel.shows_empty
  have hcurrent : t.current = none := by simpa [hidle] using hshows.pending
  have hexchanges : t.exchanges = t.past := by simp [Transcript.exchanges, hcurrent]
  have hsettled := Transcript.settled_run hsteps
  rw [hshows.sent, List.forall₂_map_right_iff] at hserved
  rw [hshows.messages, Transcript.bubbles, ServedTurn.flatMap_bubbles hserved]
  intro x hx
  exact ⟨t.past_over x (hexchanges ▸ hx), hsettled x hx⟩

end Replies

/-- One question that is answered, with a second one typed and sent meanwhile. -/
def answeredOnce (question : JsString) (fetched : Except StreamError StreamResponse) : List ChatPanelEvent :=
  [.use question fetched, .next 0, .input (utf16 "And now?"), .send fetched, .next 0, .next 0]

/-- Only the first question is sent. -/
theorem run_answeredOnce {question reply : JsString} {fetched : Except StreamError StreamResponse}
    {requestId : Option JsString} (htrim : Trimming.trim isJsSpace question = question) (hne : question ≠ [])
    (hstream : streamAgent fetched = ([.opened requestId, .chunk reply], .completed)) :
    ∃ panel, runFrom ChatPanel.step {} (answeredOnce question fetched) = some panel ∧
      panel.chat.pending = false ∧ panel.sent = [(question, fetched)] := by
  simp [answeredOnce, runFrom, ChatPanel.step, ChatPanel.send, ChatPanel.next, AgentChat.send, AgentChat.append,
    AgentChat.streamed, AgentChat.patch, AgentChat.streamCompleted, htrim, hne, hstream]

/-- A question whose answer arrives byte by byte. -/
theorem chat_shows_replies_answeredOnce :
    let frames := (streamLlmResponse Char.isAlphanum "Where is it?" (.ofParts ["On its", " way."])).frames
    ∃ panel, runFrom ChatPanel.step {}
        (answeredOnce (utf16 "Where is it?") (.ok (.ofBytes (responseBody frames)))) = some panel ∧
      panel.chat.messages = numbered [⟨.user, utf16 "Where is it?", none, false⟩,
        ⟨.agent, utf16 "On its way.", none, false⟩] := by
  intro frames
  let turn : ServedTurn := ⟨"Where is it?", .streamed (.ofParts ["On its", " way."]), none⟩
  have hframes : frames = [.message "On its way.", .done] := by decide +kernel
  have hchunks := StreamResponse.flatten_ofBytes (responseBody frames)
  have hstream := streamAgent_message rfl rfl hchunks (by decide) hframes
  have htrim : Trimming.trim isJsSpace (utf16 "Where is it?") = utf16 "Where is it?" := by decide
  obtain ⟨panel, hrun, hidle, hsent⟩ := run_answeredOnce htrim (by decide) hstream
  have hserves : turn.Serves Char.isAlphanum (utf16 "Where is it?", .ok (.ofBytes (responseBody frames))) :=
    ⟨rfl, _, rfl, rfl, rfl, rfl, rfl, hchunks⟩
  have hreading : turn.reading Char.isAlphanum = (.agent, utf16 "On its way.") := by
    have hturn : (streamLlmResponse Char.isAlphanum turn.message (.ofParts ["On its", " way."])).frames =
        [.message "On its way.", .done] := hframes
    simp [ServedTurn.reading, turn, hturn]
  have hserved : List.Forall₂ (ServedTurn.Serves Char.isAlphanum) [turn] panel.sent := by
    rw [hsent]
    exact .cons hserves .nil
  refine ⟨panel, hrun, ?_⟩
  rw [chat_shows_replies hrun hidle hserved]
  simp [ServedTurn.bubbles, hreading, turn]

end Agentops
