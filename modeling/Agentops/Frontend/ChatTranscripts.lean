import Agentops.Foundations.Refinement
import Agentops.Frontend.AgentChat
import Agentops.Frontend.ReplyDecoding

/-!
# What the chat panel shows

A transcript is a list of exchanges, of which at most the last is still open: a question, and how much has come of
the answer that the network gives to it. The panel follows the transcript whatever the user does meanwhile, so every
bubble shows what its own exchange says, and what the server delivers is what the customer reads.
-/

namespace Agentops

open LabelledRun
open TextDecoder (utf16)

/-- The text that an event adds. -/
def AgentStreamEvent.text : AgentStreamEvent → JsString
  | .opened _ => []
  | .chunk text => text

/-- The request id after an event. -/
def AgentStreamEvent.requestIdAfter (before : Option JsString) : AgentStreamEvent → Option JsString
  | .opened requestId => requestId
  | .chunk _ => before

/-- A question, what `fetch` gives to it, how many events of the stream have come, whether its ending has, and the
answer of the other endpoint. -/
structure Exchange where
  question : JsString
  fetched : Except StreamError StreamResponse
  received : ℕ := 0
  finished : Bool := false
  fallback : Option (Except JsString AgentReply) := none

/-- A message without its id. -/
structure Bubble where
  role : ChatRole
  text : JsString
  requestId : Option JsString
  streaming : Bool
  deriving DecidableEq, Repr

namespace Exchange

/-- The events of the stream. -/
def events (x : Exchange) : List AgentStreamEvent := (streamAgent x.fetched).1

/-- How the stream ends. -/
def ending (x : Exchange) : StreamEnding := (streamAgent x.fetched).2

/-- The text that has come. -/
def text (x : Exchange) : JsString := (x.events.take x.received).flatMap AgentStreamEvent.text

/-- The request id that has come. -/
def requestId (x : Exchange) : Option JsString :=
  (x.events.take x.received).foldl AgentStreamEvent.requestIdAfter none

/-- The server has no stream. -/
def unavailable (x : Exchange) : Bool :=
  match x.ending with
  | .completed => false
  | .errored error => error.name = streamUnavailable

/-- Nothing more will come. -/
def isOver (x : Exchange) : Bool := x.fallback.isSome || (x.finished && !x.unavailable)

/-- The reply as far as it has come. -/
def open? (x : Exchange) : Bubble := ⟨.agent, x.text, x.requestId, true⟩

/-- The reply once nothing more will come. -/
def closed (x : Exchange) : List Bubble :=
  match x.ending, x.fallback with
  | .completed, _ => [⟨.agent, if x.text = [] then emptyReplyText else x.text, x.requestId, false⟩]
  | .errored error, fallback =>
    if error.name = streamUnavailable then
      match fallback with
      | none => [x.open?]
      | some (.ok reply) => [⟨.agent, reply.message, reply.requestId, false⟩]
      | some (.error description) => [⟨.error, description, x.requestId, false⟩]
    else if x.text = [] then [⟨.error, describeThrown error, x.requestId, false⟩]
    else [⟨.agent, x.text, x.requestId, false⟩, ⟨.error, describeThrown error, none, false⟩]

/-- The bubbles of an exchange. -/
def bubbles (x : Exchange) : List Bubble :=
  ⟨.user, x.question, none, false⟩ :: if x.isOver then x.closed else [x.open?]

/-- The subscription of an open exchange. -/
def subscription (x : Exchange) (replyId : ℕ) : ChatSubscription :=
  if x.finished then .fallback x.question replyId
  else .stream x.question replyId (x.events.drop x.received) x.ending

end Exchange

/-- Exchanges that are over, and the one that is open. -/
structure Transcript where
  past : List Exchange
  current : Option Exchange
  past_over : ∀ x ∈ past, x.isOver = true
  current_open : ∀ x ∈ current, x.isOver = false

/-- What can happen to a conversation. -/
inductive TranscriptEvent
  | ask (question : JsString) (fetched : Except StreamError StreamResponse)
  | receive
  | finish
  | fallBack (reply : Except JsString AgentReply)

namespace Transcript

/-- Nothing was asked. -/
def empty : Transcript := ⟨[], none, by simp, by simp⟩

/-- All exchanges, the open one last. -/
def exchanges (t : Transcript) : List Exchange := t.past ++ t.current.toList

/-- The open exchange becomes this one, which may be over. -/
def put (t : Transcript) (x : Exchange) : Transcript :=
  if h : x.isOver = true then
    { past := t.past ++ [x]
      current := none
      past_over := by
        intro y hy
        rcases List.mem_append.mp hy with hold | hnew
        · exact t.past_over y hold
        · exact List.mem_singleton.mp hnew ▸ h
      current_open := by simp }
  else { t with current := some x, current_open := by simpa using h }

/-- A question is asked while no exchange is open, and an open one goes on. -/
def step (t : Transcript) : TranscriptEvent → Option Transcript
  | .ask question fetched => if t.current.isNone then some (t.put { question, fetched }) else none
  | .receive =>
    t.current.bind fun x =>
      if x.finished = false ∧ x.received < x.events.length then some (t.put { x with received := x.received + 1 })
      else none
  | .finish =>
    t.current.bind fun x =>
      if x.finished = false ∧ x.events.length ≤ x.received then some (t.put { x with finished := true }) else none
  | .fallBack reply =>
    t.current.bind fun x => if x.finished = true then some (t.put { x with fallback := some reply }) else none

/-- All bubbles, in their order. -/
def bubbles (t : Transcript) : List Bubble := t.exchanges.flatMap Exchange.bubbles

variable {t : Transcript} {x : Exchange}

/-- An exchange that is put is the last one. -/
theorem exchanges_put (t : Transcript) (x : Exchange) : (t.put x).exchanges = t.past ++ [x] := by
  unfold put
  split <;> simp [exchanges]

/-- It is open unless it is over. -/
theorem current_put (t : Transcript) (x : Exchange) :
    (t.put x).current = if x.isOver = true then none else some x := by
  unfold put
  split <;> simp_all

end Transcript

/-- A message with its number. -/
def Bubble.message (bubble : Bubble) (id : ℕ) : ChatMessage :=
  ⟨id, bubble.role, bubble.text, bubble.requestId, bubble.streaming⟩

/-- The bubbles as messages, numbered from one. -/
def numbered (bubbles : List Bubble) : List ChatMessage :=
  (bubbles.zipIdx 1).map fun entry => entry.1.message entry.2

/-- What was sent for an exchange, and what `fetch` gives to it. -/
def Exchange.request (x : Exchange) : JsString × Except StreamError StreamResponse := (x.question, x.fetched)

/-- The panel shows the transcript, waits for its open exchange only, and has sent its questions. -/
structure ChatPanel.Shows (panel : ChatPanel) (t : Transcript) : Prop where
  messages : panel.chat.messages = numbered t.bubbles
  nextId : panel.chat.nextId = t.bubbles.length + 1
  pending : panel.chat.pending = t.current.isSome
  subscriptions : panel.subscriptions = t.current.toList.map fun x => x.subscription t.bubbles.length
  sent : panel.sent = t.exchanges.map Exchange.request
  askedAgain : panel.askedAgain =
    (t.exchanges.filter fun x => x.finished && x.unavailable).map Exchange.question

section Numbered

variable {bubbles : List Bubble} {bubble : Bubble}

/-- Numbering keeps the bubbles. -/
@[simp] theorem length_numbered (bubbles : List Bubble) : (numbered bubbles).length = bubbles.length := by
  simp [numbered]

/-- One more bubble gets the next number. -/
theorem numbered_concat (bubbles : List Bubble) (bubble : Bubble) :
    numbered (bubbles ++ [bubble]) = numbered bubbles ++ [bubble.message (bubbles.length + 1)] := by
  simp [numbered, List.zipIdx_append, Nat.add_comm]

/-- Two more get the next two. -/
theorem numbered_concat_two (bubbles : List Bubble) (first second : Bubble) : numbered (bubbles ++ [first, second]) =
    numbered bubbles ++ [first.message (bubbles.length + 1), second.message (bubbles.length + 2)] := by
  rw [List.append_cons, numbered_concat, numbered_concat]
  simp

/-- The numbers end with the number of the bubbles. -/
theorem id_le_of_mem_numbered {message : ChatMessage} (h : message ∈ numbered bubbles) :
    message.id ≤ bubbles.length := by
  obtain ⟨⟨bubble, id⟩, hentry, rfl⟩ := List.mem_map.mp h
  have hrange := List.mem_zipIdx hentry
  simp only [Bubble.message]
  omega

/-- A change of the last message leaves the others. -/
theorem patch_numbered (bubbles : List Bubble) (message : ChatMessage) (hid : message.id = bubbles.length + 1)
    (update : ChatMessage → ChatMessage) :
    (numbered bubbles ++ [message]).map (fun other => if other.id = bubbles.length + 1 then update other else other) =
      numbered bubbles ++ [update message] := by
  rw [List.map_append, List.map_singleton, if_pos hid]
  congr 1
  conv_rhs => rw [← List.map_id (numbered bubbles)]
  refine List.map_congr_left fun other hother => ?_
  have hle := id_le_of_mem_numbered hother
  exact if_neg (by omega)

/-- The last message is found by its number. -/
theorem find?_numbered (bubbles : List Bubble) (message : ChatMessage) (hid : message.id = bubbles.length + 1) :
    (numbered bubbles ++ [message]).find? (·.id = bubbles.length + 1) = some message := by
  have hnone : (numbered bubbles).find? (·.id = bubbles.length + 1) = none := by
    rw [List.find?_eq_none]
    intro other hother
    have hle := id_le_of_mem_numbered hother
    simp only [decide_eq_true_eq]
    omega
  rw [List.find?_append, hnone, Option.none_or, List.find?_singleton, if_pos (by simpa using hid)]

end Numbered

section Steps

variable {panel : ChatPanel} {t : Transcript} {x : Exchange}

/-- While an exchange is open its reply is the last message. -/
theorem Exchange.bubbles_open (h : x.isOver = false) : x.bubbles = [⟨.user, x.question, none, false⟩, x.open?] := by
  simp [bubbles, h]

/-- The bubbles before the reply of the open exchange. -/
def Transcript.before (t : Transcript) (x : Exchange) : List Bubble :=
  t.past.flatMap Exchange.bubbles ++ [⟨.user, x.question, none, false⟩]

/-- The bubbles with an exchange put at the end. -/
theorem Transcript.bubbles_put (t : Transcript) (x : Exchange) :
    (t.put x).bubbles = t.before x ++ if x.isOver = true then x.closed else [x.open?] := by
  simp [bubbles, exchanges_put, before, Exchange.bubbles]

/-- The panel shows what its signals say of the exchange that is now the last one. -/
theorem ChatPanel.Shows.put (hmessages : panel.chat.messages = numbered (t.put x).bubbles)
    (hnextId : panel.chat.nextId = (t.put x).bubbles.length + 1) (hpending : panel.chat.pending = !x.isOver)
    (hsubscriptions : panel.subscriptions =
      if x.isOver = true then [] else [x.subscription (t.put x).bubbles.length])
    (hsent : panel.sent = t.past.map Exchange.request ++ [x.request])
    (hagain : panel.askedAgain = (t.past.filter fun x => x.finished && x.unavailable).map Exchange.question ++
      if x.finished = true ∧ x.unavailable = true then [x.question] else []) :
    panel.Shows (t.put x) where
  messages := hmessages
  nextId := hnextId
  pending := by
    rw [hpending, Transcript.current_put]
    cases x.isOver <;> rfl
  subscriptions := by
    rw [hsubscriptions, Transcript.current_put]
    cases x.isOver <;> rfl
  sent := by simp [hsent, Transcript.exchanges_put]
  askedAgain := by
    rw [hagain, Transcript.exchanges_put, List.filter_append, List.map_append]
    congr 1
    cases hfinished : x.finished <;> cases hunavailable : x.unavailable <;> simp [hfinished, hunavailable]

/-- What a panel shows of an open exchange. -/
structure ChatPanel.ShowsOpen (panel : ChatPanel) (t : Transcript) (x : Exchange) : Prop where
  isOpen : x.isOver = false
  pending : panel.chat.pending = true
  messages : panel.chat.messages = numbered (t.before x) ++ [x.open?.message ((t.before x).length + 1)]
  nextId : panel.chat.nextId = (t.before x).length + 2
  subscriptions : panel.subscriptions = [x.subscription ((t.before x).length + 1)]
  sent : panel.sent = t.past.map Exchange.request ++ [x.request]
  askedAgain : panel.askedAgain = (t.past.filter fun x => x.finished && x.unavailable).map Exchange.question ++
    if x.finished = true then [x.question] else []

/-- The bubbles with an open exchange. -/
theorem Transcript.bubbles_of_current (hcurrent : t.current = some x) :
    t.bubbles = t.before x ++ [x.open?] := by
  have hopen := x.bubbles_open (t.current_open x hcurrent)
  simp [bubbles, exchanges, hcurrent, before, hopen]

/-- An open exchange that has finished waits for the other endpoint. -/
theorem Exchange.unavailable_of_finished (hopen : x.isOver = false) (hfinished : x.finished = true) :
    x.unavailable = true ∧ x.fallback = none := by
  simpa [isOver, hfinished, and_comm] using hopen

/-- What the panel shows with an open exchange. -/
theorem ChatPanel.Shows.showsOpen (h : panel.Shows t) (hcurrent : t.current = some x) : panel.ShowsOpen t x where
  isOpen := t.current_open x hcurrent
  pending := by simp [h.pending, hcurrent]
  messages := by rw [h.messages, Transcript.bubbles_of_current hcurrent, numbered_concat]
  nextId := by rw [h.nextId, Transcript.bubbles_of_current hcurrent, List.length_append, List.length_singleton]
  subscriptions := by
    rw [h.subscriptions, Transcript.bubbles_of_current hcurrent, hcurrent]
    simp
  sent := by simp [h.sent, Transcript.exchanges, hcurrent]
  askedAgain := by
    rw [h.askedAgain, Transcript.exchanges, hcurrent, Option.toList_some, List.filter_append, List.map_append]
    congr 1
    cases hfinished : x.finished with
    | false => simp [hfinished]
    | true =>
      have hunavailable := (x.unavailable_of_finished (t.current_open x hcurrent) hfinished).1
      simp [hfinished, hunavailable]

/-- An exchange that stays open changes its reply. -/
theorem ChatPanel.ShowsOpen.put_open (h : panel.ShowsOpen t x) {x' : Exchange} {panel' : ChatPanel}
    (hrequest : x'.request = x.request) (hopen : x'.isOver = false)
    (hmessages : panel'.chat.messages = numbered (t.before x) ++ [x'.open?.message ((t.before x).length + 1)])
    (hnextId : panel'.chat.nextId = panel.chat.nextId) (hpending : panel'.chat.pending = true)
    (hsubscriptions : panel'.subscriptions = [x'.subscription ((t.before x).length + 1)])
    (hsent : panel'.sent = panel.sent)
    (hagain : panel'.askedAgain = (t.past.filter fun x => x.finished && x.unavailable).map Exchange.question ++
      if x'.finished = true then [x.question] else []) :
    panel'.Shows (t.put x') := by
  have hquestion : x'.question = x.question := congrArg Prod.fst hrequest
  have hbefore : t.before x' = t.before x := by simp [Transcript.before, hquestion]
  have hbubbles : (t.put x').bubbles = t.before x ++ [x'.open?] := by
    simp [Transcript.bubbles_put, hbefore, hopen]
  apply ChatPanel.Shows.put
  · rw [hmessages, hbubbles, numbered_concat]
  · rw [hnextId, h.nextId, hbubbles, List.length_append, List.length_singleton]
  · rw [hpending, hopen]
    rfl
  · rw [hsubscriptions, hbubbles]
    simp [hopen]
  · rw [hsent, h.sent, hrequest]
  · rw [hagain, hquestion]
    congr 1
    cases hfinished : x'.finished with
    | false => simp
    | true => simp [(x'.unavailable_of_finished hopen hfinished).1]

/-- An exchange that is over shows its last reply. -/
theorem ChatPanel.ShowsOpen.put_over (h : panel.ShowsOpen t x) {x' : Exchange} {panel' : ChatPanel}
    (hrequest : x'.request = x.request) (hfinished : x'.finished = true) (hover : x'.isOver = true)
    (hmessages : panel'.chat.messages = numbered (t.before x ++ x'.closed))
    (hnextId : panel'.chat.nextId = (t.before x).length + x'.closed.length + 1)
    (hpending : panel'.chat.pending = false) (hsubscriptions : panel'.subscriptions = [])
    (hsent : panel'.sent = panel.sent)
    (hagain : panel'.askedAgain = (t.past.filter fun x => x.finished && x.unavailable).map Exchange.question ++
      if x'.unavailable = true then [x.question] else []) :
    panel'.Shows (t.put x') := by
  have hquestion : x'.question = x.question := congrArg Prod.fst hrequest
  have hbefore : t.before x' = t.before x := by simp [Transcript.before, hquestion]
  have hbubbles : (t.put x').bubbles = t.before x ++ x'.closed := by
    simp [Transcript.bubbles_put, hbefore, hover]
  apply ChatPanel.Shows.put
  · rw [hmessages, hbubbles]
  · rw [hnextId, hbubbles, List.length_append]
  · rw [hpending, hover]
    rfl
  · rw [hsubscriptions, if_pos hover]
  · rw [hsent, h.sent, hrequest]
  · rw [hagain, hquestion]
    simp [hfinished]

/-- Nothing of the transcript is shown in the draft. -/
theorem ChatPanel.Shows.withDraft (h : panel.Shows t) (draft : JsString) :
    { panel with chat := { panel.chat with draft := draft } : ChatPanel }.Shows t :=
  ⟨h.messages, h.nextId, h.pending, h.subscriptions, h.sent, h.askedAgain⟩

/-- A text that is sent is asked, and nothing is sent while the panel waits. -/
theorem ChatPanel.Shows.send (h : panel.Shows t) (fetched : Except StreamError StreamResponse) :
    ∃ steps t', runFrom Transcript.step t steps = some t' ∧ (panel.send fetched).Shows t' := by
  by_cases hsilent : Trimming.trim isJsSpace panel.chat.draft = [] ∨ panel.chat.pending = true
  · have hsame : panel.send fetched = panel := by simp [ChatPanel.send, AgentChat.send, hsilent]
    exact ⟨[], t, rfl, by rwa [hsame]⟩
  · have hcurrent : t.current = none := by simpa [h.pending] using (not_or.mp hsilent).2
    generalize htext : Trimming.trim isJsSpace panel.chat.draft = text at hsilent
    let x : Exchange := { question := text, fetched := fetched }
    have hopen : x.isOver = false := rfl
    have hbefore : numbered (t.before x) =
        panel.chat.messages ++ [⟨panel.chat.nextId, .user, text, none, false⟩] := by
      have hpast : t.bubbles = t.past.flatMap Exchange.bubbles := by
        simp [Transcript.bubbles, Transcript.exchanges, hcurrent]
      rw [Transcript.before, ← hpast, numbered_concat, ← h.messages, ← h.nextId]
      rfl
    have hlength : (t.before x).length = panel.chat.nextId := by
      rw [← length_numbered, hbefore, List.length_append, h.messages, length_numbered, h.nextId]
      rfl
    have hbubbles : (t.put x).bubbles = t.before x ++ [x.open?] := by
      rw [Transcript.bubbles_put, hopen]
      rfl
    have hsend : panel.send fetched =
        { panel with
          chat := ⟨numbered (t.before x) ++ [x.open?.message (panel.chat.nextId + 1)], [], true, panel.chat.nextId + 2⟩
          subscriptions := panel.subscriptions ++ [x.subscription (panel.chat.nextId + 1)]
          sent := panel.sent ++ [x.request] } := by
      simp only [ChatPanel.send, AgentChat.send, htext, if_neg hsilent]
      rw [hbefore]
      rfl
    have hask : t.step (.ask text fetched) = some (t.put x) := by simp [Transcript.step, hcurrent, x]
    refine ⟨[.ask text fetched], t.put x, (runFrom_singleton _ _ _).trans hask, ?_⟩
    rw [hsend]
    apply ChatPanel.Shows.put
    · rw [hbubbles, numbered_concat, hlength]
    · rw [hbubbles, List.length_append, hlength]
      rfl
    · rfl
    · rw [hbubbles, List.length_append, hlength, h.subscriptions, hcurrent]
      rfl
    · simp [h.sent, Transcript.exchanges, hcurrent, x]
    · simp [h.askedAgain, Transcript.exchanges, hcurrent, x]

/-- The text and the request id after one more event. -/
theorem Exchange.open?_receive {event : AgentStreamEvent} {rest : List AgentStreamEvent}
    (hnext : x.events.drop x.received = event :: rest) :
    { x with received := x.received + 1 : Exchange }.open? =
      ⟨.agent, x.text ++ event.text, event.requestIdAfter x.requestId, true⟩ := by
  have htake : x.events.take (x.received + 1) = x.events.take x.received ++ [event] := by
    rw [List.take_add_one, ← List.head?_drop, hnext]
    rfl
  have hevents : { x with received := x.received + 1 : Exchange }.events = x.events := rfl
  simp only [open?, text, requestId, hevents, htake, List.flatMap_append, List.foldl_append]
  simp

/-- An event of the stream changes the last message. -/
theorem ChatPanel.ShowsOpen.streamed (h : panel.ShowsOpen t x) (event : AgentStreamEvent) :
    (panel.chat.streamed ((t.before x).length + 1) event).messages = numbered (t.before x) ++
      [(⟨.agent, x.text ++ event.text, event.requestIdAfter x.requestId, true⟩ : Bubble).message
        ((t.before x).length + 1)] := by
  cases event with
  | opened requestId =>
    simp only [AgentChat.streamed, AgentChat.patch, h.messages]
    rw [patch_numbered _ _ rfl]
    simp [Bubble.message, Exchange.open?, AgentStreamEvent.text, AgentStreamEvent.requestIdAfter]
  | chunk text =>
    simp only [AgentChat.streamed, AgentChat.patch, h.messages]
    rw [patch_numbered _ _ rfl]
    rfl

/-- The stream brings its next event. -/
theorem ChatPanel.ShowsOpen.receive (h : panel.ShowsOpen t x) (hfinished : x.finished = false)
    {event : AgentStreamEvent} {rest : List AgentStreamEvent}
    (hnext : x.events.drop x.received = event :: rest) :
    { panel with
      chat := panel.chat.streamed ((t.before x).length + 1) event
      subscriptions := [.stream x.question ((t.before x).length + 1) rest x.ending] : ChatPanel }.Shows
        (t.put { x with received := x.received + 1 }) := by
  have hrest : x.events.drop (x.received + 1) = rest := by
    rw [← List.tail_drop, hnext]
    rfl
  have hnextId : (panel.chat.streamed ((t.before x).length + 1) event).nextId = panel.chat.nextId := by
    cases event <;> rfl
  have hstill : (panel.chat.streamed ((t.before x).length + 1) event).pending = true := by
    cases event <;> exact h.pending
  have hrequest : { x with received := x.received + 1 : Exchange }.request = x.request := rfl
  apply h.put_open hrequest
  · simpa [Exchange.isOver, hfinished] using h.isOpen
  · rw [Exchange.open?_receive hnext]
    exact h.streamed event
  · exact hnextId
  · exact hstill
  · have hsubscription : Exchange.subscription { x with received := x.received + 1 } ((t.before x).length + 1) =
        .stream x.question ((t.before x).length + 1) (x.events.drop (x.received + 1)) x.ending := by
      simp only [Exchange.subscription, hfinished]
      rfl
    rw [hsubscription, hrest]
  · rfl
  · exact h.askedAgain

/-- The stream is complete. -/
theorem ChatPanel.ShowsOpen.complete (h : panel.ShowsOpen t x) (hfinished : x.finished = false)
    (hending : x.ending = .completed) :
    { panel with
      chat := panel.chat.streamCompleted ((t.before x).length + 1), subscriptions := [] : ChatPanel }.Shows
        (t.put { x with finished := true }) := by
  have hrequest : { x with finished := true : Exchange }.request = x.request := rfl
  have havailable : { x with finished := true : Exchange }.unavailable = false := by
    change x.unavailable = false
    simp [Exchange.unavailable, hending]
  have hclosed : { x with finished := true : Exchange }.closed =
      [⟨.agent, if x.text = [] then emptyReplyText else x.text, x.requestId, false⟩] := by
    have hsame : { x with finished := true : Exchange }.ending = .completed := hending
    simp only [Exchange.closed, hsame]
    rfl
  apply h.put_over hrequest rfl
  · simp [Exchange.isOver, havailable]
  · rw [hclosed, numbered_concat]
    simp only [AgentChat.streamCompleted, AgentChat.patch, h.messages]
    rw [patch_numbered _ _ rfl]
    rfl
  · rw [hclosed]
    exact h.nextId
  · rfl
  · rfl
  · rfl
  · rw [h.askedAgain, havailable]
    simp [hfinished]

/-- There is no stream, and the other endpoint is asked. -/
theorem ChatPanel.ShowsOpen.fallBack (h : panel.ShowsOpen t x) (hfinished : x.finished = false)
    {error : StreamError} (hending : x.ending = .errored error) (hname : error.name = streamUnavailable) :
    { panel with
      subscriptions := [.fallback x.question ((t.before x).length + 1)]
      askedAgain := panel.askedAgain ++ [x.question] : ChatPanel }.Shows (t.put { x with finished := true }) := by
  have hrequest : { x with finished := true : Exchange }.request = x.request := rfl
  have hunavailable : { x with finished := true : Exchange }.unavailable = true := by
    change x.unavailable = true
    simp [Exchange.unavailable, hending, hname]
  have hnone : x.fallback = none := by
    have hopen := h.isOpen
    simp only [Exchange.isOver, Bool.or_eq_false_iff] at hopen
    simpa using hopen.1
  apply h.put_open hrequest
  · rw [Exchange.isOver, hunavailable]
    simp [hnone]
  · exact h.messages
  · rfl
  · exact h.pending
  · rfl
  · rfl
  · simp [h.askedAgain, hfinished]

/-- The stream breaks off. What has come of the reply stays. -/
theorem ChatPanel.ShowsOpen.fail (h : panel.ShowsOpen t x) (hfinished : x.finished = false) {error : StreamError}
    (hending : x.ending = .errored error) (hname : error.name ≠ streamUnavailable) :
    { panel with
      chat := panel.chat.streamFailed ((t.before x).length + 1) error, subscriptions := [] : ChatPanel }.Shows
        (t.put { x with finished := true }) := by
  have hrequest : { x with finished := true : Exchange }.request = x.request := rfl
  have havailable : { x with finished := true : Exchange }.unavailable = false := by
    change x.unavailable = false
    simp [Exchange.unavailable, hending, hname]
  have hclosed : { x with finished := true : Exchange }.closed =
      if x.text = [] then [⟨.error, describeThrown error, x.requestId, false⟩]
      else [⟨.agent, x.text, x.requestId, false⟩, ⟨.error, describeThrown error, none, false⟩] := by
    have hsame : { x with finished := true : Exchange }.ending = .errored error := hending
    simp only [Exchange.closed, hsame, if_neg hname]
    rfl
  have hchat : panel.chat.streamFailed ((t.before x).length + 1) error =
      { panel.chat with
        pending := false
        messages := numbered (t.before x ++ { x with finished := true : Exchange }.closed)
        nextId := (t.before x).length + { x with finished := true : Exchange }.closed.length + 1 } := by
    simp only [AgentChat.streamFailed, AgentChat.patch, h.messages]
    rw [patch_numbered _ _ rfl, hclosed]
    by_cases hempty : x.text = []
    · rw [find?_numbered _ _ (by simp [Bubble.message, Exchange.open?, hempty]), if_pos hempty, numbered_concat]
      simp [Bubble.message, Exchange.open?, hempty, h.nextId]
    · rw [find?_numbered _ _ (by simp [Bubble.message, Exchange.open?, hempty]), if_neg hempty,
        numbered_concat_two]
      simp [Bubble.message, Exchange.open?, hempty, AgentChat.append, h.nextId]
  apply h.put_over hrequest rfl
  · simp [Exchange.isOver, havailable]
  · rw [hchat]
  · rw [hchat]
  · rw [hchat]
  · rfl
  · rfl
  · rw [h.askedAgain, havailable]
    simp [hfinished]

/-- The other endpoint answers. -/
theorem ChatPanel.ShowsOpen.fallbackAnswered (h : panel.ShowsOpen t x) (hfinished : x.finished = true)
    (reply : Except JsString AgentReply) :
    { panel with
      chat := panel.chat.fallbackAnswered ((t.before x).length + 1) reply, subscriptions := [] : ChatPanel }.Shows
        (t.put { x with fallback := some reply }) := by
  have hrequest : { x with fallback := some reply : Exchange }.request = x.request := rfl
  have hunavailable : { x with fallback := some reply : Exchange }.unavailable = true :=
    (x.unavailable_of_finished h.isOpen hfinished).1
  have hclosed : { x with fallback := some reply : Exchange }.closed =
      match reply with
      | .ok reply => [⟨.agent, reply.message, reply.requestId, false⟩]
      | .error description => [⟨.error, description, x.requestId, false⟩] := by
    simp only [Exchange.unavailable] at hunavailable
    unfold Exchange.closed
    split
    case h_1 hending => simp [hending] at hunavailable
    case h_2 error fallback hending =>
      rw [hending] at hunavailable
      rw [if_pos (by simpa using hunavailable)]
      cases reply <;> rfl
  apply h.put_over hrequest hfinished
  · simp [Exchange.isOver]
  · rw [hclosed]
    simp only [AgentChat.fallbackAnswered, AgentChat.patch, h.messages]
    rw [patch_numbered _ _ rfl]
    cases reply <;> rw [numbered_concat] <;> rfl
  · rw [hclosed]
    cases reply <;> exact h.nextId
  · rfl
  · rfl
  · rfl
  · rw [h.askedAgain, hunavailable]
    simp [hfinished]

/-- A subscription of the panel is that of the open exchange. -/
theorem ChatPanel.Shows.current_of_subscription (h : panel.Shows t) {i : ℕ} {subscription : ChatSubscription}
    (hsubscription : panel.subscriptions[i]? = some subscription) :
    i = 0 ∧ ∃ x, t.current = some x ∧ panel.ShowsOpen t x ∧
      subscription = x.subscription ((t.before x).length + 1) := by
  cases hcurrent : t.current with
  | none => simp [h.subscriptions, hcurrent] at hsubscription
  | some x =>
    have hopen := h.showsOpen hcurrent
    rw [hopen.subscriptions] at hsubscription
    cases i with
    | zero => exact ⟨rfl, x, rfl, hopen, (Option.some.inj hsubscription).symm⟩
    | succ i => simp at hsubscription

/-- The open exchange goes on with its stream. -/
theorem ChatPanel.Shows.next (h : panel.Shows t) {i : ℕ} {panel' : ChatPanel} (hnext : panel.next i = some panel') :
    ∃ e t', t.step e = some t' ∧ panel'.Shows t' := by
  cases hsubscription : panel.subscriptions[i]? with
  | none => simp [ChatPanel.next, hsubscription] at hnext
  | some subscription =>
    obtain ⟨rfl, x, hcurrent, hopen, rfl⟩ := h.current_of_subscription hsubscription
    rw [ChatPanel.next, hsubscription, hopen.subscriptions] at hnext
    cases hfinished : x.finished with
    | true => simp [Exchange.subscription, hfinished] at hnext
    | false =>
      have hstream : x.subscription ((t.before x).length + 1) =
          .stream x.question ((t.before x).length + 1) (x.events.drop x.received) x.ending := by
        simp [Exchange.subscription, hfinished]
      rw [hstream] at hnext
      cases hrest : x.events.drop x.received with
      | cons event rest =>
        have hlt : x.received < x.events.length := by
          by_contra hnot
          rw [List.drop_eq_nil_of_le (by omega)] at hrest
          cases hrest
        simp only [hrest] at hnext
        obtain rfl := Option.some.inj hnext
        exact ⟨.receive, _, by simp [Transcript.step, hcurrent, hfinished, hlt], hopen.receive hfinished hrest⟩
      | nil =>
        have hall : x.events.length ≤ x.received := List.drop_eq_nil_iff.mp hrest
        have hfinish : t.step .finish = some (t.put { x with finished := true }) := by
          simp [Transcript.step, hcurrent, hfinished, hall]
        refine ⟨.finish, _, hfinish, ?_⟩
        cases hending : x.ending with
        | completed =>
          simp only [hrest, hending] at hnext
          obtain rfl := Option.some.inj hnext
          exact hopen.complete hfinished hending
        | errored error =>
          simp only [hrest, hending] at hnext
          by_cases hname : error.name = streamUnavailable
          · rw [if_pos hname] at hnext
            obtain rfl := Option.some.inj hnext
            exact hopen.fallBack hfinished hending hname
          · rw [if_neg hname] at hnext
            obtain rfl := Option.some.inj hnext
            exact hopen.fail hfinished hending hname

/-- Whatever happens to the panel happens to the transcript that it shows. -/
theorem ChatPanel.follows : Follows ChatPanel.step Transcript.step ChatPanel.Shows := by
  intro panel t e panel' h hstep
  cases e with
  | input value =>
    obtain rfl := Option.some.inj hstep
    exact ⟨[], t, rfl, h.withDraft value⟩
  | send fetched =>
    obtain rfl := Option.some.inj hstep
    exact h.send fetched
  | use suggestion fetched =>
    obtain rfl := Option.some.inj hstep
    exact (h.withDraft suggestion).send fetched
  | next i =>
    obtain ⟨e, t', hgoes, hshows⟩ := h.next hstep
    exact ⟨[e], t', (runFrom_singleton _ _ _).trans hgoes, hshows⟩
  | fallbackAnswered i reply =>
    cases hsubscription : panel.subscriptions[i]? with
    | none => simp [ChatPanel.step, hsubscription] at hstep
    | some subscription =>
      obtain ⟨rfl, x, hcurrent, hopen, rfl⟩ := h.current_of_subscription hsubscription
      simp only [ChatPanel.step, hopen.subscriptions] at hstep
      cases hfinished : x.finished with
      | false => simp [Exchange.subscription, hfinished] at hstep
      | true =>
        simp only [Exchange.subscription, hfinished] at hstep
        obtain rfl := Option.some.inj hstep
        have hanswered : t.step (.fallBack reply) = some (t.put { x with fallback := some reply }) := by
          simp [Transcript.step, hcurrent, hfinished]
        exact ⟨[.fallBack reply], _, (runFrom_singleton _ _ _).trans hanswered, hopen.fallbackAnswered hfinished reply⟩

end Steps

section Runs

variable {panel : ChatPanel}

/-- A panel that has just been made shows nothing. -/
theorem ChatPanel.shows_empty : ({} : ChatPanel).Shows .empty := ⟨rfl, rfl, rfl, rfl, rfl, rfl⟩

/-- Whatever the user does and in whatever order the network answers, the panel shows a transcript in which at most one
exchange is open: its messages are the bubbles of the exchanges, numbered from one, it waits for the open exchange only,
and its exchanges are the requests that it has sent, in their order. -/
theorem chat_shows_transcript {events : List ChatPanelEvent} (hrun : runFrom ChatPanel.step {} events = some panel) :
    ∃ steps t, runFrom Transcript.step .empty steps = some t ∧ panel.Shows t :=
  ChatPanel.follows.run hrun ChatPanel.shows_empty

/-- A server that has no stream is asked at its other endpoint; a question sent meanwhile is not taken. -/
def askedAgainOnce : List ChatPanelEvent :=
  let missing : StreamResponse := ⟨false, 404, utf16 "Not Found", none, true, none, [], none⟩
  [.input (utf16 " Hello "), .send (.ok missing), .next 0, .use (utf16 "Again?") (.ok missing),
    .fallbackAnswered 0 (.ok ⟨utf16 "Ready.", some (utf16 "r-1")⟩)]

/-- The reply of the other endpoint is shown. -/
theorem chat_shows_transcript_askedAgain : ∃ panel, runFrom ChatPanel.step {} askedAgainOnce = some panel ∧
    panel.chat.messages = [⟨1, .user, utf16 "Hello", none, false⟩,
      ⟨2, .agent, utf16 "Ready.", some (utf16 "r-1"), false⟩] ∧
    ∃ steps t, runFrom Transcript.step .empty steps = some t ∧ panel.Shows t := by
  have hcomputed : (runFrom ChatPanel.step {} askedAgainOnce).map (fun panel => panel.chat.messages) =
      some [⟨1, .user, utf16 "Hello", none, false⟩, ⟨2, .agent, utf16 "Ready.", some (utf16 "r-1"), false⟩] := by
    decide +kernel
  obtain ⟨panel, hrun, hmessages⟩ := Option.map_eq_some_iff.mp hcomputed
  exact ⟨panel, hrun, hmessages, chat_shows_transcript hrun⟩

/-- What is over of an exchange has come completely. -/
def Exchange.Settled (x : Exchange) : Prop :=
  (x.isOver = true → x.finished = true) ∧ (x.finished = true → x.events.length ≤ x.received)

/-- Nothing of a stream is left out. -/
theorem Transcript.settled_step {t t' : Transcript} {e : TranscriptEvent}
    (h : ∀ x ∈ t.exchanges, x.Settled) (hstep : t.step e = some t') : ∀ x ∈ t'.exchanges, x.Settled := by
  have hput : ∀ x : Exchange, x.Settled → ∀ y ∈ (t.put x).exchanges, y.Settled := by
    intro x hx y hy
    rw [Transcript.exchanges_put] at hy
    rcases List.mem_append.mp hy with hold | hnew
    · exact h y (List.mem_append_left _ hold)
    · exact List.mem_singleton.mp hnew ▸ hx
  have hcurrent : ∀ x, t.current = some x → x.isOver = false ∧ x.Settled := fun x hx =>
    ⟨t.current_open x hx, h x (by simp [Transcript.exchanges, hx])⟩
  cases e with
  | ask question fetched =>
    simp only [Transcript.step, Option.ite_none_right_eq_some] at hstep
    obtain ⟨-, hput'⟩ := hstep
    obtain rfl := Option.some.inj hput'
    exact hput _ ⟨by simp [Exchange.isOver], by simp⟩
  | receive =>
    obtain ⟨x, hx, hreceive⟩ := Option.bind_eq_some_iff.mp hstep
    simp only [Option.ite_none_right_eq_some] at hreceive
    obtain ⟨⟨hfinished, -⟩, hput'⟩ := hreceive
    obtain rfl := Option.some.inj hput'
    refine hput _ ⟨fun hover => ?_, by simp [hfinished]⟩
    have hopen := (hcurrent x hx).1
    exact absurd (hover.symm.trans hopen) (by simp)
  | finish =>
    obtain ⟨x, hx, hfinish⟩ := Option.bind_eq_some_iff.mp hstep
    simp only [Option.ite_none_right_eq_some] at hfinish
    obtain ⟨⟨-, hall⟩, hput'⟩ := hfinish
    obtain rfl := Option.some.inj hput'
    exact hput _ ⟨fun _ => rfl, fun _ => hall⟩
  | fallBack reply =>
    obtain ⟨x, hx, hanswered⟩ := Option.bind_eq_some_iff.mp hstep
    simp only [Option.ite_none_right_eq_some] at hanswered
    obtain ⟨hfinished, hput'⟩ := hanswered
    obtain rfl := Option.some.inj hput'
    exact hput _ ⟨fun _ => hfinished, (hcurrent x hx).2.2⟩

/-- In a transcript that was reached everything of an exchange that is over has come. -/
theorem Transcript.settled_run {steps : List TranscriptEvent} {t : Transcript}
    (hrun : runFrom Transcript.step .empty steps = some t) : ∀ x ∈ t.exchanges, x.Settled :=
  runFrom_invariant Transcript.step (fun t => ∀ x ∈ t.exchanges, x.Settled)
    (fun _ _ _ h hstep => Transcript.settled_step h hstep) hrun (by simp [Transcript.empty, Transcript.exchanges])

end Runs

end Agentops
