import Agentops.Foundations.LabelledRun
import Agentops.Foundations.Trimming
import Agentops.Frontend.EventStream

/-!
# The chat panel, `frontend/src/app/components/agent-chat.component.ts`

The panel shows messages in bubbles. What is sent becomes one bubble, the reply another one that grows while its
stream runs, and an error may take the place of the reply or come behind it. A server without the stream is asked
again at its other endpoint. User and network act in any order.
-/

namespace Agentops

open TextDecoder (utf16)

/-- `ChatRole`. -/
inductive ChatRole
  | user | agent | error
  deriving DecidableEq, Repr

/-- `ChatMessage`; neither a request id nor `streaming` is the same as one that is null or false. -/
structure ChatMessage where
  id : ℕ
  role : ChatRole
  text : JsString
  requestId : Option JsString := none
  streaming : Bool := false
  deriving DecidableEq, Repr

/-- `AgentReply`. -/
structure AgentReply where
  message : JsString
  requestId : Option JsString
  deriving DecidableEq, Repr

/-- `describeError` of an `Error` that is no answer of the server. -/
def describeThrown (error : StreamError) : JsString :=
  if error.message = utf16 "Failed to fetch" then
    utf16 "Cannot reach the API. Is uvicorn running on port 8000?"
  else error.message

/-- What is shown for an empty reply. -/
def emptyReplyText : JsString := utf16 "The agent returned an empty reply."

/-- The signals of `AgentChatComponent`, and its counter. -/
structure AgentChat where
  messages : List ChatMessage := []
  draft : JsString := []
  pending : Bool := false
  nextId : ℕ := 1
  deriving DecidableEq, Repr

namespace AgentChat

/-- `append`; the id of the new message is the counter before. -/
def append (role : ChatRole) (text : JsString) (streaming : Bool) (chat : AgentChat) : AgentChat :=
  { chat with
    messages := chat.messages ++ [⟨chat.nextId, role, text, none, streaming⟩], nextId := chat.nextId + 1 }

/-- `patch`. -/
def patch (id : ℕ) (update : ChatMessage → ChatMessage) (chat : AgentChat) : AgentChat :=
  { chat with messages := chat.messages.map fun message => if message.id = id then update message else message }

/-- `send`, with the text that the API is asked about and the id of the bubble for the reply. -/
def send (chat : AgentChat) : AgentChat × Option (JsString × ℕ) :=
  let text := Trimming.trim isJsSpace chat.draft
  if text = [] ∨ chat.pending = true then (chat, none)
  else
    let asked := { chat.append .user text false with draft := [], pending := true }
    (asked.append .agent [] true, some (text, asked.nextId))

/-- `next`. -/
def streamed (replyId : ℕ) : AgentStreamEvent → AgentChat → AgentChat
  | .opened requestId => patch replyId fun message => { message with requestId := requestId }
  | .chunk text => patch replyId fun message => { message with text := message.text ++ text }

/-- `error`, where no other endpoint is asked. -/
def streamFailed (replyId : ℕ) (error : StreamError) (chat : AgentChat) : AgentChat :=
  let patched := { chat with pending := false }.patch replyId fun message =>
    if message.text ≠ [] then { message with streaming := false }
    else { message with role := .error, text := describeThrown error, streaming := false }
  if (patched.messages.find? (·.id = replyId)).map (·.role) = some .agent then
    patched.append .error (describeThrown error) false
  else patched

/-- `complete`. -/
def streamCompleted (replyId : ℕ) (chat : AgentChat) : AgentChat :=
  { chat with pending := false }.patch replyId fun message =>
    { message with streaming := false, text := if message.text = [] then emptyReplyText else message.text }

/-- `fallback`, with the answer of `askAgent`; of a failure the text that `describeError` makes of it. -/
def fallbackAnswered (replyId : ℕ) (reply : Except JsString AgentReply) (chat : AgentChat) : AgentChat :=
  { chat with pending := false }.patch replyId fun message =>
    match reply with
    | .ok reply => { message with text := reply.message, requestId := reply.requestId, streaming := false }
    | .error description => { message with role := .error, text := description, streaming := false }

end AgentChat

/-- A subscription of the panel, with what it still brings: the rest of a stream, or an answer of `askAgent`. -/
inductive ChatSubscription
  | stream (text : JsString) (replyId : ℕ) (events : List AgentStreamEvent) (ending : StreamEnding)
  | fallback (text : JsString) (replyId : ℕ)
  deriving DecidableEq, Repr

/-- The panel with its subscriptions, the texts that it has sent with what `fetch` gives to each, and the texts that
it has sent to the other endpoint. -/
structure ChatPanel where
  chat : AgentChat := {}
  subscriptions : List ChatSubscription := []
  sent : List (JsString × Except StreamError StreamResponse) := []
  askedAgain : List JsString := []

/-- What the user does, and what the network brings. A text that is sent comes with what `fetch` will give. -/
inductive ChatPanelEvent
  | input (value : JsString)
  | send (fetched : Except StreamError StreamResponse)
  | use (suggestion : JsString) (fetched : Except StreamError StreamResponse)
  | next (i : ℕ)
  | fallbackAnswered (i : ℕ) (reply : Except JsString AgentReply)

namespace ChatPanel

/-- `send`, with the subscription. -/
def send (fetched : Except StreamError StreamResponse) (panel : ChatPanel) : ChatPanel :=
  match panel.chat.send with
  | (chat, none) => { panel with chat := chat }
  | (chat, some (text, replyId)) =>
    let (events, ending) := streamAgent fetched
    { panel with
      chat := chat
      subscriptions := panel.subscriptions ++ [.stream text replyId events ending]
      sent := panel.sent ++ [(text, fetched)] }

/-- The stream of a subscription goes on, or ends. -/
def next (i : ℕ) (panel : ChatPanel) : Option ChatPanel :=
  match panel.subscriptions[i]? with
  | some (.stream text replyId (event :: events) ending) =>
    some { panel with
      chat := panel.chat.streamed replyId event
      subscriptions := panel.subscriptions.set i (.stream text replyId events ending) }
  | some (.stream _ replyId [] .completed) =>
    some { panel with
      chat := panel.chat.streamCompleted replyId, subscriptions := panel.subscriptions.eraseIdx i }
  | some (.stream text replyId [] (.errored error)) =>
    if error.name = streamUnavailable then
      some { panel with
        subscriptions := panel.subscriptions.set i (.fallback text replyId)
        askedAgain := panel.askedAgain ++ [text] }
    else
      some { panel with
        chat := panel.chat.streamFailed replyId error, subscriptions := panel.subscriptions.eraseIdx i }
  | _ => none

/-- One event. -/
def step (panel : ChatPanel) : ChatPanelEvent → Option ChatPanel
  | .input value => some { panel with chat := { panel.chat with draft := value } }
  | .send fetched => some (panel.send fetched)
  | .use suggestion fetched => some ({ panel with chat := { panel.chat with draft := suggestion } }.send fetched)
  | .next i => panel.next i
  | .fallbackAnswered i reply =>
    match panel.subscriptions[i]? with
    | some (.fallback _ replyId) =>
      some { panel with
        chat := panel.chat.fallbackAnswered replyId reply, subscriptions := panel.subscriptions.eraseIdx i }
    | _ => none

end ChatPanel

end Agentops
