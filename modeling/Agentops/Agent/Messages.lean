import Agentops.Foundations.KeyedTable
import Mathlib.Data.List.Basic

/-!
# Message histories

The messages of a conversation with the reducer `add_messages`: a message with an id that is in
the list takes the place of the one that is there, any other message is appended, and a message
without an id is given a new one. Only the equality of ids matters, and they are numbers here. The
arguments of a tool call are of any type.
-/

namespace Agentops

variable {Args : Type}

/-- A tool call of a model. -/
structure ToolCall (Args : Type) where
  name : String
  args : Args
  id : Option String
  deriving DecidableEq, Repr

/-- A tool call that could not be parsed. -/
structure InvalidToolCall where
  name : Option String
  args : Option String
  id : Option String
  error : Option String
  deriving DecidableEq, Repr

/-- `AIMessage`. -/
structure AIMessage (Args : Type) where
  content : String
  toolCalls : List (ToolCall Args) := []
  invalidToolCalls : List InvalidToolCall := []
  deriving DecidableEq, Repr

/-- `ToolMessage`. -/
structure ToolMessage where
  content : String
  toolCallId : Option String
  isError : Bool
  deriving DecidableEq, Repr

/-- What a message says, and who says it. -/
inductive MessageBody (Args : Type)
  | human (content : String)
  | ai (message : AIMessage Args)
  | tool (message : ToolMessage)
  deriving DecidableEq, Repr

/-- A message of the state, where every message has an id. -/
structure Message (Args : Type) where
  id : ℕ
  body : MessageBody Args
  deriving DecidableEq, Repr

/-- The answer of a model in a message. -/
def MessageBody.ai? : MessageBody Args → Option (AIMessage Args)
  | .ai message => some message
  | _ => none

/-- The messages of the tools. -/
def MessageBody.isTool : MessageBody Args → Bool
  | .tool _ => true
  | _ => false

/-- An id that no message has. -/
def freshId (messages : List (Message Args)) : ℕ := (messages.map Message.id).foldr max 0 + 1

/-- `add_messages` for one message. -/
def addMessage (messages : List (Message Args)) (id : Option ℕ) (body : MessageBody Args) :
    List (Message Args) :=
  match id with
  | none => messages ++ [⟨freshId messages, body⟩]
  | some i =>
    if i ∈ messages.map Message.id then
      KeyedTable.update Message.id i (fun m => { m with body := body }) messages
    else messages ++ [⟨i, body⟩]

/-- `add_messages` for messages without ids. -/
def addNewMessages (messages : List (Message Args)) (bodies : List (MessageBody Args)) :
    List (Message Args) :=
  bodies.foldl (fun messages body => addMessage messages none body) messages

/-- The latest answer of a model. -/
def latestAIMessage (messages : List (Message Args)) : Option (AIMessage Args) :=
  messages.reverse.findSome? fun m => m.body.ai?

/-- The last message. -/
def lastBody (messages : List (Message Args)) : Option (MessageBody Args) :=
  messages.getLast?.map Message.body

/-- The last message of all is also the latest answer, if it is one. -/
theorem latestAIMessage_of_lastBody {messages : List (Message Args)} {message : AIMessage Args}
    (h : lastBody messages = some (.ai message)) : latestAIMessage messages = some message := by
  obtain ⟨m, hm, hbody⟩ := Option.map_eq_some_iff.mp h
  obtain ⟨rest, rfl⟩ := List.getLast?_eq_some_iff.mp hm
  simp [latestAIMessage, MessageBody.ai?, hbody]

/-- Adding a message without an id puts it last. -/
@[simp] theorem lastBody_addMessage_none (messages : List (Message Args)) (body : MessageBody Args) :
    lastBody (addMessage messages none body) = some body := by
  simp [lastBody, addMessage]

/-- Adding a message puts it last, or leaves the last message as it is. -/
theorem lastBody_addMessage (messages : List (Message Args)) (id : Option ℕ) (body : MessageBody Args) :
    lastBody (addMessage messages id body) = some body ∨
      lastBody (addMessage messages id body) = lastBody messages := by
  cases id with
  | none => exact .inl (lastBody_addMessage_none messages body)
  | some i =>
    unfold addMessage
    simp only
    split
    · cases messages.eq_nil_or_concat with
      | inl hnil => simp [hnil, lastBody, KeyedTable.update]
      | inr hconcat =>
        obtain ⟨rest, m, rfl⟩ := hconcat
        by_cases hid : m.id = i
        · exact .inl (by simp [lastBody, KeyedTable.update, hid])
        · exact .inr (by simp [lastBody, KeyedTable.update, hid])
    · exact .inl (by simp [lastBody])

/-- A message that is not put last has the id of a message that is there. -/
theorem exists_mem_of_lastBody_addMessage {messages : List (Message Args)} {id : Option ℕ}
    {body : MessageBody Args} (h : lastBody (addMessage messages id body) ≠ some body) :
    ∃ i ∈ messages.map Message.id, id = some i := by
  cases id with
  | none => exact absurd (lastBody_addMessage_none messages body) h
  | some i =>
    by_cases hmem : i ∈ messages.map Message.id
    · exact ⟨i, hmem, rfl⟩
    · exact absurd (by simp [addMessage, hmem, lastBody]) h

/-- A new id is not taken. -/
theorem freshId_notMem (messages : List (Message Args)) : freshId messages ∉ messages.map Message.id := by
  have hle : ∀ (ids : List ℕ), ∀ i ∈ ids, i ≤ ids.foldr max 0 := by
    intro ids
    induction ids with
    | nil => intro i hi; simp at hi
    | cons first rest ih =>
      intro i hi
      rcases List.mem_cons.mp hi with rfl | hrest
      · exact le_max_left _ _
      · exact (ih i hrest).trans (le_max_right _ _)
  intro hmem
  exact absurd (hle _ _ hmem) (by simp [freshId])

/-- Adding a message keeps the ids unique. -/
theorem unique_addMessage {messages : List (Message Args)} (h : KeyedTable.Unique Message.id messages)
    (id : Option ℕ) (body : MessageBody Args) :
    KeyedTable.Unique Message.id (addMessage messages id body) := by
  cases id with
  | none => exact h.append (freshId_notMem messages)
  | some i =>
    by_cases hmem : i ∈ messages.map Message.id
    · simp only [addMessage, hmem, if_true]
      exact h.update fun _ => rfl
    · simp only [addMessage, hmem, if_false]
      exact h.append hmem

/-- Replacing a message before the last leaves the last message as it is. -/
theorem lastBody_addMessage_of_mem_dropLast {messages : List (Message Args)}
    (h : KeyedTable.Unique Message.id messages) {i : ℕ} (hi : i ∈ messages.dropLast.map Message.id)
    (body : MessageBody Args) : lastBody (addMessage messages (some i) body) = lastBody messages := by
  obtain ⟨rest, m, rfl⟩ := (List.eq_nil_or_concat messages).resolve_left fun hnil => by
    simp [hnil] at hi
  simp only [List.concat_eq_append, List.dropLast_concat, List.map_append, List.map_cons, List.map_nil,
    KeyedTable.Unique, List.nodup_append, List.mem_singleton] at hi h ⊢
  have hid : m.id ≠ i := fun hid => h.2.2 i hi m.id rfl hid.symm
  have hreplaced : addMessage (rest ++ [m]) (some i) body =
      KeyedTable.update Message.id i (fun m => { m with body := body }) (rest ++ [m]) :=
    if_pos (by simpa using .inl (by simpa using hi))
  rw [hreplaced]
  simp [lastBody, KeyedTable.update, hid]

/-- A message is appended, replaces the last message, or replaces one before it. -/
theorem addMessage_cases {messages : List (Message Args)} (h : KeyedTable.Unique Message.id messages)
    (id : Option ℕ) (body : MessageBody Args) :
    (∃ i, addMessage messages id body = messages ++ [⟨i, body⟩]) ∨
    (∃ rest m, messages = rest ++ [m] ∧ id = some m.id ∧
      addMessage messages id body = rest ++ [⟨m.id, body⟩]) ∨
    ∃ i ∈ messages.dropLast.map Message.id, id = some i := by
  cases id with
  | none => exact .inl ⟨freshId messages, rfl⟩
  | some i =>
    by_cases hmem : i ∈ messages.map Message.id
    · have hreplaced : addMessage messages (some i) body =
          KeyedTable.update Message.id i (fun m => { m with body := body }) messages := if_pos hmem
      rw [hreplaced]
      obtain ⟨rest, m, rfl⟩ := (List.eq_nil_or_concat messages).resolve_left fun hnil => by
        simp [hnil] at hmem
      simp only [List.concat_eq_append, List.map_append, List.map_cons, List.map_nil, List.mem_append,
        List.mem_singleton, KeyedTable.Unique, List.nodup_append] at hmem h ⊢
      by_cases hid : m.id = i
      · have hrest : i ∉ rest.map Message.id := fun hi => h.2.2 i hi m.id rfl hid.symm
        refine .inr (.inl ⟨rest, m, rfl, congrArg some hid.symm, ?_⟩)
        rw [KeyedTable.update_append, KeyedTable.update_of_notMem hrest]
        simp [KeyedTable.update, hid]
      · exact .inr (.inr ⟨i, by simpa [Ne.symm hid] using hmem, rfl⟩)
    · exact .inl ⟨i, by simp [addMessage, hmem]⟩

/-- New messages are appended in their order. -/
theorem map_body_addNewMessages (messages : List (Message Args)) (bodies : List (MessageBody Args)) :
    (addNewMessages messages bodies).map Message.body = messages.map Message.body ++ bodies := by
  induction bodies generalizing messages with
  | nil => simp [addNewMessages]
  | cons body rest ih =>
    have hrest := ih (addMessage messages none body)
    simpa [addNewMessages, addMessage] using hrest

/-- New messages keep the ids unique. -/
theorem unique_addNewMessages {messages : List (Message Args)}
    (h : KeyedTable.Unique Message.id messages) (bodies : List (MessageBody Args)) :
    KeyedTable.Unique Message.id (addNewMessages messages bodies) := by
  induction bodies generalizing messages with
  | nil => exact h
  | cons body rest ih => exact ih (unique_addMessage h none body)

/-- Adding new messages puts the last of them last. -/
theorem lastBody_addNewMessages {messages : List (Message Args)} {bodies : List (MessageBody Args)}
    (h : bodies ≠ []) : lastBody (addNewMessages messages bodies) = bodies.getLast? := by
  obtain ⟨rest, body, rfl⟩ := List.eq_nil_or_concat bodies |>.resolve_left h
  simp [addNewMessages]

end Agentops
