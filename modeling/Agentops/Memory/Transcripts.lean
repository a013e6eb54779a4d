import Agentops.Agent.Messages
import Agentops.Agent.OrderIds

/-!
# Transcripts, `app/conversation_memory.py`

The messages of a checkpoint, each with the conversation of the turn that has added it and the number
of the commit by which it came in, and the plain text that a summary is made from: one line for each
message of the customer or an agent that is not blank.
-/

namespace Agentops

variable {Args : Type}

/-- A message of a checkpoint. Who has added it and when takes part in nothing that the code does. -/
structure Entry (Args : Type) where
  customerId : String
  threadId : String
  number : ℕ
  body : MessageBody Args
  deriving DecidableEq, Repr

/-- A line of a transcript, unless the text is blank. -/
def transcriptLine (role content : String) : Option String :=
  let text := stripText content
  if text = "" then none else some (role ++ ": " ++ text)

/-- The line of a message. Results of tools have none. -/
def Entry.line (m : Entry Args) : Option String :=
  match m.body with
  | .human content => transcriptLine "Customer" content
  | .ai message => transcriptLine "Agent" message.content
  | .tool _ => none

/-- The message is customer or agent text. -/
def Entry.isText (m : Entry Args) : Bool := m.line.isSome

/-- `_transcript`: the lines as one text, and their number. -/
def transcript (messages : List (Entry Args)) : String × ℕ :=
  let lines := messages.filterMap Entry.line
  ("\n".intercalate lines, lines.length)

/-- A line is not empty. -/
theorem line_ne_empty {m : Entry Args} {line : String} (h : m.line = some line) : line ≠ "" := by
  have hrole : ∀ role content, transcriptLine role content = some line → role ≠ "" → line ≠ "" := by
    intro role content hline hne hempty
    unfold transcriptLine at hline
    simp only [hempty] at hline
    split at hline
    · exact absurd hline (by simp)
    · have hlist := congrArg String.toList (Option.some.inj hline)
      simp at hlist
  unfold Entry.line at h
  split at h
  · exact hrole _ _ h (by decide)
  · exact hrole _ _ h (by decide)
  · exact absurd h (by simp)

/-- A transcript is empty exactly when no message is text. -/
theorem transcript_eq_empty_iff {messages : List (Entry Args)} :
    (transcript messages).1 = "" ↔ ∀ m ∈ messages, m.isText = false := by
  have hlines : messages.filterMap Entry.line = [] ↔ ∀ m ∈ messages, m.isText = false := by
    simp [Entry.isText, List.filterMap_eq_nil_iff]
  rw [← hlines]
  constructor
  · intro hempty
    cases hfirst : messages.filterMap Entry.line with
    | nil => rfl
    | cons line rest =>
      have hmem : line ∈ messages.filterMap Entry.line := hfirst ▸ List.mem_cons_self
      obtain ⟨m, -, hm⟩ := List.mem_filterMap.mp hmem
      have hjoined : "\n".intercalate (line :: rest) = "" := by simpa [transcript, hfirst] using hempty
      cases rest with
      | nil => exact absurd (by simpa using hjoined) (line_ne_empty hm)
      | cons next rest => simp [String.intercalate_cons_cons] at hjoined
  · intro h
    simp [transcript, h]

/-- A longer conversation has no shorter transcript. -/
theorem transcript_count_le {messages messages' : List (Entry Args)} (h : messages <+: messages') :
    (transcript messages).2 ≤ (transcript messages').2 :=
  (h.filterMap Entry.line).length_le

end Agentops
