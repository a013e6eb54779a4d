import Agentops.Foundations.KeyedTable
import Agentops.Foundations.SortedSet
import Agentops.Memory.Activity
import Agentops.Memory.Transcripts
import Mathlib.Logic.Function.Basic

/-!
# Conversation memory as a whole

Turns mark their conversation as active and then write their messages into its checkpoint. Sweeps look
for conversations that nobody has added to for a while, summarise them and remove their markers, and a
customer may have a conversation summarised at any time. Everything that waits for Redis, a model or the
database is a step of its own, so that any of these may overtake each other. A turn holds its own copy
of the messages and may change it in any way that the reducer of the graph admits.
-/

namespace Agentops

variable {Args Vector : Type}

/-- A row of `conversation_summaries`, with the messages that it was computed from and the number of
commits until they were read. -/
structure ConversationSummary (Args Vector : Type) where
  customerId : String
  threadId : String
  summary : String
  embedding : Vector
  messageCount : ℕ
  createdAt : ℕ
  found : List (Entry Args)
  readAt : ℕ

/-- `UNIQUE (customer_id, thread_id)`. -/
def ConversationSummary.key (row : ConversationSummary Args Vector) : String × String :=
  (row.customerId, row.threadId)

/-- A turn that has been let through. Its state is there once its graph has begun. -/
structure MemoryTurn (Args : Type) where
  customerId : String
  threadId : String
  message : String
  state : Option (List (Entry Args))

/-- The key of the turn's checkpoint. -/
def MemoryTurn.key (turn : MemoryTurn Args) : String := conversationKey turn.customerId turn.threadId

/-- A message that the turn adds. -/
def MemoryTurn.entry (turn : MemoryTurn Args) (number : ℕ) (body : MessageBody Args) : Entry Args :=
  ⟨turn.customerId, turn.threadId, number, body⟩

/-- How far a call of `summarise_and_store` has come: it waits for the model or for the embedding, or it
is over. -/
inductive AttemptStage
  | summarising
  | embedding (summary : String)
  | emptyConversation
  | emptySummary
  | stored
  | failed
  | cancelled
  deriving DecidableEq, Repr

/-- The call is over and its caller goes on. -/
def AttemptStage.isOver : AttemptStage → Bool
  | .emptyConversation | .emptySummary | .stored | .failed => true
  | _ => false

/-- A call of `summarise_and_store`, with the messages that its checkpoint held when it read it and the
number of commits until then. -/
structure SummaryAttempt (Args : Type) where
  customerId : String
  threadId : String
  found : List (Entry Args)
  readAt : ℕ
  stage : AttemptStage

/-- The key of the checkpoint that the call reads. -/
def SummaryAttempt.key (attempt : SummaryAttempt Args) : String :=
  conversationKey attempt.customerId attempt.threadId

/-- How far a call of `sweep_idle` has come. -/
inductive SweepStage
  | ranging
  | entries (rest : List String)
  | summarising (attempt : ℕ) (entry : String) (rest : List String)
  | aborted
  deriving DecidableEq, Repr

/-- The entries that are still to be dealt with. -/
def SweepStage.pending : SweepStage → List String
  | .entries rest => rest
  | .summarising _ entry rest => entry :: rest
  | _ => []

structure Sweep where
  cutoff : ℤ
  stage : SweepStage
  closed : ℕ
  deriving DecidableEq, Repr

/-- Conversation memory. For each checkpoint it is known how many commits there had been when the summary
that was stored last was begun. -/
structure MemorySystem (Args Vector : Type) where
  clock : ℕ
  activity : SortedSet String ℕ
  checkpoints : String → List (Entry Args)
  commits : ℕ
  turns : List (MemoryTurn Args)
  attempts : List (SummaryAttempt Args)
  sweeps : List Sweep
  summaries : List (ConversationSummary Args Vector)
  lastRead : String → ℕ

/-- What can happen. Calls of the API come with the outcome of the token's check. -/
inductive MemoryEvent (Args Vector : Type)
  | tick (seconds : ℕ)
  | chat (authorization : Option String) (verified : Except HttpException Claims)
      (request : AgentStreamRequest)
  | begin (i : ℕ)
  | commit (i : ℕ) (replaced : Option ℕ) (body : MessageBody Args)
  | expire (key : String)
  | endConversation (authorization : Option String) (verified : Except HttpException Claims)
      (threadId : String) (readable : Bool)
  | reply (k : ℕ) (content : Option String)
  | embedded (k : ℕ) (vector : Vector)
  | fail (k : ℕ)
  | sweep
  | range (j : ℕ)
  | next (j : ℕ) (readable : Bool)
  | remove (j : ℕ)
  | abort (j : ℕ)

/-- `_customer_scope`. -/
def customerScope (user : CurrentUser) : Except HttpException String :=
  match user.customerId with
  | none => .error ⟨403, "This account has no customer_id claim."⟩
  | some customerId => .ok customerId

/-- The customer that the owner of a token is, for the endpoints that ask for one. -/
def callerCustomer (required : Bool) (authorization : Option String)
    (verified : Except HttpException Claims) : Except HttpException String := do
  let user ← getCurrentUser (fun _ => verified) authorization
  let user ← requireUser required user
  customerScope user

namespace MemorySystem

def initial : MemorySystem Args Vector := ⟨0, [], fun _ => [], 0, [], [], [], [], fun _ => 0⟩

/-- The conversations on which turns have been run. -/
def conversations (s : MemorySystem Args Vector) : List (String × String) :=
  s.turns.map fun turn => (turn.customerId, turn.threadId)

/-- `touch`. -/
def touch (customerId threadId : String) (s : MemorySystem Args Vector) : MemorySystem Args Vector :=
  { s with activity := s.activity.add (activityMember customerId threadId) s.clock }

/-- A turn writes its messages into its checkpoint. -/
def save (i : ℕ) (turn : MemoryTurn Args) (messages : List (Entry Args)) (s : MemorySystem Args Vector) :
    MemorySystem Args Vector :=
  { s with
    checkpoints := Function.update s.checkpoints turn.key messages
    commits := s.commits + 1
    turns := s.turns.set i { turn with state := some messages } }

/-- The messages with which a turn begins, or goes on: a message is appended, or takes the place of one
that is there. -/
def written (s : MemorySystem Args Vector) (i : ℕ) (change : Option (Option ℕ × MessageBody Args)) :
    Option (MemoryTurn Args × List (Entry Args)) := do
  let turn ← s.turns[i]?
  match turn.state, change with
  | none, none => some (turn, s.checkpoints turn.key ++ [turn.entry s.commits (.human turn.message)])
  | some messages, some (none, body) => some (turn, messages ++ [turn.entry s.commits body])
  | some messages, some (some p, body) => some (turn, messages.set p (turn.entry s.commits body))
  | _, _ => none

/-- `summarise_and_store` up to its first model call. A checkpoint that cannot be read raises. -/
def summarise (customerId threadId : String) (readable : Bool) (s : MemorySystem Args Vector) :
    MemorySystem Args Vector :=
  let found := s.checkpoints (conversationKey customerId threadId)
  let stage :=
    if !readable then .failed
    else if (transcript found).1 = "" then .emptyConversation
    else .summarising
  { s with attempts := s.attempts ++ [⟨customerId, threadId, found, s.commits, stage⟩] }

/-- The call goes on. -/
def advance (k : ℕ) (attempt : SummaryAttempt Args) (stage : AttemptStage)
    (s : MemorySystem Args Vector) : MemorySystem Args Vector :=
  { s with attempts := s.attempts.set k { attempt with stage := stage } }

/-- `save_conversation_summary`. -/
def saveConversationSummary (k : ℕ) (attempt : SummaryAttempt Args) (summary : String) (vector : Vector)
    (s : MemorySystem Args Vector) : MemorySystem Args Vector :=
  let row := ⟨attempt.customerId, attempt.threadId, summary, vector, (transcript attempt.found).2, s.clock,
    attempt.found, attempt.readAt⟩
  { s.advance k attempt .stored with
    summaries := KeyedTable.upsert ConversationSummary.key row s.summaries
    lastRead := Function.update s.lastRead attempt.key attempt.readAt }

/-- The model has answered; an answer that is no text counts as an empty one. -/
def reply (k : ℕ) (attempt : SummaryAttempt Args) (content : Option String)
    (s : MemorySystem Args Vector) : MemorySystem Args Vector :=
  let summary := (content.map stripText).getD ""
  s.advance k attempt (if summary = "" then .emptySummary else .embedding summary)

/-- The members whose scores are not above the cutoff. -/
def stale (cutoff : ℤ) (s : MemorySystem Args Vector) : List String :=
  s.activity.rangeByScore (fun score : ℕ => decide ((score : ℤ) ≤ cutoff)) fun a b =>
    decide (a.2 < b.2) || (decide (a.2 = b.2) && decide (a.1 ≤ b.1))

def setSweep (j : ℕ) (sweep : Sweep) (stage : SweepStage) (s : MemorySystem Args Vector) :
    MemorySystem Args Vector :=
  { s with sweeps := s.sweeps.set j { sweep with stage := stage } }

/-- A sweep takes up its next entry. -/
def takeUp (j : ℕ) (sweep : Sweep) (entry : String) (rest : List String) (readable : Bool)
    (s : MemorySystem Args Vector) : MemorySystem Args Vector :=
  let (customerId, threadId) := partitionMember entry
  if threadId = "" then
    ({ s with activity := s.activity.remove entry } : MemorySystem Args Vector).setSweep j sweep
      (.entries rest)
  else
    (s.summarise customerId threadId readable).setSweep j sweep (.summarising s.attempts.length entry rest)

/-- A sweep removes the marker of the entry that it has dealt with. -/
def removeMarker (j : ℕ) (sweep : Sweep) (attempt : SummaryAttempt Args) (entry : String)
    (rest : List String) (s : MemorySystem Args Vector) : MemorySystem Args Vector :=
  let closed := if attempt.stage = .stored then sweep.closed + 1 else sweep.closed
  ({ s with activity := s.activity.remove entry } : MemorySystem Args Vector).setSweep j
    { sweep with closed := closed } (.entries rest)

/-- A sweep is cancelled or Redis fails, and with the sweep its call ends. -/
def abort (j : ℕ) (sweep : Sweep) (s : MemorySystem Args Vector) : MemorySystem Args Vector :=
  let cancelled :=
    match sweep.stage with
    | .summarising k _ _ =>
      match s.attempts[k]? with
      | some attempt => if attempt.stage.isOver then s else s.advance k attempt .cancelled
      | none => s
    | _ => s
  cancelled.setSweep j sweep .aborted

end MemorySystem

/-- One event of conversation memory. -/
def memoryStep (required : Bool) (idle : ℕ) (s : MemorySystem Args Vector) :
    MemoryEvent Args Vector → Option (MemorySystem Args Vector)
  | .tick seconds => some { s with clock := s.clock + seconds }
  | .chat authorization verified request =>
    match effectiveUserId (fun _ => verified) required authorization request with
    | .error _ => some s
    | .ok userId => some { s.touch userId request.threadId with
        turns := s.turns ++ [⟨userId, request.threadId, request.message, none⟩] }
  | .begin i => (s.written i none).map fun (turn, messages) => s.save i turn messages
  | .commit i replaced body =>
    (s.written i (some (replaced, body))).map fun (turn, messages) => s.save i turn messages
  | .expire key => some { s with checkpoints := Function.update s.checkpoints key [] }
  | .endConversation authorization verified threadId readable =>
    match callerCustomer required authorization verified with
    | .error _ => some s
    | .ok customerId => some (s.summarise customerId threadId readable)
  | .reply k content =>
    match s.attempts[k]? with
    | some attempt => if attempt.stage = .summarising then some (s.reply k attempt content) else none
    | none => none
  | .embedded k vector =>
    match s.attempts[k]? with
    | some attempt =>
      match attempt.stage with
      | .embedding summary => some (s.saveConversationSummary k attempt summary vector)
      | _ => none
    | none => none
  | .fail k =>
    match s.attempts[k]? with
    | some attempt =>
      match attempt.stage with
      | .summarising | .embedding _ => some (s.advance k attempt .failed)
      | _ => none
    | none => none
  | .sweep => some { s with sweeps := s.sweeps ++ [⟨s.clock - idle, .ranging, 0⟩] }
  | .range j =>
    match s.sweeps[j]? with
    | some sweep =>
      if sweep.stage = .ranging then some (s.setSweep j sweep (.entries (s.stale sweep.cutoff))) else none
    | none => none
  | .next j readable =>
    match s.sweeps[j]? with
    | some sweep =>
      match sweep.stage with
      | .entries (entry :: rest) => some (s.takeUp j sweep entry rest readable)
      | _ => none
    | none => none
  | .remove j =>
    match s.sweeps[j]? with
    | some sweep =>
      match sweep.stage with
      | .summarising k entry rest =>
        match s.attempts[k]? with
        | some attempt =>
          if attempt.stage.isOver then some (s.removeMarker j sweep attempt entry rest) else none
        | none => none
      | _ => none
    | none => none
  | .abort j => (s.sweeps[j]?).map fun sweep => s.abort j sweep

section Changes

variable {required : Bool} {idle : ℕ} {s s' : MemorySystem Args Vector}

/-- What a turn writes in an event. -/
def MemorySystem.writes (s : MemorySystem Args Vector) :
    MemoryEvent Args Vector → Option (MemoryTurn Args × List (Entry Args))
  | .begin i => s.written i none
  | .commit i replaced body => s.written i (some (replaced, body))
  | _ => none

/-- A turn writes a message of its own beside messages that it has, or that its checkpoint had when it
began. -/
theorem MemorySystem.mem_written {i : ℕ} {change : Option (Option ℕ × MessageBody Args)}
    {turn : MemoryTurn Args} {messages : List (Entry Args)} (h : s.written i change = some (turn, messages)) :
    s.turns[i]? = some turn ∧ ∃ body, ∀ m ∈ messages, m = turn.entry s.commits body ∨
      m ∈ s.checkpoints turn.key ∨ ∃ old, turn.state = some old ∧ m ∈ old := by
  simp only [written, Option.bind_eq_bind, Option.bind_eq_some_iff] at h
  obtain ⟨turn', hturn, h⟩ := h
  split at h
  case h_1 =>
    obtain ⟨rfl, rfl⟩ := Prod.mk.inj (Option.some.inj h)
    refine ⟨hturn, .human turn'.message, fun m hm => ?_⟩
    rcases List.mem_append.mp hm with hold | hnew
    · exact .inr (.inl hold)
    · exact .inl (List.mem_singleton.mp hnew)
  case h_2 old body hstate =>
    obtain ⟨rfl, rfl⟩ := Prod.mk.inj (Option.some.inj h)
    refine ⟨hturn, body, fun m hm => ?_⟩
    rcases List.mem_append.mp hm with hold | hnew
    · exact .inr (.inr ⟨old, hstate, hold⟩)
    · exact .inl (List.mem_singleton.mp hnew)
  case h_3 old p body hstate =>
    obtain ⟨rfl, rfl⟩ := Prod.mk.inj (Option.some.inj h)
    refine ⟨hturn, body, fun m hm => ?_⟩
    rcases List.mem_or_eq_of_mem_set hm with hold | hnew
    · exact .inr (.inr ⟨old, hstate, hold⟩)
    · exact .inl hnew
  case h_4 => cases h

/-- So it is in every event. -/
theorem MemorySystem.mem_writes {e : MemoryEvent Args Vector} {turn : MemoryTurn Args}
    {messages : List (Entry Args)} (h : s.writes e = some (turn, messages)) :
    turn ∈ s.turns ∧ ∃ body, ∀ m ∈ messages, m = turn.entry s.commits body ∨
      m ∈ s.checkpoints turn.key ∨ ∃ old, turn.state = some old ∧ m ∈ old := by
  cases e with
  | begin i => exact (mem_written h).imp_left List.mem_of_getElem?
  | commit i replaced body => exact (mem_written h).imp_left List.mem_of_getElem?
  | _ => exact absurd h (by simp [writes])

/-- What the events do. -/
inductive MemoryChanges (required : Bool) (idle : ℕ) (s : MemorySystem Args Vector) :
    MemoryEvent Args Vector → MemorySystem Args Vector → Prop
  | ticked (seconds : ℕ) : MemoryChanges required idle s (.tick seconds) { s with clock := s.clock + seconds }
  | chatRefused (authorization : Option String) (verified : Except HttpException Claims)
      (request : AgentStreamRequest) :
      MemoryChanges required idle s (.chat authorization verified request) s
  | touched (authorization : Option String) (verified : Except HttpException Claims)
      (request : AgentStreamRequest) (userId : String)
      (huser : effectiveUserId (fun _ => verified) required authorization request = .ok userId) :
      MemoryChanges required idle s (.chat authorization verified request)
        { s.touch userId request.threadId with
          turns := s.turns ++ [⟨userId, request.threadId, request.message, none⟩] }
  | saved (e : MemoryEvent Args Vector) (i : ℕ) (turn : MemoryTurn Args) (messages : List (Entry Args))
      (hturn : s.turns[i]? = some turn) (hwrites : s.writes e = some (turn, messages)) :
      MemoryChanges required idle s e (s.save i turn messages)
  | expired (key : String) :
      MemoryChanges required idle s (.expire key)
        { s with checkpoints := Function.update s.checkpoints key [] }
  | endRefused (authorization : Option String) (verified : Except HttpException Claims)
      (threadId : String) (readable : Bool) :
      MemoryChanges required idle s (.endConversation authorization verified threadId readable) s
  | ended (authorization : Option String) (verified : Except HttpException Claims) (threadId : String)
      (readable : Bool) (customerId : String)
      (hcaller : callerCustomer required authorization verified = .ok customerId) :
      MemoryChanges required idle s (.endConversation authorization verified threadId readable)
        (s.summarise customerId threadId readable)
  | replied (k : ℕ) (content : Option String) (attempt : SummaryAttempt Args)
      (hattempt : s.attempts[k]? = some attempt) (hstage : attempt.stage = .summarising) :
      MemoryChanges required idle s (.reply k content) (s.reply k attempt content)
  | stored (k : ℕ) (vector : Vector) (attempt : SummaryAttempt Args) (summary : String)
      (hattempt : s.attempts[k]? = some attempt) (hstage : attempt.stage = .embedding summary) :
      MemoryChanges required idle s (.embedded k vector) (s.saveConversationSummary k attempt summary vector)
  | failed (k : ℕ) (attempt : SummaryAttempt Args) (hattempt : s.attempts[k]? = some attempt)
      (hover : attempt.stage.isOver = false) :
      MemoryChanges required idle s (.fail k) (s.advance k attempt .failed)
  | sweepStarted :
      MemoryChanges required idle s .sweep { s with sweeps := s.sweeps ++ [⟨s.clock - idle, .ranging, 0⟩] }
  | ranged (j : ℕ) (sweep : Sweep) (hsweep : s.sweeps[j]? = some sweep) :
      MemoryChanges required idle s (.range j) (s.setSweep j sweep (.entries (s.stale sweep.cutoff)))
  | dropped (j : ℕ) (readable : Bool) (sweep : Sweep) (entry : String) (rest : List String)
      (hsweep : s.sweeps[j]? = some sweep) (hstage : sweep.stage = .entries (entry :: rest))
      (hthread : (partitionMember entry).2 = "") :
      MemoryChanges required idle s (.next j readable)
        (({ s with activity := s.activity.remove entry } : MemorySystem Args Vector).setSweep j sweep
          (.entries rest))
  | taken (j : ℕ) (readable : Bool) (sweep : Sweep) (entry : String) (rest : List String)
      (hsweep : s.sweeps[j]? = some sweep) (hstage : sweep.stage = .entries (entry :: rest))
      (hthread : (partitionMember entry).2 ≠ "") :
      MemoryChanges required idle s (.next j readable)
        ((s.summarise (partitionMember entry).1 (partitionMember entry).2 readable).setSweep j sweep
          (.summarising s.attempts.length entry rest))
  | removed (j : ℕ) (sweep : Sweep) (k : ℕ) (entry : String) (rest : List String)
      (attempt : SummaryAttempt Args) (hsweep : s.sweeps[j]? = some sweep)
      (hstage : sweep.stage = .summarising k entry rest) (hattempt : s.attempts[k]? = some attempt)
      (hover : attempt.stage.isOver = true) :
      MemoryChanges required idle s (.remove j) (s.removeMarker j sweep attempt entry rest)
  | aborted (j : ℕ) (sweep : Sweep) (hsweep : s.sweeps[j]? = some sweep) :
      MemoryChanges required idle s (.abort j) (s.setSweep j sweep .aborted)
  | abandoned (j : ℕ) (sweep : Sweep) (k : ℕ) (attempt : SummaryAttempt Args)
      (hsweep : s.sweeps[j]? = some sweep) (hattempt : s.attempts[k]? = some attempt)
      (hover : attempt.stage.isOver = false) :
      MemoryChanges required idle s (.abort j) ((s.advance k attempt .cancelled).setSweep j sweep .aborted)

namespace MemoryChanges

/-- The model answers a call that waits for it. -/
theorem of_reply {k : ℕ} {content : Option String} (h : memoryStep required idle s (.reply k content) = some s') :
    MemoryChanges required idle s (.reply k content) s' := by
  cases hattempt : s.attempts[k]? with
  | none => simp [memoryStep, hattempt] at h
  | some attempt =>
    simp only [memoryStep, hattempt, Option.ite_none_right_eq_some, Option.some.injEq] at h
    obtain ⟨hstage, rfl⟩ := h
    exact .replied k content attempt hattempt hstage

/-- A call stores its summary once it has the vector. -/
theorem of_embedded {k : ℕ} {vector : Vector} (h : memoryStep required idle s (.embedded k vector) = some s') :
    MemoryChanges required idle s (.embedded k vector) s' := by
  cases hattempt : s.attempts[k]? with
  | none => simp [memoryStep, hattempt] at h
  | some attempt =>
    cases hstage : attempt.stage with
    | embedding summary =>
      simp only [memoryStep, hattempt, hstage, Option.some.injEq] at h
      exact h ▸ .stored k vector attempt summary hattempt hstage
    | _ => simp [memoryStep, hattempt, hstage] at h

/-- A call fails while it waits for a model. -/
theorem of_fail {k : ℕ} (h : memoryStep required idle s (.fail k) = some s') :
    MemoryChanges required idle s (.fail k) s' := by
  cases hattempt : s.attempts[k]? with
  | none => simp [memoryStep, hattempt] at h
  | some attempt =>
    cases hstage : attempt.stage with
    | summarising =>
      simp only [memoryStep, hattempt, hstage, Option.some.injEq] at h
      exact h ▸ .failed k attempt hattempt (by simp [hstage, AttemptStage.isOver])
    | embedding summary =>
      simp only [memoryStep, hattempt, hstage, Option.some.injEq] at h
      exact h ▸ .failed k attempt hattempt (by simp [hstage, AttemptStage.isOver])
    | _ => simp [memoryStep, hattempt, hstage] at h

/-- A sweep reads the range. -/
theorem of_range {j : ℕ} (h : memoryStep required idle s (.range j) = some s') :
    MemoryChanges required idle s (.range j) s' := by
  cases hsweep : s.sweeps[j]? with
  | none => simp [memoryStep, hsweep] at h
  | some sweep =>
    simp only [memoryStep, hsweep, Option.ite_none_right_eq_some, Option.some.injEq] at h
    exact h.2 ▸ .ranged j sweep hsweep

/-- A sweep takes up its next entry, and drops one without a thread. -/
theorem of_next {j : ℕ} {readable : Bool} (h : memoryStep required idle s (.next j readable) = some s') :
    MemoryChanges required idle s (.next j readable) s' := by
  cases hsweep : s.sweeps[j]? with
  | none => simp [memoryStep, hsweep] at h
  | some sweep =>
    simp only [memoryStep, hsweep] at h
    split at h
    case h_1 entry rest hstage =>
      obtain rfl := Option.some.inj h
      unfold MemorySystem.takeUp
      by_cases hthread : (partitionMember entry).2 = ""
      · simp only [hthread, if_true]
        exact .dropped j readable sweep entry rest hsweep hstage hthread
      · simp only [hthread, if_false]
        exact .taken j readable sweep entry rest hsweep hstage hthread
    case h_2 => cases h

/-- A sweep removes the marker of an entry whose call has come to an end. -/
theorem of_remove {j : ℕ} (h : memoryStep required idle s (.remove j) = some s') :
    MemoryChanges required idle s (.remove j) s' := by
  cases hsweep : s.sweeps[j]? with
  | none => simp [memoryStep, hsweep] at h
  | some sweep =>
    cases hstage : sweep.stage with
    | summarising k entry rest =>
      cases hattempt : s.attempts[k]? with
      | none => simp [memoryStep, hsweep, hstage, hattempt] at h
      | some attempt =>
        simp only [memoryStep, hsweep, hstage, hattempt, Option.ite_none_right_eq_some, Option.some.injEq] at h
        obtain ⟨hover, rfl⟩ := h
        exact .removed j sweep k entry rest attempt hsweep hstage hattempt hover
    | _ => simp [memoryStep, hsweep, hstage] at h

/-- A sweep that is broken off takes the call with it that it waits for. -/
theorem of_abort {j : ℕ} {sweep : Sweep} (hsweep : s.sweeps[j]? = some sweep) :
    MemoryChanges required idle s (.abort j) (s.abort j sweep) := by
  unfold MemorySystem.abort
  cases hstage : sweep.stage with
  | summarising k entry rest =>
    cases hattempt : s.attempts[k]? with
    | none => simpa only [hattempt] using .aborted j sweep hsweep
    | some attempt =>
      cases hover : attempt.stage.isOver with
      | true => simpa only [hattempt, hover, if_true] using .aborted j sweep hsweep
      | false =>
        simpa only [hattempt, hover, Bool.false_eq_true, if_false] using
          .abandoned j sweep k attempt hsweep hattempt hover
  | _ => exact .aborted j sweep hsweep

end MemoryChanges

/-- Every event does one of these things. -/
theorem memoryStep_changes {e : MemoryEvent Args Vector} (h : memoryStep required idle s e = some s') :
    MemoryChanges required idle s e s' := by
  cases e with
  | tick seconds => exact Option.some.inj h ▸ .ticked seconds
  | chat authorization verified request =>
    cases huser : effectiveUserId (fun _ => verified) required authorization request with
    | error e =>
      simp only [memoryStep, huser, Option.some.injEq] at h
      exact h ▸ .chatRefused authorization verified request
    | ok userId =>
      simp only [memoryStep, huser, Option.some.injEq] at h
      exact h ▸ .touched authorization verified request userId huser
  | begin i =>
    obtain ⟨⟨turn, messages⟩, hwritten, rfl⟩ := Option.map_eq_some_iff.mp h
    exact .saved _ i turn messages (MemorySystem.mem_written hwritten).1 hwritten
  | commit i replaced body =>
    obtain ⟨⟨turn, messages⟩, hwritten, rfl⟩ := Option.map_eq_some_iff.mp h
    exact .saved _ i turn messages (MemorySystem.mem_written hwritten).1 hwritten
  | expire key => exact Option.some.inj h ▸ .expired key
  | endConversation authorization verified threadId readable =>
    cases hcaller : callerCustomer required authorization verified with
    | error e =>
      simp only [memoryStep, hcaller, Option.some.injEq] at h
      exact h ▸ .endRefused authorization verified threadId readable
    | ok customerId =>
      simp only [memoryStep, hcaller, Option.some.injEq] at h
      exact h ▸ .ended authorization verified threadId readable customerId hcaller
  | reply k content => exact .of_reply h
  | embedded k vector => exact .of_embedded h
  | fail k => exact .of_fail h
  | sweep => exact Option.some.inj h ▸ .sweepStarted
  | range j => exact .of_range h
  | next j readable => exact .of_next h
  | remove j => exact .of_remove h
  | abort j =>
    obtain ⟨sweep, hsweep, rfl⟩ := Option.map_eq_some_iff.mp h
    exact .of_abort hsweep

end Changes

end Agentops
