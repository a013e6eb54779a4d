import Agentops.Agent.Termination

/-!
# Message histories across turns

The turns of a thread follow one another on its checkpoint, each cut short wherever it stands when
the next one begins. The models are handed a history in which every answer that calls tools is
directly followed by their results, as long as no turn leaves calls open behind it.
-/

namespace Agentops

open LabelledRun

variable {Args : Type}

/-- What happens to a thread. -/
inductive ThreadEvent (Args : Type)
  | startTurn (userMessage userId : String)
  | outcome (o : NodeOutcome Args)
  deriving DecidableEq, Repr

/-- A thread moves on with its latest turn, or to a new one on the state that is stored. -/
def threadStep (maxIterations : ℕ) (p : TurnPosition Args) : ThreadEvent Args → Option (TurnPosition Args)
  | .startTurn userMessage userId => some (turnStart p.state userMessage userId)
  | .outcome o => turnStep maxIterations p o

/-- A thread without turns. -/
def newThread : TurnPosition Args := ⟨.finished, ⟨[], none, none, none⟩, 0⟩

/-- Results of tools stand right at the start, one for each of the calls. -/
def Replied (calls : List (ToolCall Args)) (later : List (MessageBody Args)) : Prop :=
  ∃ replies : List ToolMessage, replies.map MessageBody.tool <+: later ∧
    (replies.map ToolMessage.toolCallId).Perm (calls.map ToolCall.id)

/-- Each answer that calls tools is directly followed by a result for each of its calls. -/
def WellFormedHistory : List (MessageBody Args) → Prop
  | [] => True
  | .ai message :: later => Replied message.toolCalls later ∧ WellFormedHistory later
  | _ :: later => WellFormedHistory later

/-- The messages with which a node calls its model, after the instructions to the model. -/
def handedMessages (p : TurnPosition Args) : Option (List (MessageBody Args)) :=
  match p.place with
  | .node .supervisor => some (p.state.messages.map Message.body)
  | .node (.agent _) => some (p.state.messages.map Message.body)
  | _ => none

/-- An answer with the id of a message before the last is lost, as the routing raises on it. -/
def Discarded (state : AgentState Args) (id : Option ℕ) : Prop :=
  ∃ i ∈ state.messages.dropLast.map Message.id, id = some i

/-- An answer that leaves no call without a result: it takes the place of no result, and if it has
calls, then they are all valid and there is an iteration left for the tools. -/
structure LeavesNoCallOpen (maxIterations : ℕ) (state : AgentState Args) (id : Option ℕ)
    (response : AIMessage Args) : Prop where
  keepsResults : ∀ m ∈ state.messages.getLast?, id = some m.id → m.body.isTool = false
  valid : response.toolCalls ≠ [] → response.invalidToolCalls = []
  inTime : response.toolCalls ≠ [] → state.iterationCount.getD 0 + 1 < maxIterations

/-- The events that leave no call open: a turn is not cut short at its tools, they do not raise, and
the answers leave no call without a result or are lost. -/
def NoCallOpen (maxIterations : ℕ) (p : TurnPosition Args) : ThreadEvent Args → Prop
  | .startTurn _ _ => standsAt .tools p = false
  | .outcome o =>
    match p.place, o with
    | .node (.agent _), .specialist id response =>
      Discarded p.state id ∨ LeavesNoCallOpen maxIterations p.state id response
    | .node (.tools _), .raises => False
    | _, _ => True

/-- Decided on the ids of the messages. -/
instance (state : AgentState Args) (id : Option ℕ) : Decidable (Discarded state id) :=
  inferInstanceAs (Decidable (∃ i ∈ state.messages.dropLast.map Message.id, id = some i))

/-- Decided on the last message and the calls of the response. -/
instance (maxIterations : ℕ) (state : AgentState Args) (id : Option ℕ) (response : AIMessage Args) :
    Decidable (LeavesNoCallOpen maxIterations state id response) :=
  decidable_of_iff
    ((∀ m ∈ state.messages.getLast?, id = some m.id → m.body.isTool = false) ∧
      (¬ response.toolCalls.isEmpty → response.invalidToolCalls.isEmpty) ∧
      (¬ response.toolCalls.isEmpty → state.iterationCount.getD 0 + 1 < maxIterations))
    ⟨fun h => ⟨h.1, by simpa using h.2.1, by simpa using h.2.2⟩,
      fun h => ⟨h.keepsResults, by simpa using h.valid, by simpa using h.inTime⟩⟩

/-- Decided for each kind of event. -/
instance (maxIterations : ℕ) (p : TurnPosition Args) :
    ∀ e : ThreadEvent Args, Decidable (NoCallOpen maxIterations p e)
  | .startTurn _ _ => inferInstanceAs (Decidable (standsAt .tools p = false))
  | .outcome o => by
    unfold NoCallOpen
    dsimp only
    split <;> infer_instance

section WellFormed

/-- Later messages leave the results in place. -/
theorem Replied.append {calls : List (ToolCall Args)} {later : List (MessageBody Args)}
    (h : Replied calls later) (more : List (MessageBody Args)) : Replied calls (later ++ more) := by
  obtain ⟨replies, hprefix, hids⟩ := h
  exact ⟨replies, hprefix.trans (List.prefix_append _ _), hids⟩

/-- An answer without calls needs no results. -/
theorem replied_nil (later : List (MessageBody Args)) : Replied [] later :=
  ⟨[], List.nil_prefix, .refl _⟩

/-- A well-formed history stays so with a well-formed one after it. -/
theorem WellFormedHistory.append {first second : List (MessageBody Args)} (hfirst : WellFormedHistory first)
    (hsecond : WellFormedHistory second) : WellFormedHistory (first ++ second) := by
  induction first with
  | nil => exact hsecond
  | cons body rest ih =>
    cases body with
    | ai message => exact ⟨hfirst.1.append second, ih hfirst.2⟩
    | human content => exact ih hfirst
    | tool message => exact ih hfirst

/-- A last message that is no result of a tool can be taken away. -/
theorem WellFormedHistory.of_append {first : List (MessageBody Args)} {body : MessageBody Args}
    (hbody : body.isTool = false) (h : WellFormedHistory (first ++ [body])) :
    WellFormedHistory first := by
  induction first with
  | nil => trivial
  | cons head rest ih =>
    cases head with
    | human content => exact ih h
    | tool message => exact ih h
    | ai message =>
      obtain ⟨⟨replies, hprefix, hids⟩, hrest⟩ := h
      refine ⟨⟨replies, ?_, hids⟩, ih hrest⟩
      rcases List.prefix_concat_iff.mp hprefix with hall | hshort
      · have hmem : body ∈ replies.map MessageBody.tool := hall ▸ by simp
        obtain ⟨result, -, rfl⟩ := List.mem_map.mp hmem
        exact absurd hbody (by simp [MessageBody.isTool])
      · exact hshort

/-- The later part of a well-formed history is well formed. -/
theorem WellFormedHistory.drop {bodies : List (MessageBody Args)} (h : WellFormedHistory bodies) (n : ℕ) :
    WellFormedHistory (bodies.drop n) := by
  induction n generalizing bodies with
  | zero => exact h
  | succ n ih =>
    cases bodies with
    | nil => trivial
    | cons body rest =>
      cases body with
      | ai message => exact ih h.2
      | human content => exact ih h
      | tool message => exact ih h

/-- An answer with its results is a well-formed history. -/
theorem wellFormedHistory_answered {message : AIMessage Args} {replies : List ToolMessage}
    (h : (replies.map ToolMessage.toolCallId).Perm (message.toolCalls.map ToolCall.id)) :
    WellFormedHistory (.ai message :: replies.map MessageBody.tool) := by
  refine ⟨⟨replies, List.prefix_refl _, h⟩, ?_⟩
  clear h
  induction replies with
  | nil => trivial
  | cons reply rest ih => exact ih

end WellFormed

/-- The history of a thread, by where its latest turn stands: at the tools the last message is an
answer, whose calls are being executed. -/
def HistoryAt (p : TurnPosition Args) : Prop :=
  match p.place with
  | .node (.tools _) => ∃ before m message, p.state.messages = before ++ [m] ∧ m.body = .ai message ∧
      WellFormedHistory (before.map Message.body)
  | _ => WellFormedHistory (p.state.messages.map Message.body)

/-- What holds of a thread, whatever its turns do. -/
structure ThreadInv (maxIterations : ℕ) (p : TurnPosition Args) : Prop where
  unique : KeyedTable.Unique Message.id p.state.messages
  paced : Paced maxIterations p
  turn : ∃ past, TurnInv maxIterations past p
  history : HistoryAt p

section Steps

variable {maxIterations : ℕ} {p p' : TurnPosition Args} {state s : AgentState Args} {agent : AgentName}

/-- A thread begins without messages. -/
theorem threadInv_newThread (maxIterations : ℕ) : ThreadInv maxIterations (newThread : TurnPosition Args) :=
  ⟨List.nodup_nil, Nat.zero_le _, ⟨[], trivial⟩, trivial⟩

/-- An answer that is added leaves a well-formed history before it. -/
theorem exists_before_callSpecialist {id : Option ℕ} {response : AIMessage Args}
    (hunique : KeyedTable.Unique Message.id state.messages) (hunanswered : Unanswered state)
    (hwell : WellFormedHistory (state.messages.map Message.body))
    (hlast : lastBody (callSpecialist agent id response state).messages = some (.ai response))
    (hkeeps : Discarded state id ∨ LeavesNoCallOpen maxIterations state id response) :
    (∃ before m, (callSpecialist agent id response state).messages = before ++ [m] ∧ m.body = .ai response ∧
      WellFormedHistory (before.map Message.body)) ∧
    LeavesNoCallOpen maxIterations state id response := by
  have hadded : (callSpecialist agent id response state).messages =
      addMessage state.messages id (.ai response) := rfl
  rw [hadded] at hlast ⊢
  have hreplacing : ¬ Discarded state id := by
    rintro ⟨i, hi, rfl⟩
    exact hunanswered response ((lastBody_addMessage_of_mem_dropLast hunique hi _).symm.trans hlast)
  have hleaves := hkeeps.resolve_left hreplacing
  refine ⟨?_, hleaves⟩
  rcases addMessage_cases hunique id (.ai response) with ⟨i, happend⟩ | ⟨rest, m, hrest, hid, hlastOne⟩ | hbefore
  · exact ⟨state.messages, _, happend, rfl, hwell⟩
  · refine ⟨rest, _, hlastOne, rfl, ?_⟩
    rw [hrest, List.map_append] at hwell
    exact hwell.of_append (hleaves.keepsResults m (by simp [hrest]) hid)
  · exact absurd hbefore hreplacing

/-- A tool node answers each call, in the order of the calls. -/
theorem exists_replies_toolMessages (agent : AgentName) {calls : List (ToolCall Args)}
    {results : List (String × Bool)}
    (hlength : results.length = calls.length) :
    ∃ replies : List ToolMessage, toolMessages agent calls results = replies.map MessageBody.tool ∧
      replies.map ToolMessage.toolCallId = calls.map ToolCall.id := by
  induction calls generalizing results with
  | nil => exact ⟨[], rfl, rfl⟩
  | cons call rest ih =>
    obtain _ | ⟨result, later⟩ := results
    · exact absurd hlength (by simp)
    · obtain ⟨replies, hreplies, hids⟩ := ih (Nat.succ.inj hlength)
      refine ⟨⟨result.1, call.id, result.2 || decide (call.name ∉ specialistTools agent)⟩ :: replies, ?_, ?_⟩
      · rw [List.map_cons, ← hreplies]
        rfl
      · rw [List.map_cons, hids, List.map_cons]

/-- The results of the tools complete the history. -/
theorem wellFormedHistory_toolNode {results : List (String × Bool)} {before : List (Message Args)}
    {m : Message Args} {message : AIMessage Args} (hmessages : state.messages = before ++ [m])
    (hbody : m.body = .ai message) (hwell : WellFormedHistory (before.map Message.body))
    (hrun : toolNode agent results state = some (some s)) :
    WellFormedHistory (s.messages.map Message.body) := by
  have hlast : lastBody state.messages = some (.ai message) := by simp [lastBody, hmessages, hbody]
  simp only [toolNode, latestAIMessage_of_lastBody hlast, Option.ite_none_right_eq_some, Option.some.injEq] at hrun
  obtain ⟨hlength, rfl⟩ := hrun
  obtain ⟨replies, hreplies, hids⟩ := exists_replies_toolMessages agent hlength
  simp only [map_body_addNewMessages, hmessages, List.map_append, List.map_cons, List.map_nil, hbody,
    List.append_assoc, List.singleton_append, hreplies]
  exact hwell.append (wellFormedHistory_answered (hids ▸ .refl _))

/-- A fixed message has no calls. -/
theorem wellFormedHistory_replyWith {content : String}
    (hwell : WellFormedHistory (state.messages.map Message.body)) :
    WellFormedHistory ((replyWith content state).messages.map Message.body) := by
  have hadded : (replyWith content state).messages.map Message.body =
      state.messages.map Message.body ++ [.ai { content := content }] :=
    map_body_addNewMessages state.messages [.ai { content := content }]
  exact hadded ▸ hwell.append ⟨replied_nil _, trivial⟩

/-- A superstep keeps the ids unique. -/
theorem unique_turnStep {o : NodeOutcome Args} (hunique : KeyedTable.Unique Message.id p.state.messages)
    (h : turnStep maxIterations p o = some p') : KeyedTable.Unique Message.id p'.state.messages := by
  cases turnStep_takes h with
  | delegated => exact hunique
  | undelegated => exact hunique
  | answered name id response => exact unique_addMessage hunique id _
  | executed name results s hplace hrun =>
    simp only [toolNode] at hrun
    split at hrun
    · exact absurd hrun (by simp)
    · split at hrun
      · exact Option.some.inj (Option.some.inj hrun) ▸ unique_addNewMessages hunique _
      · exact absurd hrun (by simp)
  | limited => exact unique_addMessage hunique none _
  | rejected => exact unique_addMessage hunique none _
  | raised => exact hunique
  | outOfSteps => exact hunique

/-- An answer that leaves no call open is added to a well-formed history, and its calls, if it has
any, are executed next. -/
theorem historyAt_answered {id : Option ℕ} {response : AIMessage Args}
    {route : SpecialistRoute} (hunique : KeyedTable.Unique Message.id state.messages)
    (hunanswered : Unanswered state) (hwell : WellFormedHistory (state.messages.map Message.body))
    (hkeeps : Discarded state id ∨ LeavesNoCallOpen maxIterations state id response)
    (hroute : routeSpecialistOutput maxIterations (callSpecialist agent id response state) = some route)
    (supersteps : ℕ) :
    HistoryAt ⟨route.place agent, callSpecialist agent id response state, supersteps⟩ := by
  have hlast := lastBody_of_route hunanswered hroute
  obtain ⟨⟨before, m, hmessages, hbody, hbefore⟩, hleaves⟩ :=
    exists_before_callSpecialist hunique hunanswered hwell hlast hkeeps
  by_cases hcalls : response.toolCalls = []
  · have hadded : WellFormedHistory ((callSpecialist agent id response state).messages.map Message.body) := by
      rw [hmessages, List.map_append, List.map_cons, List.map_nil, hbody]
      exact hbefore.append ⟨hcalls ▸ replied_nil _, trivial⟩
    cases route with
    | tools => exact ⟨before, m, response, hmessages, hbody, hbefore⟩
    | limit => exact hadded
    | invalid => exact hadded
    | done => exact hadded
  · have htools : routeSpecialistOutput maxIterations (callSpecialist agent id response state) =
        some .tools :=
      routeSpecialistOutput_eq_tools.mpr ⟨response, _, hlast, hleaves.valid hcalls, hcalls, rfl,
        hleaves.inTime hcalls⟩
    obtain rfl : route = .tools := Option.some.inj (hroute.symm.trans htools)
    exact ⟨before, m, response, hmessages, hbody, hbefore⟩

/-- A superstep that leaves no call open keeps the history well formed. -/
theorem historyAt_step {past : List (NodeOutcome Args)} {o : NodeOutcome Args}
    (hinv : ThreadInv maxIterations p) (hturn : TurnInv maxIterations past p)
    (hopen : NoCallOpen maxIterations p (.outcome o)) (h : turnStep maxIterations p o = some p') :
    HistoryAt p' := by
  have hhistory := hinv.history
  obtain ⟨place, state, supersteps⟩ := p
  cases turnStep_takes h with
  | delegated response name hplace hhandoff =>
    obtain rfl : place = _ := hplace
    exact hhistory
  | undelegated response hplace hhandoff =>
    obtain rfl : place = _ := hplace
    exact hhistory
  | answered name id response route hplace hroute =>
    obtain rfl : place = _ := hplace
    exact historyAt_answered hinv.unique hturn.unanswered hhistory hopen hroute _
  | executed name results s hplace hrun =>
    obtain rfl : place = _ := hplace
    obtain ⟨before, m, message, hmessages, hbody, hbefore⟩ := hhistory
    exact wellFormedHistory_toolNode hmessages hbody hbefore hrun
  | limited hplace =>
    obtain rfl : place = _ := hplace
    exact wellFormedHistory_replyWith hhistory
  | rejected hplace =>
    obtain rfl : place = _ := hplace
    exact wellFormedHistory_replyWith hhistory
  | raised n o hplace hraise =>
    obtain rfl : place = _ := hplace
    cases n with
    | tools name =>
      rcases hraise with hrun | ⟨s, -, hnext⟩
      · cases o <;> simp only [runNode, reduceCtorEq] at hrun
        case raises => exact hopen.elim
        case tools results =>
          obtain ⟨message, hat⟩ := hturn
          exact absurd hrun (toolNode_ne_raise hat.answered)
      · simp [nextNode] at hnext
    | supervisor => exact hhistory
    | agent name => exact hhistory
    | limit => exact hhistory
    | invalid => exact hhistory
  | outOfSteps n o hplace hlimit =>
    have hle := hinv.paced.supersteps_lt hplace
    simp only [graphRecursionLimit] at hlimit hle
    omega

/-- Every event that leaves no call open keeps what holds of a thread. -/
theorem threadInv_step {e : ThreadEvent Args} (hlimit : 1 ≤ maxIterations)
    (hopen : NoCallOpen maxIterations p e)
    (hinv : ThreadInv maxIterations p) (h : threadStep maxIterations p e = some p') :
    ThreadInv maxIterations p' := by
  cases e with
  | startTurn userMessage userId =>
    obtain rfl := Option.some.inj h
    refine ⟨unique_addMessage hinv.unique none _, paced_start _ _ _ _, ⟨[], turnInv_start _ _ _ _⟩, ?_⟩
    have hwell : WellFormedHistory (p.state.messages.map Message.body) := by
      have hhistory := hinv.history
      unfold HistoryAt at hhistory
      split at hhistory
      case h_1 name hplace => exact absurd hopen (by simp [NoCallOpen, standsAt, hplace, GraphNode.kind?])
      case h_2 => exact hhistory
    have hstarted : (turnStart p.state userMessage userId).state.messages.map Message.body =
        p.state.messages.map Message.body ++ [.human userMessage] :=
      map_body_addNewMessages p.state.messages [.human userMessage]
    change WellFormedHistory ((turnStart p.state userMessage userId).state.messages.map Message.body)
    exact hstarted ▸ hwell.append trivial
  | outcome o =>
    obtain ⟨past, hturn⟩ := hinv.turn
    refine ⟨?_, paced_step hlimit hinv.paced h, ⟨_, turnInv_step hturn h⟩, ?_⟩
    · exact unique_turnStep hinv.unique h
    · exact historyAt_step hinv hturn hopen h

end Steps

/-- As long as no event of a thread leaves a call open, every list of messages handed to a model is
well formed. -/
theorem histories_wellFormed (events : List (ThreadEvent Args)) (p : TurnPosition Args)
    (hopen : StepsMeet (threadStep maxAgentIterations) (NoCallOpen maxAgentIterations) newThread events)
    (hrun : runFrom (threadStep maxAgentIterations) newThread events = some p) :
    ∀ messages, handedMessages p = some messages → WellFormedHistory messages := by
  have hinv : ThreadInv maxAgentIterations p :=
    hopen.invariant _ _ (fun _ _ _ hstepOpen hs hstep => threadInv_step (by decide) hstepOpen hs hstep)
      hrun (threadInv_newThread _)
  intro messages hhanded
  have hhistory := hinv.history
  obtain ⟨place, state, supersteps⟩ := p
  rcases place with (_ | name | name | _ | _) | _ | _ | _ <;>
    simp only [handedMessages, Option.some.injEq, reduceCtorEq] at hhanded
  · exact hhanded ▸ hhistory
  · exact hhanded ▸ hhistory

/-- Two turns, the first of which calls a tool once. -/
def answeredThread : List (ThreadEvent String) :=
  [.startTurn "Where is ORD-004?" "CUS-004",
    .outcome (.supervisor
      { content := "", toolCalls := [⟨"delegate_to_order_tracking", "", some "call-0"⟩] }),
    .outcome (.specialist (some 11)
      { content := "", toolCalls := [⟨"get_order_status", "ORD-004", some "call-1"⟩] }),
    .outcome (.tools [("placed", false)]),
    .outcome (.specialist (some 21) { content := "ORD-004 is placed." }), .startTurn "Thanks" "CUS-004"]

/-- The models are handed the result of the call in both turns. -/
theorem histories_wellFormed_answeredThread :
    ∃ p messages, runFrom (threadStep maxAgentIterations) newThread answeredThread = some p ∧
      handedMessages p = some messages ∧ messages.length = 5 ∧ WellFormedHistory messages := by
  have hcomputed : (runFrom (threadStep maxAgentIterations) newThread answeredThread).map
      (fun p => (handedMessages p).map List.length) = some (some 5) := by
    decide +kernel
  obtain ⟨p, hrun, hhanded⟩ := Option.map_eq_some_iff.mp hcomputed
  obtain ⟨messages, hmessages, hlength⟩ := Option.map_eq_some_iff.mp hhanded
  exact ⟨p, messages, hrun, hmessages, hlength,
    histories_wellFormed answeredThread p (by decide +kernel) hrun messages hmessages⟩

/-- A turn that uses up its iterations, and the next one. -/
def limitedThread : List (ThreadEvent String) :=
  .startTurn "Keep checking" "CUS-028" :: repeatedCalls.map .outcome ++ [.startTurn "Thanks" "CUS-028"]

/-- The next turn hands over a call without a result. -/
theorem histories_not_wellFormed :
    ∃ p messages, runFrom (threadStep maxAgentIterations) newThread limitedThread = some p ∧
      handedMessages p = some messages ∧ ¬ WellFormedHistory messages := by
  have hcomputed : (runFrom (threadStep maxAgentIterations) newThread limitedThread).map
      (fun p => (handedMessages p).map (List.drop 5)) =
        some (some [.ai { content := "", toolCalls := [⟨"get_order_status", "invalid", some "call-3"⟩] },
          .ai { content := iterationLimitMessage }, .human "Thanks"]) := by
    decide +kernel
  obtain ⟨p, hrun, hhanded⟩ := Option.map_eq_some_iff.mp hcomputed
  obtain ⟨messages, hmessages, hlast⟩ := Option.map_eq_some_iff.mp hhanded
  refine ⟨p, messages, hrun, hmessages, fun hwell => ?_⟩
  obtain ⟨⟨replies, hprefix, hids⟩, -⟩ := hlast ▸ hwell.drop 5
  cases replies with
  | nil => exact absurd hids.length_eq (by simp)
  | cons reply rest => exact absurd hprefix (by simp)

end Agentops
