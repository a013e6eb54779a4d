import Agentops.Agent.Messages
import Agentops.Foundations.StateGraph

/-!
# The agent graph of `app/agent_graph.py`

A supervisor hands the turn over to one of three specialists, which alternates with a tool node of
its own until it answers, exceeds its iterations or makes a call that cannot be parsed. The
answers of the models and the results of the tools are the outcomes the surroundings choose.
-/

namespace Agentops

variable {Args : Type}

/-- The specialists. -/
inductive AgentName
  | orderTracking
  | orderActions
  | infrastructure
  deriving DecidableEq, Repr

/-- The names of `SPECIALIST_TOOLS`. -/
def specialistTools : AgentName → List String
  | .orderTracking => ["get_order_status", "save_user_preference", "get_user_preferences"]
  | .orderActions => ["cancel_order", "request_refund"]
  | .infrastructure => ["get_platform_health"]

/-- `HANDOFF_AGENT_BY_TOOL`. -/
def handoffAgentByTool : String → Option AgentName
  | "delegate_to_order_tracking" => some .orderTracking
  | "delegate_to_order_actions" => some .orderActions
  | "delegate_to_infrastructure" => some .infrastructure
  | _ => none

/-- `MAX_AGENT_ITERATIONS`. -/
def maxAgentIterations : ℕ := 3

/-- `GRAPH_RECURSION_LIMIT`. -/
def graphRecursionLimit (maxIterations : ℕ) : ℕ := maxIterations * 2 + 4

/-- `ITERATION_LIMIT_MESSAGE`. -/
def iterationLimitMessage : String :=
  "I couldn't complete this request within the allowed number of steps."

/-- `INVALID_TOOL_CALL_MESSAGE`. -/
def invalidToolCallMessage : String :=
  "I couldn't understand the requested action. Please try again."

/-- `AgentState`. An absent entry is `none`, and so is the active agent `"invalid"`. -/
structure AgentState (Args : Type) where
  messages : List (Message Args)
  iterationCount : Option ℕ
  userId : Option String
  activeAgent : Option AgentName
  deriving DecidableEq, Repr

/-- A new turn on the state of a checkpoint, as `stream_llm_response` starts it. -/
def AgentState.startTurn (checkpoint : AgentState Args) (userMessage userId : String) : AgentState Args :=
  { checkpoint with
    messages := addMessage checkpoint.messages none (.human userMessage)
    iterationCount := some 0
    userId := some userId }

/-- What the model or the tools that a node calls come to. The tools give a content and an error
mark for each call. -/
inductive NodeOutcome (Args : Type)
  | supervisor (response : AIMessage Args)
  | specialist (id : Option ℕ) (response : AIMessage Args)
  | tools (results : List (String × Bool))
  | reply
  | raises
  deriving DecidableEq, Repr

/-- The agent that a supervisor's answer names, if it is exactly one valid handoff call. -/
def handoff (response : AIMessage Args) : Option AgentName :=
  if response.invalidToolCalls.isEmpty then
    match response.toolCalls with
    | [call] => handoffAgentByTool call.name
    | _ => none
  else none

/-- `call_supervisor`, with the response of the model. -/
def callSupervisor (response : AIMessage Args) (state : AgentState Args) : AgentState Args :=
  { state with activeAgent := handoff response }

/-- `call_specialist`, with the response of the model. -/
def callSpecialist (agent : AgentName) (id : Option ℕ) (response : AIMessage Args)
    (state : AgentState Args) : AgentState Args :=
  { state with
    messages := addMessage state.messages id (.ai response)
    iterationCount := some (state.iterationCount.getD 0 + 1)
    activeAgent := some agent }

/-- The calls that a tool node executes: those of the latest answer whose names are registered. -/
def executedCalls (agent : AgentName) (state : AgentState Args) : List (ToolCall Args) :=
  match latestAIMessage state.messages with
  | none => []
  | some message => message.toolCalls.filter fun call => call.name ∈ specialistTools agent

/-- The messages with which a tool node answers, one for each call. -/
def toolMessages (agent : AgentName) (calls : List (ToolCall Args)) (results : List (String × Bool)) :
    List (MessageBody Args) :=
  List.zipWith (fun call result => .tool
    ⟨result.1, call.id, result.2 || decide (call.name ∉ specialistTools agent)⟩) calls results

/-- A tool node. Without an answer to look at it raises. -/
def toolNode (agent : AgentName) (results : List (String × Bool)) (state : AgentState Args) :
    Option (Option (AgentState Args)) :=
  match latestAIMessage state.messages with
  | none => some none
  | some message =>
    if results.length = message.toolCalls.length then
      some (some { state with
        messages := addNewMessages state.messages (toolMessages agent message.toolCalls results) })
    else none

/-- The two nodes that end a turn with a fixed message. -/
def replyWith (content : String) (state : AgentState Args) : AgentState Args :=
  { state with messages := addMessage state.messages none (.ai { content := content }) }

/-- `route_supervisor`. -/
def routeSupervisor (state : AgentState Args) : Option AgentName := state.activeAgent

/-- The edges out of a specialist. -/
inductive SpecialistRoute
  | tools
  | limit
  | invalid
  | done
  deriving DecidableEq, Repr

/-- `route_specialist_output`; `none` when it raises. -/
def routeSpecialistOutput (maxIterations : ℕ) (state : AgentState Args) : Option SpecialistRoute :=
  match lastBody state.messages with
  | some (.ai message) =>
    if !message.invalidToolCalls.isEmpty then some .invalid
    else if message.toolCalls.isEmpty then some .done
    else match state.iterationCount with
      | none => none
      | some count => if maxIterations ≤ count then some .limit else some .tools
  | _ => none

/-- The nodes that `build_agent_graph` adds. -/
inductive GraphNode
  | supervisor
  | agent (name : AgentName)
  | tools (name : AgentName)
  | limit
  | invalid
  deriving DecidableEq, Repr

/-- Running a node. Any node may raise. -/
def runNode : GraphNode → AgentState Args → NodeOutcome Args → Option (Option (AgentState Args))
  | _, _, .raises => some none
  | .supervisor, state, .supervisor response => some (some (callSupervisor response state))
  | .agent name, state, .specialist id response => some (some (callSpecialist name id response state))
  | .tools name, state, .tools results => toolNode name results state
  | .limit, state, .reply => some (some (replyWith iterationLimitMessage state))
  | .invalid, state, .reply => some (some (replyWith invalidToolCallMessage state))
  | _, _, _ => none

/-- The outcomes that a node can come to in a state: its model answers, every call of the answer it looks at has a
result, it replies, or it raises. -/
inductive ComesTo (state : AgentState Args) : GraphNode → NodeOutcome Args → Prop
  | supervised (response : AIMessage Args) : ComesTo state .supervisor (.supervisor response)
  | answered (name : AgentName) (id : Option ℕ) (response : AIMessage Args) :
      ComesTo state (.agent name) (.specialist id response)
  | executed (name : AgentName) (message : AIMessage Args) (results : List (String × Bool))
      (hlatest : latestAIMessage state.messages = some message)
      (hlength : results.length = message.toolCalls.length) : ComesTo state (.tools name) (.tools results)
  | limited : ComesTo state .limit .reply
  | rejected : ComesTo state .invalid .reply
  | raised (n : GraphNode) : ComesTo state n .raises

/-- The edges out of a node; the inner `none` is `END`. -/
def nextNode (maxIterations : ℕ) : GraphNode → AgentState Args → Option (Option GraphNode)
  | .supervisor, state =>
    match routeSupervisor state with
    | some name => some (some (.agent name))
    | none => some (some .invalid)
  | .agent name, state =>
    (routeSpecialistOutput maxIterations state).map fun
      | .tools => some (.tools name)
      | .limit => some .limit
      | .invalid => some .invalid
      | .done => none
  | .tools name, _ => some (some (.agent name))
  | .limit, _ => some none
  | .invalid, _ => some none

/-- `build_agent_graph`. -/
def agentGraph (Args : Type) (maxIterations : ℕ) :
    StateGraph GraphNode (AgentState Args) (NodeOutcome Args) where
  entry := .supervisor
  run := runNode
  next := nextNode maxIterations

/-- A position of a turn in the graph. -/
abbrev TurnPosition (Args : Type) := StateGraph.Position GraphNode (AgentState Args)

/-- A superstep of a turn. -/
def turnStep (maxIterations : ℕ) (p : TurnPosition Args) (o : NodeOutcome Args) :
    Option (TurnPosition Args) :=
  (agentGraph Args maxIterations).step (graphRecursionLimit maxIterations) p o

/-- A turn that begins on the state of a checkpoint. -/
def turnStart (checkpoint : AgentState Args) (userMessage userId : String) : TurnPosition Args :=
  (agentGraph Args maxAgentIterations).start (checkpoint.startTurn userMessage userId)

section Routes

variable {maxIterations : ℕ} {state : AgentState Args}

/-- The tools are reached with an answer that has calls, all of them valid, in time. -/
theorem routeSpecialistOutput_eq_tools :
    routeSpecialistOutput maxIterations state = some .tools ↔
      ∃ message count, lastBody state.messages = some (.ai message) ∧ message.invalidToolCalls = [] ∧
        message.toolCalls ≠ [] ∧ state.iterationCount = some count ∧ count < maxIterations := by
  unfold routeSpecialistOutput
  split
  case h_1 message hlast =>
    by_cases hinvalid : message.invalidToolCalls = []
    · by_cases hcalls : message.toolCalls = []
      · simp [hinvalid, hcalls, hlast]
      · cases hcount : state.iterationCount with
        | none => simp [hinvalid, hcalls]
        | some count =>
          by_cases hle : maxIterations ≤ count
          · simp [hinvalid, hcalls, hlast, hle]
          · simp [hinvalid, hcalls, hlast, hle, Nat.lt_of_not_le hle]
    · simp [hinvalid, hlast]
  case h_2 hnot =>
    constructor
    · intro h
      exact absurd h (by simp)
    · rintro ⟨message, _, hlast, -⟩
      exact absurd hlast (hnot message)

/-- A turn ends with an answer that has no calls at all. -/
theorem routeSpecialistOutput_eq_done :
    routeSpecialistOutput maxIterations state = some .done ↔
      ∃ message, lastBody state.messages = some (.ai message) ∧ message.invalidToolCalls = [] ∧
        message.toolCalls = [] := by
  unfold routeSpecialistOutput
  split
  case h_1 message hlast =>
    by_cases hinvalid : message.invalidToolCalls = []
    · by_cases hcalls : message.toolCalls = []
      · simp [hinvalid, hcalls, hlast]
      · cases hcount : state.iterationCount with
        | none => simp [hinvalid, hcalls, hlast]
        | some count =>
          by_cases hle : maxIterations ≤ count <;> simp [hinvalid, hcalls, hlast, hle]
    · simp [hinvalid, hlast]
  case h_2 hnot =>
    constructor
    · intro h
      exact absurd h (by simp)
    · rintro ⟨message, hlast, -⟩
      exact absurd hlast (hnot message)

/-- The routing raises on nothing but a last message that is no answer, once the counter is there. -/
theorem exists_routeSpecialistOutput (maxIterations : ℕ) {message : AIMessage Args} {count : ℕ}
    (hlast : lastBody state.messages = some (.ai message)) (hcount : state.iterationCount = some count) :
    ∃ route, routeSpecialistOutput maxIterations state = some route := by
  simp only [routeSpecialistOutput, hlast, hcount]
  split
  · exact ⟨_, rfl⟩
  · split
    · exact ⟨_, rfl⟩
    · split <;> exact ⟨_, rfl⟩

/-- A specialist's answer is the last message, unless it takes the place of an earlier one. -/
theorem lastBody_callSpecialist (agent : AgentName) (id : Option ℕ) (response : AIMessage Args)
    (state : AgentState Args) :
    lastBody (callSpecialist agent id response state).messages = some (.ai response) ∨
      lastBody (callSpecialist agent id response state).messages = lastBody state.messages :=
  lastBody_addMessage _ _ _

/-- A tool node answers with results of tools only. -/
theorem exists_tool_of_mem_toolMessages {agent : AgentName} {calls : List (ToolCall Args)}
    {results : List (String × Bool)} {body : MessageBody Args}
    (h : body ∈ toolMessages agent calls results) : ∃ message, body = .tool message := by
  obtain ⟨i, hi⟩ := List.mem_iff_getElem?.mp h
  obtain ⟨call, result, -, -, rfl⟩ := List.getElem?_zipWith_eq_some.mp hi
  exact ⟨_, rfl⟩

/-- A tool node that is reached with an answer does not raise by itself. -/
theorem toolNode_ne_raise {agent : AgentName} {results : List (String × Bool)}
    {message : AIMessage Args} (hlast : lastBody state.messages = some (.ai message)) :
    toolNode agent results state ≠ some none := by
  simp only [toolNode, latestAIMessage_of_lastBody hlast]
  split <;> simp

/-- A tool node leaves the counter as it is. -/
theorem iterationCount_toolNode {agent : AgentName} {results : List (String × Bool)}
    {s : AgentState Args} (h : toolNode agent results state = some (some s)) :
    s.iterationCount = state.iterationCount := by
  unfold toolNode at h
  split at h
  · exact absurd h (by simp)
  · split at h
    · exact Option.some.inj (Option.some.inj h) ▸ rfl
    · exact absurd h (by simp)

end Routes

section Moves

variable (maxIterations : ℕ)

/-- Where the edge out of a specialist leads. -/
def SpecialistRoute.place (name : AgentName) : SpecialistRoute → StateGraph.Place GraphNode
  | .tools => .node (.tools name)
  | .limit => .node .limit
  | .invalid => .node .invalid
  | .done => .finished

/-- What a superstep of a turn can come to. -/
inductive TurnTakes (p : TurnPosition Args) : NodeOutcome Args → TurnPosition Args → Prop
  | delegated (response : AIMessage Args) (name : AgentName) (hplace : p.place = .node .supervisor)
      (hhandoff : handoff response = some name) :
      TurnTakes p (.supervisor response)
        ⟨.node (.agent name), callSupervisor response p.state, p.supersteps + 1⟩
  | undelegated (response : AIMessage Args) (hplace : p.place = .node .supervisor)
      (hhandoff : handoff response = none) :
      TurnTakes p (.supervisor response) ⟨.node .invalid, callSupervisor response p.state, p.supersteps + 1⟩
  | answered (name : AgentName) (id : Option ℕ) (response : AIMessage Args) (route : SpecialistRoute)
      (hplace : p.place = .node (.agent name))
      (hroute : routeSpecialistOutput maxIterations (callSpecialist name id response p.state) = some route) :
      TurnTakes p (.specialist id response)
        ⟨route.place name, callSpecialist name id response p.state, p.supersteps + 1⟩
  | executed (name : AgentName) (results : List (String × Bool)) (s : AgentState Args)
      (hplace : p.place = .node (.tools name)) (hrun : toolNode name results p.state = some (some s)) :
      TurnTakes p (.tools results) ⟨.node (.agent name), s, p.supersteps + 1⟩
  | limited (hplace : p.place = .node .limit) :
      TurnTakes p .reply ⟨.finished, replyWith iterationLimitMessage p.state, p.supersteps + 1⟩
  | rejected (hplace : p.place = .node .invalid) :
      TurnTakes p .reply ⟨.finished, replyWith invalidToolCallMessage p.state, p.supersteps + 1⟩
  | raised (n : GraphNode) (o : NodeOutcome Args) (hplace : p.place = .node n)
      (hraise : runNode n p.state o = some none ∨
        ∃ s, runNode n p.state o = some (some s) ∧ nextNode maxIterations n s = none) :
      TurnTakes p o ⟨.raised, p.state, p.supersteps + 1⟩
  | outOfSteps (n : GraphNode) (o : NodeOutcome Args) (hplace : p.place = .node n)
      (hlimit : graphRecursionLimit maxIterations ≤ p.supersteps) :
      TurnTakes p o { p with place := .outOfSteps }

variable {maxIterations} {p p' : TurnPosition Args} {o : NodeOutcome Args}

/-- Whatever a node comes to, the turn goes on with it. -/
theorem ComesTo.exists_step {n : GraphNode} (hplace : p.place = .node n) (h : ComesTo p.state n o) :
    ∃ p', turnStep maxIterations p o = some p' := by
  refine StateGraph.exists_step _ _ hplace ?_
  cases h with
  | supervised response => exact Option.some_ne_none _
  | answered name id response => exact Option.some_ne_none _
  | executed name message results hlatest hlength => simp [agentGraph, runNode, toolNode, hlatest, hlength]
  | limited => exact Option.some_ne_none _
  | rejected => exact Option.some_ne_none _
  | raised n => cases n <;> exact Option.some_ne_none _

/-- Every superstep of a turn is one of these. -/
theorem turnStep_takes (h : turnStep maxIterations p o = some p') : TurnTakes maxIterations p o p' := by
  have hraise := StateGraph.exists_raise_of_step _ _ h
  cases StateGraph.step_takes _ _ h with
  | outOfSteps n hplace hlimit => exact .outOfSteps n o hplace hlimit
  | raised n hplace hlimit =>
    obtain ⟨m, hm, hraise⟩ := hraise rfl
    exact .raised m o hm hraise
  | finished n s hplace hlimit hrun hnext =>
    cases n <;> cases o <;> simp only [agentGraph, runNode, reduceCtorEq, Option.some.injEq] at hrun
    case agent.specialist name id response =>
      obtain ⟨route, hroute, hdone⟩ := Option.map_eq_some_iff.mp hnext
      cases route <;> simp only [reduceCtorEq] at hdone
      subst hrun
      exact .answered name id response .done hplace hroute
    case limit.reply => exact hrun ▸ .limited hplace
    case invalid.reply => exact hrun ▸ .rejected hplace
    case supervisor.supervisor response =>
      -- With or without a specialist, the supervisor has a next node.
      simp only [agentGraph, nextNode] at hnext
      split at hnext <;> simp at hnext
    all_goals simp [agentGraph, nextNode] at hnext
  | moved n s m hplace hlimit hrun hnext =>
    cases n <;> cases o <;> simp only [agentGraph, runNode, reduceCtorEq, Option.some.injEq] at hrun
    case supervisor.supervisor response =>
      subst hrun
      simp only [agentGraph, nextNode, routeSupervisor, callSupervisor] at hnext
      cases hhandoff : handoff response with
      | none =>
        rw [hhandoff] at hnext
        obtain rfl := Option.some.inj (Option.some.inj hnext)
        exact .undelegated response hplace hhandoff
      | some name =>
        rw [hhandoff] at hnext
        obtain rfl := Option.some.inj (Option.some.inj hnext)
        exact .delegated response name hplace hhandoff
    case agent.specialist name id response =>
      obtain ⟨route, hroute, hm⟩ := Option.map_eq_some_iff.mp hnext
      subst hrun
      have hmoved := TurnTakes.answered name id response route hplace hroute
      cases route <;> simp only [reduceCtorEq, Option.some.injEq] at hm <;> exact hm ▸ hmoved
    case tools.tools name results =>
      obtain rfl := Option.some.inj (Option.some.inj hnext)
      exact .executed name results s hplace hrun
    all_goals simp [agentGraph, nextNode] at hnext

end Moves

end Agentops
