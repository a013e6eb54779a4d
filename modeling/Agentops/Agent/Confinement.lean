import Agentops.Agent.Graph

/-!
# Tool confinement

The tools that a turn executes are those of the one specialist that the supervisor names in it,
whatever the checkpoint holds and whatever the models answer. An invariant relates the outcomes of
a turn so far to the node it stands at: a tool node is only reached with the last message being the
answer that the specialist of this turn has just given.
-/

namespace Agentops

open LabelledRun

variable {Args : Type}

/-- A supervisor's answer is exactly one valid handoff call, and it names this agent. -/
structure HandsOver (response : AIMessage Args) (agent : AgentName) : Prop where
  valid : response.invalidToolCalls = []
  single : ∃ call, response.toolCalls = [call] ∧ handoffAgentByTool call.name = some agent

/-- `call_supervisor` selects an agent for exactly these answers. -/
theorem handoff_eq_some_iff {response : AIMessage Args} {agent : AgentName} :
    handoff response = some agent ↔ HandsOver response agent := by
  constructor
  · intro h
    simp only [handoff, Option.ite_none_right_eq_some] at h
    obtain ⟨hvalid, h⟩ := h
    split at h
    case h_1 call hcalls => exact ⟨List.isEmpty_iff.mp hvalid, call, hcalls, h⟩
    case h_2 => cases h
  · rintro ⟨hvalid, call, hcalls, hagent⟩
    simp [handoff, hvalid, hcalls, hagent]

/-- An answer names at most one agent. -/
theorem HandsOver.unique {response : AIMessage Args} {a b : AgentName} (ha : HandsOver response a)
    (hb : HandsOver response b) : a = b :=
  Option.some.inj ((handoff_eq_some_iff.mpr ha).symm.trans (handoff_eq_some_iff.mpr hb))

def NodeOutcome.isSpecialist : NodeOutcome Args → Bool
  | .specialist _ _ => true
  | _ => false

/-- The iteration of the latest answer of a specialist among the outcomes of a turn. -/
def iteration (outcomes : List (NodeOutcome Args)) : ℕ := outcomes.countP NodeOutcome.isSpecialist

/-- A tool call and the superstep of the turn that executes it. -/
structure ToolExecution (Args : Type) where
  superstep : ℕ
  agent : AgentName
  call : ToolCall Args
  deriving DecidableEq, Repr

/-- The specialist that a node belongs to. -/
def GraphNode.specialist? : GraphNode → Option AgentName
  | .agent name => some name
  | .tools name => some name
  | _ => none

def specialistAt (p : TurnPosition Args) : Option AgentName :=
  match p.place with
  | .node n => n.specialist?
  | _ => none

/-- What the superstep out of a position executes, be it that it raises later or is not completed. -/
def executedAt (p : TurnPosition Args) : List (ToolExecution Args) :=
  match p.place with
  | .node (.tools name) => (executedCalls name p.state).map fun call => ⟨p.supersteps, name, call⟩
  | _ => []

/-- The positions that a turn passes. -/
def turnTrace (checkpoint : AgentState Args) (userMessage userId : String)
    (outcomes : List (NodeOutcome Args)) : List (TurnPosition Args) :=
  trace (turnStep maxAgentIterations) (turnStart checkpoint userMessage userId) outcomes

/-- The tool calls that a turn executes. -/
def executedInTurn (checkpoint : AgentState Args) (userMessage userId : String)
    (outcomes : List (NodeOutcome Args)) : List (ToolExecution Args) :=
  (turnTrace checkpoint userMessage userId outcomes).flatMap executedAt

/-- The specialists whose nodes a turn reaches. -/
def specialistsInTurn (checkpoint : AgentState Args) (userMessage userId : String)
    (outcomes : List (NodeOutcome Args)) : List AgentName :=
  (turnTrace checkpoint userMessage userId outcomes).filterMap specialistAt

/-- The last message is no answer of a model. -/
def Unanswered (state : AgentState Args) : Prop := ∀ message, lastBody state.messages ≠ some (.ai message)

/-- A turn stands at the node of a specialist. -/
structure AtAgent (past : List (NodeOutcome Args)) (agent : AgentName) (p : TurnPosition Args) : Prop where
  supervised : ∃ response later, past = .supervisor response :: later ∧ HandsOver response agent
  counted : p.state.iterationCount = some (iteration past)
  steps : p.supersteps = past.length
  unanswered : Unanswered p.state

/-- A turn stands at the tool node of a specialist. -/
structure AtTools (maxIterations : ℕ) (past : List (NodeOutcome Args)) (agent : AgentName)
    (message : AIMessage Args) (p : TurnPosition Args) : Prop where
  supervised : ∃ response between id,
    past = .supervisor response :: between ++ [.specialist id message] ∧ HandsOver response agent
  counted : p.state.iterationCount = some (iteration past)
  steps : p.supersteps = past.length
  answered : lastBody p.state.messages = some (.ai message)
  valid : message.invalidToolCalls = []
  called : message.toolCalls ≠ []
  inTime : iteration past < maxIterations

/-- How the outcomes of a turn so far relate to where it stands. -/
def TurnInv (maxIterations : ℕ) (past : List (NodeOutcome Args)) (p : TurnPosition Args) : Prop :=
  match p.place with
  | .node .supervisor =>
    past = [] ∧ p.state.iterationCount = some 0 ∧ p.supersteps = 0 ∧ Unanswered p.state
  | .node (.agent name) => AtAgent past name p
  | .node (.tools name) => ∃ message, AtTools maxIterations past name message p
  | _ => True

section Steps

variable {maxIterations : ℕ} {past : List (NodeOutcome Args)} {state s : AgentState Args}
  {o : NodeOutcome Args} {m : GraphNode} {supersteps : ℕ} {agent : AgentName}

/-- A specialist's answer from which an edge leads on is the last message: one that takes the place of
an earlier message leaves the last message as it was. -/
theorem lastBody_of_route {id : Option ℕ} {response : AIMessage Args} {route : SpecialistRoute}
    (hunanswered : Unanswered state)
    (hroute : routeSpecialistOutput maxIterations (callSpecialist agent id response state) = some route) :
    lastBody (callSpecialist agent id response state).messages = some (.ai response) := by
  rcases lastBody_callSpecialist agent id response state with hnew | hold
  · exact hnew
  · unfold routeSpecialistOutput at hroute
    split at hroute
    case h_1 message hlast => exact absurd (hold.symm.trans hlast) (hunanswered message)
    case h_2 => cases hroute

/-- So an edge that leads on has looked at the specialist's own answer. -/
theorem answer_eq_of_route {id : Option ℕ} {response message : AIMessage Args} {route : SpecialistRoute}
    (hunanswered : Unanswered state)
    (hroute : routeSpecialistOutput maxIterations (callSpecialist agent id response state) = some route)
    (hlast : lastBody (callSpecialist agent id response state).messages = some (.ai message)) :
    message = response :=
  MessageBody.ai.inj (Option.some.inj (hlast.symm.trans (lastBody_of_route hunanswered hroute)))

/-- A turn begins with the user's message last. -/
theorem turnInv_start (maxIterations : ℕ) (checkpoint : AgentState Args) (userMessage userId : String) :
    TurnInv maxIterations [] (turnStart checkpoint userMessage userId) := by
  refine ⟨rfl, rfl, rfl, fun message h => ?_⟩
  have hlast : lastBody (checkpoint.startTurn userMessage userId).messages = some (.human userMessage) :=
    lastBody_addMessage_none _ _
  exact absurd (hlast.symm.trans h) (by simp)

/-- The supervisor leads to the specialist it names, or to the invalid call. -/
theorem turnInv_supervisor (hcount : state.iterationCount = some 0) (hunanswered : Unanswered state)
    (hrun : runNode .supervisor state o = some (some s))
    (hnext : nextNode maxIterations .supervisor s = some (some m)) :
    TurnInv maxIterations [o] ⟨.node m, s, 1⟩ := by
  cases o <;> simp only [runNode, Option.some.injEq, reduceCtorEq] at hrun
  case supervisor response =>
    subst hrun
    simp only [nextNode, routeSupervisor, callSupervisor] at hnext
    cases hagent : handoff response with
    | none =>
      rw [hagent] at hnext
      obtain rfl := Option.some.inj (Option.some.inj hnext)
      trivial
    | some name =>
      rw [hagent] at hnext
      obtain rfl := Option.some.inj (Option.some.inj hnext)
      exact ⟨⟨response, [], rfl, handoff_eq_some_iff.mp hagent⟩, hcount, rfl, hunanswered⟩

/-- A specialist leads to its own tools with its answer last, or to the end of the turn. -/
theorem turnInv_agent (hat : AtAgent past agent ⟨.node (.agent agent), state, supersteps⟩)
    (hrun : runNode (.agent agent) state o = some (some s))
    (hnext : nextNode maxIterations (.agent agent) s = some (some m)) :
    TurnInv maxIterations (past ++ [o]) ⟨.node m, s, supersteps + 1⟩ := by
  cases o <;> simp only [runNode, Option.some.injEq, reduceCtorEq] at hrun
  case specialist id response =>
    obtain ⟨route, hroute, hm⟩ := Option.map_eq_some_iff.mp hnext
    cases route with
    | limit => exact Option.some.inj hm ▸ trivial
    | invalid => exact Option.some.inj hm ▸ trivial
    | done => exact absurd hm (by simp)
    | tools =>
      obtain rfl := Option.some.inj hm
      obtain ⟨message, count, hlast, hvalid, hcalled, hcount, hlt⟩ := routeSpecialistOutput_eq_tools.mp hroute
      obtain ⟨⟨supervision, later, rfl, hhands⟩, hcounted, hsteps, hunanswered⟩ := hat
      have hmessage : message = response := by
        rw [← hrun] at hlast hroute
        exact answer_eq_of_route hunanswered hroute hlast
      subst hmessage
      have hiteration : s.iterationCount =
          some (iteration ((.supervisor supervision :: later) ++ [.specialist id message])) := by
        rw [← hrun]
        simp only [callSpecialist, iteration, List.countP_append]
        exact congrArg (fun c => some (Option.getD c 0 + 1)) hcounted
      refine ⟨message, ⟨supervision, later, id, rfl, hhands⟩, hiteration, ?_, hlast, hvalid, hcalled, ?_⟩
      · simpa using hsteps
      · exact Option.some.inj (hiteration.symm.trans hcount) ▸ hlt

/-- The tools lead back to their specialist, with the result of a tool last. -/
theorem turnInv_tools {message : AIMessage Args}
    (hat : AtTools maxIterations past agent message ⟨.node (.tools agent), state, supersteps⟩)
    (hrun : runNode (.tools agent) state o = some (some s))
    (hnext : nextNode maxIterations (.tools agent) s = some (some m)) :
    TurnInv maxIterations (past ++ [o]) ⟨.node m, s, supersteps + 1⟩ := by
  cases o <;> simp only [runNode, Option.some.injEq, reduceCtorEq] at hrun
  case tools results =>
    obtain rfl := Option.some.inj (Option.some.inj hnext)
    obtain ⟨⟨supervision, between, id, rfl, hhands⟩, hcounted, hsteps, hanswered, hvalid, hcalled, -⟩ := hat
    simp only [toolNode, latestAIMessage_of_lastBody hanswered, Option.ite_none_right_eq_some,
      Option.some.injEq] at hrun
    obtain ⟨hlength, rfl⟩ := hrun
    refine ⟨⟨supervision, _, rfl, hhands⟩, ?_, by simpa using hsteps, fun answer hlast => ?_⟩
    · simp only [iteration, List.countP_append] at hcounted ⊢
      exact hcounted
    · have hne : toolMessages agent message.toolCalls results ≠ [] := by
        intro hnil
        rcases List.zipWith_eq_nil_iff.mp hnil with hcalls | hresults
        · exact hcalled hcalls
        · exact hcalled (List.length_eq_zero_iff.mp (by simp [← hlength, hresults]))
      rw [lastBody_addNewMessages hne] at hlast
      obtain ⟨_, hbody⟩ := exists_tool_of_mem_toolMessages (List.mem_of_getLast? hlast)
      exact absurd hbody (by simp)

/-- Every superstep keeps the relation. -/
theorem turnInv_step {p p' : TurnPosition Args} (hinv : TurnInv maxIterations past p)
    (h : turnStep maxIterations p o = some p') : TurnInv maxIterations (past ++ [o]) p' := by
  cases StateGraph.step_takes _ _ h with
  | outOfSteps n hplace hlimit => trivial
  | raised n hplace hlimit => trivial
  | finished n s hplace hlimit hrun hnext => trivial
  | moved n s m hplace hlimit hrun hnext =>
    obtain ⟨place, state, supersteps⟩ := p
    obtain rfl : place = .node n := hplace
    cases n with
    | supervisor =>
      obtain ⟨rfl, hcount, hsteps, hunanswered⟩ := hinv
      obtain rfl : supersteps = 0 := hsteps
      exact turnInv_supervisor hcount hunanswered hrun hnext
    | agent name => exact turnInv_agent hinv hrun hnext
    | tools name =>
      obtain ⟨message, hat⟩ := hinv
      exact turnInv_tools hat hrun hnext
    | limit => exact absurd hnext (by simp [agentGraph, nextNode])
    | invalid => exact absurd hnext (by simp [agentGraph, nextNode])

end Steps

section Turns

variable (checkpoint : AgentState Args) (userMessage userId : String) (outcomes : List (NodeOutcome Args))

/-- The relation holds wherever a turn passes, for the outcomes up to there. -/
theorem turnInv_of_mem_turnTrace {p : TurnPosition Args}
    (h : p ∈ turnTrace checkpoint userMessage userId outcomes) :
    ∃ before after, outcomes = before ++ after ∧ TurnInv maxAgentIterations before p := by
  obtain ⟨before, after, houtcomes, hrun⟩ := exists_runFrom_of_mem_trace _ h
  refine ⟨before, after, houtcomes, ?_⟩
  exact runFrom_history _ (TurnInv maxAgentIterations)
    (fun _ _ _ _ hinv hstep => turnInv_step hinv hstep) [] hrun
    (turnInv_start maxAgentIterations checkpoint userMessage userId)

/-- A specialist that a turn reaches is the one that the supervisor has named. -/
theorem handsOver_of_mem_specialistsInTurn {agent : AgentName}
    (h : agent ∈ specialistsInTurn checkpoint userMessage userId outcomes) :
    ∃ supervision later, outcomes = .supervisor supervision :: later ∧ HandsOver supervision agent := by
  obtain ⟨p, hp, hagent⟩ := List.mem_filterMap.mp h
  obtain ⟨before, after, rfl, hinv⟩ := turnInv_of_mem_turnTrace _ _ _ _ hp
  obtain ⟨place, state, supersteps⟩ := p
  rcases place with (_ | name | name | _ | _) | _ | _ | _ <;>
    simp only [specialistAt, GraphNode.specialist?, Option.some.injEq, reduceCtorEq] at hagent
  · obtain ⟨supervision, later, rfl, hhands⟩ := AtAgent.supervised hinv
    exact ⟨supervision, later ++ after, rfl, hagent ▸ hhands⟩
  · obtain ⟨message, hat⟩ := hinv
    obtain ⟨supervision, between, id, rfl, hhands⟩ := hat.supervised
    exact ⟨supervision, between ++ [.specialist id message] ++ after, by simp, hagent ▸ hhands⟩

/-- A call is executed right after the answer that makes it, by the specialist that the supervisor
has named. -/
theorem answer_of_mem_executedInTurn {e : ToolExecution Args}
    (h : e ∈ executedInTurn checkpoint userMessage userId outcomes) :
    ∃ supervision between id message,
      outcomes.take e.superstep = .supervisor supervision :: between ++ [.specialist id message] ∧
      HandsOver supervision e.agent ∧ e.call.name ∈ specialistTools e.agent ∧
      e.call ∈ message.toolCalls ∧ message.invalidToolCalls = [] ∧
      iteration (outcomes.take e.superstep) < maxAgentIterations := by
  obtain ⟨p, hp, hexecuted⟩ := List.mem_flatMap.mp h
  obtain ⟨before, after, rfl, hinv⟩ := turnInv_of_mem_turnTrace _ _ _ _ hp
  obtain ⟨place, state, supersteps⟩ := p
  rcases place with (_ | name | name | _ | _) | _ | _ | _ <;>
    simp only [executedAt, List.not_mem_nil] at hexecuted
  obtain ⟨message, hat⟩ := hinv
  obtain ⟨call, hcall, rfl⟩ := List.mem_map.mp hexecuted
  simp only [executedCalls, latestAIMessage_of_lastBody hat.answered, List.mem_filter,
    decide_eq_true_eq] at hcall
  have htake : (before ++ after).take supersteps = before := by
    rw [show supersteps = before.length from hat.steps, List.take_left]
  obtain ⟨supervision, between, id, hbefore, hhands⟩ := hat.supervised
  rw [htake]
  exact ⟨supervision, between, id, message, hbefore, hhands, hcall.2, hcall.1, hat.valid, hat.inTime⟩

/-- On every checkpoint and for all answers of the models, a turn executes only tools of the one
specialist that the supervisor hands over to, only calls of an answer without invalid calls, and
only before the iterations are used up. -/
theorem tools_confined :
    (∀ e ∈ executedInTurn checkpoint userMessage userId outcomes, ∃ supervision between id message,
      outcomes.take e.superstep = .supervisor supervision :: between ++ [.specialist id message] ∧
      HandsOver supervision e.agent ∧ e.call.name ∈ specialistTools e.agent ∧
      e.call ∈ message.toolCalls ∧ message.invalidToolCalls = [] ∧
      iteration (outcomes.take e.superstep) < maxAgentIterations) ∧
    (∀ supervision later, outcomes = .supervisor supervision :: later →
      (∀ agent, ¬ HandsOver supervision agent) →
      executedInTurn checkpoint userMessage userId outcomes = []) ∧
    (∀ a ∈ specialistsInTurn checkpoint userMessage userId outcomes,
      (∃ supervision later, outcomes = .supervisor supervision :: later ∧ HandsOver supervision a) ∧
      ∀ b ∈ specialistsInTurn checkpoint userMessage userId outcomes, a = b) := by
  refine ⟨fun e he => answer_of_mem_executedInTurn _ _ _ _ he, ?_, fun a ha => ?_⟩
  · rintro supervision later rfl hnone
    refine List.eq_nil_iff_forall_not_mem.mpr fun e he => ?_
    obtain ⟨supervision', between, id, message, htake, hhands, -⟩ :=
      answer_of_mem_executedInTurn _ _ _ _ he
    cases hsuperstep : e.superstep with
    | zero => simp [hsuperstep] at htake
    | succ n =>
      rw [hsuperstep, List.take_succ_cons, List.cons_append] at htake
      obtain rfl := NodeOutcome.supervisor.inj (List.cons.inj htake).1
      exact hnone _ hhands
  · refine ⟨handsOver_of_mem_specialistsInTurn _ _ _ _ ha, fun b hb => ?_⟩
    obtain ⟨supervision, later, houtcomes, hfirst⟩ := handsOver_of_mem_specialistsInTurn _ _ _ _ ha
    obtain ⟨supervision', later', houtcomes', hsecond⟩ := handsOver_of_mem_specialistsInTurn _ _ _ _ hb
    obtain rfl := NodeOutcome.supervisor.inj (List.cons.inj (houtcomes.symm.trans houtcomes')).1
    exact hfirst.unique hsecond

end Turns

/-- A conversation in which an earlier turn asked for a refund. -/
def refundConversation : AgentState String where
  messages := [⟨1, .human "Refund ORD-005"⟩,
    ⟨2, .ai { content := "", toolCalls := [⟨"request_refund", "ORD-005", some "call-1"⟩] }⟩,
    ⟨3, .tool ⟨"started", some "call-1", false⟩⟩, ⟨4, .ai { content := "It has been started." }⟩]
  iterationCount := some 2
  userId := some "CUS-005"
  activeAgent := some .orderActions

/-- A turn for the order tracking, whose answer also calls a tool of the order actions. -/
def mixedCalls : List (NodeOutcome String) :=
  [.supervisor { content := "", toolCalls := [⟨"delegate_to_order_tracking", "", some "call-2"⟩] },
    .specialist (some 7) { content := "", toolCalls := [⟨"cancel_order", "ORD-004", some "call-3"⟩,
      ⟨"get_order_status", "ORD-004", some "call-4"⟩] },
    .tools [("cancel_order is not a valid tool", true), ("placed", false)],
    .specialist (some 8) { content := "ORD-004 is placed." }]

/-- Of the two calls only that of the order tracking is executed. -/
theorem tools_confined_mixedCalls :
    executedInTurn refundConversation "Where is ORD-004?" "CUS-004" mixedCalls =
        [⟨2, .orderTracking, ⟨"get_order_status", "ORD-004", some "call-4"⟩⟩] ∧
      ∀ a ∈ specialistsInTurn refundConversation "Where is ORD-004?" "CUS-004" mixedCalls,
        a = .orderTracking := by
  have hspecialists : AgentName.orderTracking ∈
      specialistsInTurn refundConversation "Where is ORD-004?" "CUS-004" mixedCalls := by
    decide +kernel
  refine ⟨by decide +kernel, fun a ha => ?_⟩
  exact ((tools_confined refundConversation "Where is ORD-004?" "CUS-004" mixedCalls).2.2 a ha).2
    .orderTracking hspecialists

end Agentops
