import Agentops.Agent.Confinement

/-!
# Every turn ends within its bound

For every iteration limit, every checkpoint and all behaviour of the models and the tools, a turn
calls the supervisor once, a specialist at most as often as the limit says and the tools once less,
so that the recursion limit derived from it is out of reach. The counter and the number of
supersteps determine one another wherever a turn stands, and a budget of visits is paid at each node.
-/

namespace Agentops

open LabelledRun

variable {Args : Type}

/-- The kinds of nodes that call a model or tools. -/
inductive NodeKind
  | supervisor
  | specialist
  | tools
  deriving DecidableEq, Repr

def GraphNode.kind? : GraphNode → Option NodeKind
  | .supervisor => some .supervisor
  | .agent _ => some .specialist
  | .tools _ => some .tools
  | _ => none

/-- A turn stands at a node of a kind. -/
def standsAt (kind : NodeKind) (p : TurnPosition Args) : Bool :=
  match p.place with
  | .node n => n.kind? = some kind
  | _ => false

/-- The visits of a turn to the nodes of a kind. -/
def visits (maxIterations : ℕ) (kind : NodeKind) (checkpoint : AgentState Args)
    (userMessage userId : String) (outcomes : List (NodeOutcome Args)) : ℕ :=
  (trace (turnStep maxIterations) (turnStart checkpoint userMessage userId) outcomes).countP
    (standsAt kind)

/-- The counter of a turn and its supersteps, by where it stands. -/
def Paced (maxIterations : ℕ) (p : TurnPosition Args) : Prop :=
  match p.place with
  | .node .supervisor => p.state.iterationCount = some 0 ∧ p.supersteps = 0
  | .node (.agent _) =>
    ∃ count < maxIterations, p.state.iterationCount = some count ∧ p.supersteps = 2 * count + 1
  | .node (.tools _) =>
    ∃ count < maxIterations, p.state.iterationCount = some count ∧ 1 ≤ count ∧ p.supersteps = 2 * count
  | .node .limit | .node .invalid => p.supersteps ≤ 2 * maxIterations
  | .finished | .raised => p.supersteps ≤ 2 * maxIterations + 1
  | .outOfSteps => False

/-- How often a turn can still visit the nodes of a kind. -/
def visitsLeft (maxIterations : ℕ) (kind : NodeKind) (p : TurnPosition Args) : ℕ :=
  let left := maxIterations - p.state.iterationCount.getD 0
  match kind, p.place with
  | .supervisor, .node .supervisor => 1
  | .specialist, .node .supervisor | .specialist, .node (.agent _) | .specialist, .node (.tools _) => left
  | .tools, .node .supervisor | .tools, .node (.agent _) => left - 1
  | .tools, .node (.tools _) => left
  | _, _ => 0

/-- The message with which a turn ends. -/
inductive FinalAnswer (past : List (NodeOutcome Args)) : AIMessage Args → Prop
  | specialist (before : List (NodeOutcome Args)) (id : Option ℕ) (message : AIMessage Args)
      (hlast : past = before ++ [.specialist id message]) (hcalls : message.toolCalls = [])
      (hvalid : message.invalidToolCalls = []) : FinalAnswer past message
  | limit : FinalAnswer past { content := iterationLimitMessage }
  | invalid : FinalAnswer past { content := invalidToolCallMessage }

/-- Why a node raises: its model or its tools do, or an answer has the id of an earlier message and
is not the last message, where the routing looks for it. -/
inductive RaiseCause (past : List (NodeOutcome Args)) (state : AgentState Args) : Prop
  | surroundings (before : List (NodeOutcome Args)) (hlast : past = before ++ [.raises])
  | replaced (before : List (NodeOutcome Args)) (i : ℕ) (message : AIMessage Args)
      (hlast : past = before ++ [.specialist (some i) message]) (hid : i ∈ state.messages.map Message.id)

/-- How a turn has ended, by its outcomes. -/
def Ended (past : List (NodeOutcome Args)) (p : TurnPosition Args) : Prop :=
  match p.place with
  | .finished => ∃ message, lastBody p.state.messages = some (.ai message) ∧ FinalAnswer past message
  | .raised => RaiseCause past p.state
  | _ => True

section Steps

variable {maxIterations : ℕ} {p p' : TurnPosition Args} {o : NodeOutcome Args}

/-- A turn begins with its counter at zero. -/
theorem paced_start (maxIterations : ℕ) (checkpoint : AgentState Args) (userMessage userId : String) :
    Paced maxIterations (turnStart checkpoint userMessage userId) := ⟨rfl, rfl⟩

/-- Wherever a turn stands, it has taken at most `2 * maxIterations + 1` supersteps. -/
theorem Paced.supersteps_le (h : Paced maxIterations p) : p.supersteps ≤ 2 * maxIterations + 1 := by
  obtain ⟨place, state, supersteps⟩ := p
  rcases place with (_ | name | name | _ | _) | _ | _ | _
  · exact h.2 ▸ Nat.zero_le _
  · obtain ⟨count, hlt, -, hsteps⟩ := h
    simp only at hsteps ⊢
    omega
  · obtain ⟨count, hlt, -, -, hsteps⟩ := h
    simp only at hsteps ⊢
    omega
  · exact Nat.le_succ_of_le h
  · exact Nat.le_succ_of_le h
  · exact h
  · exact h
  · exact h.elim

/-- A turn at a node has at least one superstep left. -/
theorem Paced.supersteps_lt (h : Paced maxIterations p) {n : GraphNode} (hplace : p.place = .node n) :
    p.supersteps ≤ 2 * maxIterations := by
  obtain ⟨place, state, supersteps⟩ := p
  obtain rfl : place = .node n := hplace
  rcases n with _ | name | name | _ | _
  · exact h.2 ▸ Nat.zero_le _
  · obtain ⟨count, hlt, -, hsteps⟩ := h
    simp only at hsteps ⊢
    omega
  · obtain ⟨count, hlt, -, -, hsteps⟩ := h
    simp only at hsteps ⊢
    omega
  · exact h
  · exact h

/-- Every superstep keeps the pace. -/
theorem paced_step (hlimit : 1 ≤ maxIterations) (hpaced : Paced maxIterations p)
    (h : turnStep maxIterations p o = some p') : Paced maxIterations p' := by
  obtain ⟨place, state, supersteps⟩ := p
  cases turnStep_takes h with
  | delegated response name hplace hhandoff =>
    obtain rfl : place = _ := hplace
    obtain ⟨hcount, hsteps⟩ := hpaced
    exact ⟨0, hlimit, hcount, congrArg (· + 1) hsteps⟩
  | undelegated response hplace hhandoff =>
    obtain rfl : place = _ := hplace
    obtain ⟨-, hsteps⟩ := hpaced
    simp only at hsteps
    simp only [Paced]
    omega
  | answered name id response route hplace hroute =>
    obtain rfl : place = _ := hplace
    obtain ⟨count, hlt, hcount, hsteps⟩ := hpaced
    simp only at hcount hsteps
    cases route with
    | tools =>
      obtain ⟨_, next, -, -, -, hnext, hinTime⟩ := routeSpecialistOutput_eq_tools.mp hroute
      simp only [callSpecialist, hcount, Option.getD_some, Option.some.injEq] at hnext
      exact ⟨next, hinTime, by simp [callSpecialist, hcount, hnext], by omega, by simp only; omega⟩
    | limit => simp only [Paced, SpecialistRoute.place]; omega
    | invalid => simp only [Paced, SpecialistRoute.place]; omega
    | done => simp only [Paced, SpecialistRoute.place]; omega
  | executed name results s hplace hrun =>
    obtain rfl : place = _ := hplace
    obtain ⟨count, hlt, hcount, -, hsteps⟩ := hpaced
    refine ⟨count, hlt, ?_, congrArg (· + 1) hsteps⟩
    exact (iterationCount_toolNode hrun).trans hcount
  | limited hplace => exact Nat.succ_le_succ (hpaced.supersteps_lt hplace)
  | rejected hplace => exact Nat.succ_le_succ (hpaced.supersteps_lt hplace)
  | raised n o hplace hraise => exact Nat.succ_le_succ (hpaced.supersteps_lt hplace)
  | outOfSteps n o hplace hout =>
    have hle := hpaced.supersteps_lt hplace
    simp only [graphRecursionLimit] at hout hle
    omega

/-- The visit to a node is still to be paid while a turn stands at it. -/
theorem standsAt_le_visitsLeft (kind : NodeKind) (hpaced : Paced maxIterations p) :
    (standsAt kind p).toNat ≤ visitsLeft maxIterations kind p := by
  obtain ⟨place, state, supersteps⟩ := p
  rcases place with (_ | name | name | _ | _) | _ | _ | _
  case node.agent =>
    obtain ⟨count, hlt, hcount, -⟩ := hpaced
    simp only at hcount
    cases kind <;> simp [standsAt, GraphNode.kind?, visitsLeft, hcount]
    omega
  case node.tools =>
    obtain ⟨count, hlt, hcount, -⟩ := hpaced
    simp only at hcount
    cases kind <;> simp [standsAt, GraphNode.kind?, visitsLeft, hcount]
    omega
  all_goals cases kind <;> simp [standsAt, GraphNode.kind?, visitsLeft]

/-- Every superstep out of a node pays for the visit to it. -/
theorem visitsLeft_step (kind : NodeKind) (hpaced : Paced maxIterations p)
    (h : turnStep maxIterations p o = some p') :
    (standsAt kind p).toNat + visitsLeft maxIterations kind p' ≤ visitsLeft maxIterations kind p := by
  have hpays := standsAt_le_visitsLeft kind hpaced
  obtain ⟨place, state, supersteps⟩ := p
  cases turnStep_takes h with
  | delegated response name hplace hhandoff =>
    obtain rfl : place = _ := hplace
    cases kind <;> simp [standsAt, GraphNode.kind?, visitsLeft, callSupervisor]
  | answered name id response route hplace hroute =>
    obtain rfl : place = _ := hplace
    obtain ⟨count, hlt, hcount, -⟩ := hpaced
    simp only at hcount
    cases route <;> cases kind <;>
      simp [standsAt, GraphNode.kind?, visitsLeft, SpecialistRoute.place, callSpecialist, hcount] <;>
      omega
  | executed name results s hplace hrun =>
    obtain rfl : place = _ := hplace
    obtain ⟨count, hlt, hcount, -⟩ := hpaced
    simp only at hcount
    cases kind <;>
      simp [standsAt, GraphNode.kind?, visitsLeft, iterationCount_toolNode hrun, hcount]
    omega
  | undelegated => cases kind <;> simpa [visitsLeft] using hpays
  | limited => cases kind <;> simpa [visitsLeft] using hpays
  | rejected => cases kind <;> simpa [visitsLeft] using hpays
  | raised => cases kind <;> simpa [visitsLeft] using hpays
  | outOfSteps => cases kind <;> simpa [visitsLeft] using hpays

variable {past : List (NodeOutcome Args)}

/-- A node that raises does so for one of the causes. -/
theorem raiseCause_of_raise {n : GraphNode} (hinv : TurnInv maxIterations past p)
    (hplace : p.place = .node n)
    (hraise : runNode n p.state o = some none ∨
      ∃ s, runNode n p.state o = some (some s) ∧ nextNode maxIterations n s = none) :
    RaiseCause (past ++ [o]) p.state := by
  obtain ⟨place, state, supersteps⟩ := p
  obtain rfl : place = .node n := hplace
  by_cases ho : o = .raises
  · exact .surroundings past (ho ▸ rfl)
  · rcases hraise with hrun | ⟨s, hrun, hnext⟩
    · cases n <;> cases o <;> simp only [runNode, reduceCtorEq, Option.some.injEq, not_true_eq_false] at hrun ho
      case tools.tools name results =>
        obtain ⟨message, hat⟩ := hinv
        exact absurd hrun (toolNode_ne_raise hat.answered)
    · cases n <;> cases o <;> simp only [runNode, reduceCtorEq, Option.some.injEq] at hrun ho
      case agent.specialist name id response =>
        subst hrun
        have hroute : routeSpecialistOutput maxIterations (callSpecialist name id response state) = none :=
          Option.map_eq_none_iff.mp hnext
        have hlast : lastBody (callSpecialist name id response state).messages ≠ some (.ai response) := by
          intro hlast
          obtain ⟨route, hsome⟩ := exists_routeSpecialistOutput maxIterations hlast rfl
          exact absurd (hroute.symm.trans hsome) (by simp)
        obtain ⟨i, hi, rfl⟩ := exists_mem_of_lastBody_addMessage hlast
        exact .replaced past i response rfl hi
      all_goals simp [nextNode] at hnext
      split at hnext <;> simp at hnext

/-- A turn that ends with a superstep ends as described. -/
theorem ended_step (hinv : TurnInv maxIterations past p) (h : turnStep maxIterations p o = some p') :
    Ended (past ++ [o]) p' := by
  cases turnStep_takes h with
  | answered name id response route hplace hroute =>
    cases route with
    | done =>
      obtain ⟨place, state, supersteps⟩ := p
      obtain rfl : place = _ := hplace
      obtain ⟨message, hlast, hvalid, hcalls⟩ := routeSpecialistOutput_eq_done.mp hroute
      obtain rfl := answer_eq_of_route hinv.unanswered hroute hlast
      exact ⟨message, hlast, .specialist past id message rfl hcalls hvalid⟩
    | tools => trivial
    | limit => trivial
    | invalid => trivial
  | limited hplace => exact ⟨_, lastBody_addMessage_none _ _, .limit⟩
  | rejected hplace => exact ⟨_, lastBody_addMessage_none _ _, .invalid⟩
  | raised n o hplace hraise =>
    have hcause : RaiseCause (past ++ [o]) p.state := raiseCause_of_raise hinv hplace hraise
    exact hcause
  | delegated => trivial
  | undelegated => trivial
  | executed => trivial
  | outOfSteps => trivial

/-- Supersteps are counted while the limit is not reached. -/
theorem supersteps_step (hpaced : Paced maxIterations p) (h : turnStep maxIterations p o = some p') :
    p'.supersteps = p.supersteps + 1 := by
  cases turnStep_takes h with
  | outOfSteps n o hplace hout =>
    have hle := hpaced.supersteps_lt hplace
    simp only [graphRecursionLimit] at hout
    omega
  | delegated => rfl
  | undelegated => rfl
  | answered => rfl
  | executed => rfl
  | limited => rfl
  | rejected => rfl
  | raised => rfl

/-- Wherever a turn stands, its node can come to something else than raising. -/
theorem exists_comesTo (hinv : TurnInv maxIterations past p) {n : GraphNode} (hplace : p.place = .node n) :
    ∃ o : NodeOutcome Args, o ≠ .raises ∧ ComesTo p.state n o := by
  obtain ⟨place, state, supersteps⟩ := p
  obtain rfl : place = .node n := hplace
  cases n with
  | supervisor => exact ⟨.supervisor { content := "" }, by simp, .supervised _⟩
  | agent name => exact ⟨.specialist none { content := "" }, by simp, .answered name none _⟩
  | tools name =>
    obtain ⟨message, hat⟩ := hinv
    exact ⟨.tools (message.toolCalls.map fun _ => ("", false)), by simp,
      .executed name message _ (latestAIMessage_of_lastBody hat.answered) (List.length_map _)⟩
  | limit => exact ⟨.reply, by simp, .limited⟩
  | invalid => exact ⟨.reply, by simp, .rejected⟩

end Steps

section Turns

variable (maxIterations : ℕ) (hlimit : 1 ≤ maxIterations) (checkpoint : AgentState Args)
  (userMessage userId : String) (outcomes : List (NodeOutcome Args))

/-- What holds wherever a turn passes, for the outcomes up to there. -/
structure TurnProgress (past : List (NodeOutcome Args)) (p : TurnPosition Args) : Prop where
  inv : TurnInv maxIterations past p
  paced : Paced maxIterations p
  counted : p.supersteps = past.length
  ended : Ended past p

include hlimit in
theorem turnProgress_of_run {p : TurnPosition Args}
    (hrun : runFrom (turnStep maxIterations) (turnStart checkpoint userMessage userId) outcomes = some p) :
    TurnProgress maxIterations outcomes p := by
  refine runFrom_history _ (TurnProgress maxIterations) (fun past s o s' hs hstep => ?_) [] hrun
    ⟨turnInv_start _ _ _ _, paced_start _ _ _ _, rfl, trivial⟩
  refine ⟨turnInv_step hs.inv hstep, paced_step hlimit hs.paced hstep, ?_, ended_step hs.inv hstep⟩
  rw [supersteps_step hs.paced hstep, hs.counted, List.length_append, List.length_singleton]

include hlimit in
/-- A turn visits the nodes of a kind no more often than it can at its start. -/
theorem visits_le (kind : NodeKind) :
    visits maxIterations kind checkpoint userMessage userId outcomes ≤
      visitsLeft maxIterations kind (turnStart checkpoint userMessage userId) :=
  countP_trace_le _ (Paced maxIterations) _ (visitsLeft maxIterations kind)
    (fun _ _ _ hs hstep => paced_step hlimit hs hstep)
    (fun _ _ _ hs hstep => visitsLeft_step kind hs hstep)
    (fun _ hs => standsAt_le_visitsLeft kind hs) outcomes (paced_start _ _ _ _)

include hlimit in
/-- However the models and tools behave, a turn comes to its end, unless a node raises. -/
theorem turn_ends (behaviour : TurnPosition Args → NodeOutcome Args)
    (hbehaviour : ∀ p n, p.place = .node n → ComesTo p.state n (behaviour p)) :
    ∃ outcomes p, runFrom (turnStep maxIterations) (turnStart checkpoint userMessage userId) outcomes = some p ∧
      StepsMeet (turnStep maxIterations) (fun p o => o = behaviour p) (turnStart checkpoint userMessage userId)
        outcomes ∧ (p.place = .finished ∨ p.place = .raised) := by
  have hgoes : ∀ p : TurnPosition Args, Paced maxIterations p → ¬ (p.place = .finished ∨ p.place = .raised) →
      ∃ p', turnStep maxIterations p (behaviour p) = some p' ∧
        2 * maxIterations + 1 - p'.supersteps < 2 * maxIterations + 1 - p.supersteps := by
    intro p hpaced hopen
    cases hplace : p.place with
    | node n =>
      obtain ⟨p', hstep⟩ : ∃ p', turnStep maxIterations p (behaviour p) = some p' :=
        (hbehaviour p n hplace).exists_step hplace
      have hcounted := supersteps_step hpaced hstep
      have hinTime := hpaced.supersteps_lt hplace
      exact ⟨p', hstep, by omega⟩
    | finished => exact absurd (.inl hplace) hopen
    | raised => exact absurd (.inr hplace) hopen
    | outOfSteps => simp [Paced, hplace] at hpaced
  obtain ⟨outcomes, p, hrun, hend, hmeet⟩ :=
    exists_chosen_run (turnStep maxIterations) (Paced maxIterations) (fun p => p.place = .finished ∨ p.place = .raised)
      behaviour (fun p => 2 * maxIterations + 1 - p.supersteps) (fun _ _ _ hs hstep => paced_step hlimit hs hstep)
      hgoes (paced_start maxIterations checkpoint userMessage userId)
  exact ⟨outcomes, p, hrun, hmeet, hend⟩

include hlimit in
/-- For every limit, every checkpoint and all behaviour of models and tools, a turn visits the
supervisor once, the specialists at most `maxIterations` times and the tools once less. It takes no
more than `2 * maxIterations + 1` supersteps, so that it never runs out of them. Where it has not
ended it goes on with whatever its node comes to, so that it reaches its end: an answer without calls
or one of the two fixed messages, unless a node raises. -/
theorem turn_bounded :
    visits maxIterations .supervisor checkpoint userMessage userId outcomes = 1 ∧
    visits maxIterations .specialist checkpoint userMessage userId outcomes ≤ maxIterations ∧
    visits maxIterations .tools checkpoint userMessage userId outcomes ≤ maxIterations - 1 ∧
    2 * maxIterations + 1 < graphRecursionLimit maxIterations ∧
    (∀ behaviour : TurnPosition Args → NodeOutcome Args,
      (∀ p n, p.place = .node n → ComesTo p.state n (behaviour p)) →
      ∃ played p, runFrom (turnStep maxIterations) (turnStart checkpoint userMessage userId) played = some p ∧
        StepsMeet (turnStep maxIterations) (fun p o => o = behaviour p)
          (turnStart checkpoint userMessage userId) played ∧ (p.place = .finished ∨ p.place = .raised)) ∧
    ∀ p, runFrom (turnStep maxIterations) (turnStart checkpoint userMessage userId) outcomes = some p →
      p.supersteps = outcomes.length ∧ p.supersteps ≤ 2 * maxIterations + 1 ∧
      (∀ n, p.place = .node n → p.supersteps < 2 * maxIterations + 1 ∧
        (∃ o, o ≠ .raises ∧ ComesTo p.state n o) ∧
        ∀ o, ComesTo p.state n o → ∃ p', turnStep maxIterations p o = some p') ∧ p.place ≠ .outOfSteps ∧
      (p.place = .finished →
        ∃ message, lastBody p.state.messages = some (.ai message) ∧ FinalAnswer outcomes message) ∧
      (p.place = .raised → RaiseCause outcomes p.state) := by
  refine ⟨le_antisymm ?_ ?_, ?_, ?_, ?_, ?_, fun p hrun => ?_⟩
  · exact visits_le maxIterations hlimit checkpoint userMessage userId outcomes .supervisor
  · exact List.countP_pos_iff.mpr ⟨_, mem_trace_self _ _ _, rfl⟩
  · exact visits_le maxIterations hlimit checkpoint userMessage userId outcomes .specialist
  · exact visits_le maxIterations hlimit checkpoint userMessage userId outcomes .tools
  · simp only [graphRecursionLimit]
    omega
  · exact turn_ends maxIterations hlimit checkpoint userMessage userId
  · obtain ⟨hinv, hpaced, hcounted, hended⟩ :=
      turnProgress_of_run maxIterations hlimit checkpoint userMessage userId outcomes hrun
    refine ⟨hcounted, hpaced.supersteps_le, fun n hn => ⟨Nat.lt_succ_of_le (hpaced.supersteps_lt hn),
      exists_comesTo hinv hn, fun o ho => ho.exists_step hn⟩, ?_, ?_, ?_⟩
    · intro hout
      simp [Paced, hout] at hpaced
    · intro hfinished
      simpa [Ended, hfinished] using hended
    · intro hraised
      simpa [Ended, hraised] using hended

end Turns

/-- A specialist that calls a tool in each of its answers. -/
def repeatedCalls : List (NodeOutcome String) :=
  let answer (i : ℕ) (id : String) : NodeOutcome String :=
    .specialist (some i) { content := "", toolCalls := [⟨"get_order_status", "invalid", some id⟩] }
  [.supervisor { content := "", toolCalls := [⟨"delegate_to_order_tracking", "", some "call-0"⟩] },
    answer 11 "call-1", .tools [("invalid_order_id", false)],
    answer 21 "call-2", .tools [("invalid_order_id", false)], answer 31 "call-3", .reply]

/-- Such a turn uses up its bound and ends with the message about the iteration limit. -/
theorem turn_bounded_repeatedCalls :
    visits 3 .specialist refundConversation "Keep checking" "CUS-028" repeatedCalls = 3 ∧
      visits 3 .tools refundConversation "Keep checking" "CUS-028" repeatedCalls = 2 ∧
      ∃ p, runFrom (turnStep 3) (turnStart refundConversation "Keep checking" "CUS-028") repeatedCalls =
          some p ∧ p.supersteps = 7 ∧ p.place ≠ .outOfSteps ∧
        lastBody p.state.messages = some (.ai { content := iterationLimitMessage }) := by
  have hcomputed : (runFrom (turnStep 3) (turnStart refundConversation "Keep checking" "CUS-028")
      repeatedCalls).map (fun p => lastBody p.state.messages) =
        some (some (.ai { content := iterationLimitMessage })) := by
    decide +kernel
  obtain ⟨p, hrun, hlast⟩ := Option.map_eq_some_iff.mp hcomputed
  have hbounded := turn_bounded 3 (by decide) refundConversation "Keep checking" "CUS-028" repeatedCalls
  obtain ⟨hsteps, -, -, hplace, -⟩ := hbounded.2.2.2.2.2 p hrun
  exact ⟨by decide +kernel, by decide +kernel, p, hrun, hsteps, hplace, hlast⟩

end Agentops
