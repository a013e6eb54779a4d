import Agentops.Foundations.RecentlyUsed
import Agentops.Agent.Graph
import Agentops.Agent.OrderIds

/-!
# The models of a server process

`app/model_factory.py` makes the chat model of a role from the environment, `app/agent_graph.py` binds tools to it, and
`app/nemo_guardrails.py` makes the rails. All of these are behind `lru_cache`, some behind two. Turns, summaries and
checks ask for models in any order, each time in one step of the event loop.
-/

namespace Agentops

open RecentlyUsed (Numbered)

/-- The default `maxsize` of `functools.lru_cache`. -/
def lruMaxsize : ℕ := 128

/-- `ModelRole`. -/
inductive ModelRole
  | supervisor
  | orderTracking
  | orderActions
  | infrastructure
  deriving DecidableEq, Repr

/-- There are four of them. -/
instance : Fintype ModelRole where
  elems := {.supervisor, .orderTracking, .orderActions, .infrastructure}
  complete role := by cases role <;> decide

/-- The value of a role. -/
def ModelRole.name : ModelRole → String
  | .supervisor => "supervisor"
  | .orderTracking => "order_tracking"
  | .orderActions => "order_actions"
  | .infrastructure => "infrastructure"

/-- What the names of the environment variables of a role begin with. -/
def rolePrefix (role : ModelRole) : String := role.name.toUpper

/-- `LLM_TIMEOUT_SECONDS`. -/
def llmTimeoutSeconds : ℕ := 60

/-- `ModelConfiguration`. -/
structure ModelConfiguration where
  role : ModelRole
  modelId : String
  deriving DecidableEq, Repr

/-- What `ChatOpenAI` is called with. -/
structure ChatArguments where
  baseUrl : String
  apiKey : String
  model : String
  streaming : Bool := true
  timeout : ℕ := llmTimeoutSeconds
  streamChunkTimeout : ℕ := llmTimeoutSeconds
  temperature : ℕ := 0
  /-- The `agent_role` of its metadata. -/
  agentRole : ModelRole
  deriving DecidableEq, Repr

/-- The dictionary of `nemo_model_configuration`. -/
structure NemoModelConfiguration where
  type : String := "main"
  engine : String := "openai"
  model : String
  apiKeyEnvVar : String
  baseUrl : String
  temperature : ℕ := 0
  maxTokens : ℕ := 8
  deriving DecidableEq, Repr

/-- The environment variables of the process, and what the two libraries raise for arguments that they do not take. -/
structure Host where
  environ : String → Option String
  chatOpenAI : ChatArguments → Option String
  llmRails : NemoModelConfiguration → Option String

/-- A `RuntimeError` of the repository, or an exception of a library. -/
inductive ModelError
  | runtimeError (text : String)
  | library (text : String)
  deriving DecidableEq, Repr

variable (host : Host)

/-- A variable of the role that is set hides `LLM_MODEL`, also when it is blank. -/
def modelConfiguration (role : ModelRole) : Except ModelError ModelConfiguration :=
  let modelId := stripText
    ((host.environ (rolePrefix role ++ "_MODEL_ID")).getD ((host.environ "LLM_MODEL").getD ""))
  if modelId = "" then
    .error (.runtimeError
      (rolePrefix role ++ "_MODEL_ID or LLM_MODEL is required for model role '" ++ role.name ++ "'"))
  else .ok ⟨role, modelId⟩

/-- A text that is set and not empty. -/
def nonempty? (text : Option String) : Option String := text.filter fun t => t ≠ ""

/-- The arguments that `get_chat_model` reads from the environment. -/
def chatArguments (role : ModelRole) : Except ModelError ChatArguments :=
  match modelConfiguration host role with
  | .error e => .error e
  | .ok configuration =>
    match nonempty? ((host.environ (rolePrefix role ++ "_MODEL_BASE_URL")).or (host.environ "LLM_BASE_URL")),
      nonempty? ((host.environ (rolePrefix role ++ "_MODEL_API_KEY")).or (host.environ "LLM_API_KEY")) with
    | some baseUrl, some apiKey =>
      .ok { baseUrl := baseUrl, apiKey := apiKey, model := configuration.modelId, agentRole := role }
    | _, _ => .error (.runtimeError
        ("LLM_BASE_URL and LLM_API_KEY are required for model role '" ++ role.name ++ "'"))

/-- What the body of `get_chat_model` comes to. -/
def chatModelBody (role : ModelRole) : Except ModelError ChatArguments :=
  match chatArguments host role with
  | .error e => .error e
  | .ok arguments =>
    match host.chatOpenAI arguments with
    | some text => .error (.library text)
    | none => .ok arguments

/-- `nemo_model_configuration`. -/
def nemoModelConfiguration : Except ModelError NemoModelConfiguration :=
  let model := stripText ((host.environ "NEMO_LLM_MODEL").getD ((host.environ "LLM_MODEL").getD ""))
  let baseUrl := stripText ((host.environ "NEMO_LLM_BASE_URL").getD ((host.environ "LLM_BASE_URL").getD ""))
  let apiKeyEnvVar :=
    if (nonempty? (host.environ "NEMO_LLM_API_KEY")).isSome then "NEMO_LLM_API_KEY" else "LLM_API_KEY"
  if model = "" ∨ baseUrl = "" ∨ (nonempty? (host.environ apiKeyEnvVar)).isNone then
    .error (.runtimeError ("NEMO_LLM_MODEL, NEMO_LLM_BASE_URL, and NEMO_LLM_API_KEY " ++
      "(or their legacy LLM_* fallbacks) are required when NeMo is enabled"))
  else .ok { model := model, apiKeyEnvVar := apiKeyEnvVar, baseUrl := baseUrl }

/-- What the body of `get_nemo_rails` comes to. -/
def nemoRailsBody : Except ModelError NemoModelConfiguration :=
  match nemoModelConfiguration host with
  | .error e => .error e
  | .ok configuration =>
    match host.llmRails configuration with
    | some text => .error (.library text)
    | none => .ok configuration

/-- A model with the tools that are bound to it, if any. -/
structure Llm where
  client : Numbered ChatArguments
  tools : Option (List String)
  deriving DecidableEq, Repr

/-- The accessors of `app/agent_graph.py`. -/
inductive Accessor
  | llm
  | supervisor
  | specialist (agent : AgentName)
  deriving DecidableEq, Repr

/-- The role of a specialist. -/
def AgentName.role : AgentName → ModelRole
  | .orderTracking => .orderTracking
  | .orderActions => .orderActions
  | .infrastructure => .infrastructure

/-- The role whose client an accessor asks for. -/
def Accessor.role : Accessor → ModelRole
  | .llm => .orderTracking
  | .supervisor => .supervisor
  | .specialist agent => agent.role

/-- The names of `SUPERVISOR_HANDOFF_TOOLS`. -/
def supervisorHandoffTools : List String :=
  ["delegate_to_order_tracking", "delegate_to_order_actions", "delegate_to_infrastructure"]

/-- The tools that an accessor binds. -/
def Accessor.tools : Accessor → Option (List String)
  | .llm => none
  | .supervisor => some supervisorHandoffTools
  | .specialist agent => some (specialistTools agent)

/-- The cache of `get_chat_model` and the clients that were built, in order. -/
structure Clients where
  cache : RecentlyUsed ModelRole (Numbered ChatArguments) lruMaxsize
  log : List (ModelRole × Numbered ChatArguments)

/-- The caches of a process. -/
structure ModelCaches where
  clients : Clients
  accessors : Accessor → RecentlyUsed Unit Llm lruMaxsize
  rails : RecentlyUsed Unit (Numbered NemoModelConfiguration) lruMaxsize
  railsLog : List (Unit × Numbered NemoModelConfiguration)

/-- A process that has asked for nothing. -/
def ModelCaches.start : ModelCaches := ⟨⟨.empty, []⟩, fun _ => .empty, .empty, []⟩

/-- `get_chat_model`. -/
def getChatModel (role : ModelRole) (clients : Clients) : Except ModelError (Numbered ChatArguments) × Clients :=
  match RecentlyUsed.call (RecentlyUsed.making (chatModelBody host)) role clients.cache clients.log with
  | (answer, cache, log) => (answer, ⟨cache, log⟩)

/-- The body of an accessor. -/
def bindTools (accessor : Accessor) (_ : Unit) (clients : Clients) : Except ModelError Llm × Clients :=
  ((getChatModel host accessor.role clients).1.map (Llm.mk · accessor.tools),
    (getChatModel host accessor.role clients).2)

/-- An accessor, behind its own cache. -/
def access (accessor : Accessor) (caches : ModelCaches) : Except ModelError Llm × ModelCaches :=
  match RecentlyUsed.call (bindTools host accessor) () (caches.accessors accessor) caches.clients with
  | (answer, cache, clients) => (answer, { caches with
      clients := clients, accessors := Function.update caches.accessors accessor cache })

/-- `get_llm`. -/
def getLlm := access host .llm

/-- `get_supervisor_llm`. -/
def getSupervisorLlm := access host .supervisor

/-- `get_order_tracking_llm`. -/
def getOrderTrackingLlm := access host (.specialist .orderTracking)

/-- `get_order_actions_llm`. -/
def getOrderActionsLlm := access host (.specialist .orderActions)

/-- `get_infrastructure_llm`. -/
def getInfrastructureLlm := access host (.specialist .infrastructure)

/-- `get_tool_enabled_llm`, another name of the model for tracking. -/
def getToolEnabledLlm := getOrderTrackingLlm host

/-- `SPECIALIST_MODEL_GETTERS`. -/
def specialistModelGetters : AgentName → ModelCaches → Except ModelError Llm × ModelCaches
  | .orderTracking => getOrderTrackingLlm host
  | .orderActions => getOrderActionsLlm host
  | .infrastructure => getInfrastructureLlm host

/-- `get_nemo_rails`. -/
def getNemoRails (caches : ModelCaches) : Except ModelError (Numbered NemoModelConfiguration) × ModelCaches :=
  match RecentlyUsed.call (RecentlyUsed.making (fun _ => nemoRailsBody host)) () caches.rails caches.railsLog with
  | (answer, rails, railsLog) => (answer, { caches with rails := rails, railsLog := railsLog })

/-- Where the program asks for a model. -/
inductive ModelCall
  /-- `get_chat_model`, which `summarise_and_store` calls for the supervisor's -/
  | chatModel (role : ModelRole)
  /-- `call_supervisor` -/
  | supervisor
  /-- `call_specialist` -/
  | specialist (agent : AgentName)
  /-- `get_llm`, for callers of old -/
  | llm
  /-- `get_tool_enabled_llm`, for callers of old -/
  | toolEnabledLlm
  /-- `check_nemo_input` and `check_nemo_output` -/
  | rails
  deriving DecidableEq, Repr

/-- What a call is answered with. -/
inductive ModelAnswer
  | model (llm : Llm)
  | rails (rails : Numbered NemoModelConfiguration)
  deriving DecidableEq, Repr

/-- One call, and the caches after it. -/
def ModelCall.ask (caches : ModelCaches) : ModelCall → Except ModelError ModelAnswer × ModelCaches
  | .chatModel role => ((getChatModel host role caches.clients).1.map (.model ⟨·, none⟩),
    { caches with clients := (getChatModel host role caches.clients).2 })
  | .supervisor => ((getSupervisorLlm host caches).1.map .model, (getSupervisorLlm host caches).2)
  | .specialist agent =>
    ((specialistModelGetters host agent caches).1.map .model, (specialistModelGetters host agent caches).2)
  | .llm => ((getLlm host caches).1.map .model, (getLlm host caches).2)
  | .toolEnabledLlm => ((getToolEnabledLlm host caches).1.map .model, (getToolEnabledLlm host caches).2)
  | .rails => ((getNemoRails host caches).1.map .rails, (getNemoRails host caches).2)

/-- The caches of a process after some calls, each of which finds its own environment. -/
def askAll (calls : List (Host × ModelCall)) : ModelCaches :=
  calls.foldl (fun caches asked => (asked.2.ask asked.1 caches).2) .start

/-- A call for the client of a role that gives it tools: the client is found, made or not to be had. -/
def ServedByClient (role : ModelRole) (tools : Option (List String)) (clients : Clients)
    (answer : Except ModelError Llm) (clients' : Clients) : Prop :=
  ∃ client, RecentlyUsed.Served (chatModelBody host) role clients.log client clients'.log ∧
    answer = client.map (Llm.mk · tools)

/-- A call takes the client of its role, with its own tools, or the rails. Nothing else is made on the way. -/
def ModelCall.Served (caches : ModelCaches) (call : ModelCall) (answer : Except ModelError ModelAnswer)
    (caches' : ModelCaches) : Prop :=
  let byClient role tools := caches'.railsLog = caches.railsLog ∧
    ∃ llm, ServedByClient host role tools caches.clients llm caches'.clients ∧ answer = llm.map .model
  match call with
  | .chatModel role => byClient role none
  | .supervisor => byClient .supervisor (some supervisorHandoffTools)
  | .specialist agent => byClient agent.role (some (specialistTools agent))
  | .llm => byClient .orderTracking none
  | .toolEnabledLlm => byClient .orderTracking (some (specialistTools .orderTracking))
  | .rails => caches'.clients.log = caches.clients.log ∧
      ∃ rails, RecentlyUsed.Served (fun _ => nemoRailsBody host) () caches.railsLog rails caches'.railsLog ∧
        answer = rails.map .rails

/-- What an accessor remembers is the client of its role, with its tools. -/
def Clients.Binds (clients : Clients) (accessor : Accessor) (llm : Llm) : Prop :=
  (accessor.role, llm.client) ∈ clients.log ∧ llm.tools = accessor.tools

/-- The caches have what was made, and nothing was made twice. -/
structure ModelCaches.Sound (caches : ModelCaches) : Prop where
  clients : RecentlyUsed.OnceEach caches.clients.cache caches.clients.log
  accessors : ∀ (accessor : Accessor) (llm : Llm), (caches.accessors accessor).get? () = some llm →
    caches.clients.Binds accessor llm
  rails : RecentlyUsed.OnceEach caches.rails caches.railsLog

variable {host}

/-- The cache of the clients has room for every role. -/
theorem card_modelRole_le : Fintype.card ModelRole ≤ lruMaxsize := by decide

/-- The caches without a key have room for their one entry. -/
theorem card_unit_le : Fintype.card Unit ≤ lruMaxsize := by decide

/-- A client that was made stays bound. -/
theorem Clients.Binds.mono {clients clients' : Clients} {accessor : Accessor} {llm : Llm}
    (h : clients.Binds accessor llm) (hkept : clients.log ⊆ clients'.log) : clients'.Binds accessor llm :=
  ⟨hkept h.1, h.2⟩

/-- What an accessor remembers serves it. -/
theorem Clients.Binds.served {clients : Clients} {accessor : Accessor} {llm : Llm}
    (h : clients.Binds accessor llm) :
    ServedByClient host accessor.role accessor.tools clients (.ok llm) clients := by
  refine ⟨.ok llm.client, .found llm.client h.1, ?_⟩
  rw [← h.2]
  rfl

/-- No client is lost on the way. -/
theorem ServedByClient.subset {role : ModelRole} {tools : Option (List String)} {clients clients' : Clients}
    {answer : Except ModelError Llm} (h : ServedByClient host role tools clients answer clients') :
    clients.log ⊆ clients'.log := by
  obtain ⟨client, hserved, _⟩ := h
  exact hserved.subset

/-- `get_chat_model` finds the client of the role, makes the first one, or fails to. -/
theorem getChatModel_served (host : Host) {clients : Clients} (h : RecentlyUsed.OnceEach clients.cache clients.log)
    (role : ModelRole) :
    RecentlyUsed.OnceEach (getChatModel host role clients).2.cache (getChatModel host role clients).2.log ∧
      RecentlyUsed.Served (chatModelBody host) role clients.log (getChatModel host role clients).1
        (getChatModel host role clients).2.log :=
  h.call card_modelRole_le (chatModelBody host) role

namespace ModelCaches

variable {caches : ModelCaches}

/-- A process begins without models. -/
theorem sound_start : start.Sound :=
  ⟨RecentlyUsed.onceEach_empty, fun _ _ h => by simp [start] at h, RecentlyUsed.onceEach_empty⟩

/-- Calls that keep the clients keep what the accessors remember. -/
theorem Sound.clients_later {clients : Clients} (h : caches.Sound)
    (honce : RecentlyUsed.OnceEach clients.cache clients.log) (hkept : caches.clients.log ⊆ clients.log) :
    { caches with clients := clients }.Sound :=
  ⟨honce, fun accessor llm hget => (h.accessors accessor llm hget).mono hkept, h.rails⟩

/-- An accessor is behind two caches: its own, and that of `get_chat_model`. -/
theorem Sound.access (h : caches.Sound) (accessor : Accessor) :
    (Agentops.access host accessor caches).2.Sound ∧
      ServedByClient host accessor.role accessor.tools caches.clients (Agentops.access host accessor caches).1
        (Agentops.access host accessor caches).2.clients := by
  obtain ⟨honce, hserved⟩ := getChatModel_served host h.clients accessor.role
  have hsame : bindTools host accessor () caches.clients =
      ((getChatModel host accessor.role caches.clients).1.map (Llm.mk · accessor.tools),
        (getChatModel host accessor.role caches.clients).2) := rfl
  have hbound (llm : Llm) (hllm : (bindTools host accessor () caches.clients).1 = .ok llm) :
      (bindTools host accessor () caches.clients).2.Binds accessor llm := by
    rw [hsame] at hllm ⊢
    cases hclient : (getChatModel host accessor.role caches.clients).1 with
    | error e => simp [hclient, Except.map] at hllm
    | ok client =>
      rw [hclient] at hllm hserved
      obtain rfl : Llm.mk client accessor.tools = llm := Except.ok.inj hllm
      exact ⟨hserved.mem, rfl⟩
  obtain ⟨⟨honce', hanswer⟩, hentries⟩ := RecentlyUsed.call_rule card_unit_le
    (fun clients _ llm => clients.Binds accessor llm)
    (fun answer clients => RecentlyUsed.OnceEach clients.cache clients.log ∧
      ServedByClient host accessor.role accessor.tools caches.clients answer clients)
    (fun _ llm hget => h.accessors accessor llm hget) (fun llm hbinds => ⟨h.clients, hbinds.served⟩)
    ⟨honce, _, hserved, rfl⟩ hbound (fun _ llm hbinds => hbinds.mono hserved.subset)
  refine ⟨⟨honce', fun other llm hget => ?_, h.rails⟩, hanswer⟩
  change (Function.update caches.accessors accessor _ other).get? () = some llm at hget
  by_cases hother : other = accessor
  · subst hother
    rw [Function.update_self] at hget
    exact hentries () llm hget
  · rw [Function.update_of_ne hother] at hget
    exact (h.accessors other llm hget).mono hanswer.subset

/-- The rails are behind one cache. -/
theorem Sound.getNemoRails (h : caches.Sound) :
    (Agentops.getNemoRails host caches).2.Sound ∧
      RecentlyUsed.Served (fun _ => nemoRailsBody host) () caches.railsLog (Agentops.getNemoRails host caches).1
        (Agentops.getNemoRails host caches).2.railsLog := by
  obtain ⟨honce, hserved⟩ := h.rails.call card_unit_le (fun _ => nemoRailsBody host) ()
  exact ⟨⟨h.clients, h.accessors, honce⟩, hserved⟩

/-- One call, whichever it is. -/
theorem Sound.ask (h : caches.Sound) (call : ModelCall) :
    (call.ask host caches).2.Sound ∧
      call.Served host caches (call.ask host caches).1 (call.ask host caches).2 := by
  cases call with
  | chatModel role =>
    obtain ⟨honce, hserved⟩ := getChatModel_served host h.clients role
    refine ⟨h.clients_later honce hserved.subset, rfl, _, ⟨_, hserved, rfl⟩, ?_⟩
    cases hclient : (getChatModel host role caches.clients).1 <;> simp [ModelCall.ask, hclient, Except.map]
  | supervisor =>
    obtain ⟨hsound, hserved⟩ := h.access .supervisor
    exact ⟨hsound, rfl, _, hserved, rfl⟩
  | specialist agent =>
    obtain ⟨hsound, hserved⟩ := h.access (.specialist agent)
    cases agent <;> exact ⟨hsound, rfl, _, hserved, rfl⟩
  | llm =>
    obtain ⟨hsound, hserved⟩ := h.access .llm
    exact ⟨hsound, rfl, _, hserved, rfl⟩
  | toolEnabledLlm =>
    obtain ⟨hsound, hserved⟩ := h.access (.specialist .orderTracking)
    exact ⟨hsound, rfl, _, hserved, rfl⟩
  | rails =>
    obtain ⟨hsound, hserved⟩ := h.getNemoRails
    exact ⟨hsound, rfl, _, hserved, rfl⟩

/-- Any calls, each with its own environment. -/
theorem sound_askAll (calls : List (Host × ModelCall)) : (askAll calls).Sound := by
  refine List.foldlRecOn calls _ (motive := ModelCaches.Sound) sound_start fun caches hsound asked _ => ?_
  exact (hsound.ask asked.2).1

end ModelCaches

/-- Whatever was asked before, in whatever environments: a process has made at most one client for each role and the
rails at most once. The next call gets the client of its role, or makes the first one with what is in the environment
now, or fails as the body behind the caches fails now. -/
theorem models_made_once (calls : List (Host × ModelCall)) (host : Host) (call : ModelCall) :
    KeyedTable.Unique Prod.fst (askAll calls).clients.log ∧ KeyedTable.Unique Prod.fst (askAll calls).railsLog ∧
      call.Served host (askAll calls) (call.ask host (askAll calls)).1 (call.ask host (askAll calls)).2 := by
  have hsound : (askAll calls).Sound := ModelCaches.sound_askAll calls
  exact ⟨hsound.clients.unique, hsound.rails.unique, (hsound.ask call).2⟩

/-- A role without a model fails, and the same call has one once the environment names it. The supervisor then shares
its client with the summaries. -/
example :
    let host : Host := ⟨fun _ => some "gateway", fun _ => none, fun _ => none⟩
    let bare : Host := ⟨fun _ => none, fun _ => none, fun _ => none⟩
    (askAll [(bare, .supervisor), (host, .supervisor), (bare, .chatModel .supervisor), (host, .llm)]).clients.log.map
      Prod.fst = [.supervisor, .orderTracking] := by
  decide

end Agentops
