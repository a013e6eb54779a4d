import Agentops.Agent.Reasoning
import Agentops.Agent.Termination
import Agentops.Foundations.Following

/-!
# The end of a turn in the answer that is sent

The graph streams the messages of models and of the nodes with a fixed message in chunks, each with the name
of the node that it comes from. `stream_llm_response` puts together what the specialists and the two nodes
with fixed messages say and removes reasoning from the whole. The message with which the turn ends reaches
the customer exactly if no tag of the messages before it hides it, unless they say the same in front of the tag.
-/

namespace Agentops

open Backtracking Blocks LabelledRun

variable {Args : Type}

/-- The names that the nodes are added under. -/
def GraphNode.name : GraphNode → String
  | .supervisor => "supervisor"
  | .agent .orderTracking => "order_tracking_agent"
  | .agent .orderActions => "order_actions_agent"
  | .agent .infrastructure => "infrastructure_agent"
  | .tools .orderTracking => "order_tracking_tools"
  | .tools .orderActions => "order_actions_tools"
  | .tools .infrastructure => "infrastructure_tools"
  | .limit => "limit"
  | .invalid => "invalid"

/-- The content of the AI message that a node brings. -/
def spokenText : GraphNode → NodeOutcome Args → Option String
  | _, .supervisor response => some response.content
  | _, .specialist _ response => some response.content
  | .limit, .reply => some iterationLimitMessage
  | .invalid, .reply => some invalidToolCallMessage
  | _, _ => none

/-- The text in an event, if it is a part of an AI message. -/
def spokenPart : GraphEvent → String
  | .messages ⟨true, .text content⟩ _ => content
  | _ => ""

/-- The events that the graph yields while a node runs: whatever they are, the parts of AI messages among them
name the node and make up its message. -/
structure StreamedBy (n : GraphNode) (text : Option String) (events : List GraphEvent) : Prop where
  names : ∀ chunk metadata, .messages chunk metadata ∈ events → chunk.isAIMessage = true →
    metadata = some ⟨some n.name⟩
  parts : String.join (events.map spokenPart) = text.getD ""

/-- A run of the graph with the events that it yields. -/
inductive TurnStreams (maxIterations : ℕ) :
    TurnPosition Args → List (NodeOutcome Args) → List GraphEvent → TurnPosition Args → Prop
  | rest (p : TurnPosition Args) : TurnStreams maxIterations p [] [] p
  | superstep {p mid q : TurnPosition Args} {o : NodeOutcome Args} {outcomes : List (NodeOutcome Args)}
      {events later : List GraphEvent} (n : GraphNode) (hplace : p.place = .node n)
      (hstep : turnStep maxIterations p o = some mid) (hevents : StreamedBy n (spokenText n o) events)
      (hlater : TurnStreams maxIterations mid outcomes later q) :
      TurnStreams maxIterations p (o :: outcomes) (events ++ later) q

/-- The message that a superstep brings for the customer. -/
def answerText (p : TurnPosition Args) (o : NodeOutcome Args) : Option String :=
  match p.place with
  | .node n => if n.name ∈ userResponseGraphNodes then spokenText n o else none
  | _ => none

/-- The messages of a run for the customer. -/
def answerTexts (maxIterations : ℕ) : TurnPosition Args → List (NodeOutcome Args) → List String
  | _, [] => []
  | p, o :: outcomes =>
    (answerText p o).toList ++ ((turnStep maxIterations p o).map (answerTexts maxIterations · outcomes)).getD []

section Streams

variable {maxIterations : ℕ} {p q : TurnPosition Args} {outcomes : List (NodeOutcome Args)}
  {events : List GraphEvent}

/-- The run without its events. -/
theorem TurnStreams.runFrom (h : TurnStreams maxIterations p outcomes events q) :
    runFrom (turnStep maxIterations) p outcomes = some q := by
  induction h with
  | rest p => rfl
  | superstep n hplace hstep hevents hlater ih =>
    exact (runFrom_cons_eq_some _).mpr ⟨_, hstep, ih⟩

/-- Of the events of a node the answer takes the whole message, or nothing. -/
theorem StreamedBy.join_responseParts {n : GraphNode} {text : Option String} (h : StreamedBy n text events) :
    String.join (events.filterMap responsePart) =
      if n.name ∈ userResponseGraphNodes then text.getD "" else "" := by
  have hname : n.name ≠ "" := by rcases n with _ | (_ | _ | _) | (_ | _ | _) | _ | _ <;> decide
  have hparts : ∀ events : List GraphEvent, (∀ chunk metadata, .messages chunk metadata ∈ events →
      chunk.isAIMessage = true → metadata = some ⟨some n.name⟩) →
      String.join (events.filterMap responsePart) =
        if n.name ∈ userResponseGraphNodes then String.join (events.map spokenPart) else "" := by
    intro events
    induction events with
    | nil => intro _; simp
    | cons event events ih =>
      intro hnames
      have hrest := ih fun chunk metadata hmem => hnames chunk metadata (List.mem_cons_of_mem _ hmem)
      have hhead : (responsePart event).getD "" =
          if n.name ∈ userResponseGraphNodes then spokenPart event else "" := by
        cases event with
        | other => simp [responsePart, spokenPart]
        | messages chunk metadata =>
          obtain ⟨isAIMessage, content⟩ := chunk
          cases isAIMessage with
          | false => simp [responsePart, spokenPart]
          | true =>
            obtain rfl := hnames _ _ List.mem_cons_self rfl
            cases content with
            | blocks => simp [responsePart, spokenPart]
            | text content =>
              by_cases hmem : n.name ∈ userResponseGraphNodes
              · by_cases hempty : content = "" <;> simp [responsePart, spokenPart, hmem, hempty]
              · simp [responsePart, hmem, hname]
      have hcons : String.join ((event :: events).filterMap responsePart) =
          (responsePart event).getD "" ++ String.join (events.filterMap responsePart) := by
        cases hpart : responsePart event <;> simp [hpart]
      rw [hcons, hhead, hrest, List.map_cons, String.join_cons]
      split_ifs <;> simp
  rw [hparts events h.names, h.parts]

/-- The answer is made up of the messages for the customer. -/
theorem TurnStreams.join_responseParts (h : TurnStreams maxIterations p outcomes events q) :
    String.join (events.filterMap responsePart) = String.join (answerTexts maxIterations p outcomes) := by
  induction h with
  | rest p => rfl
  | @superstep p mid q o outcomes events later n hplace hstep hevents hlater ih =>
    have hanswer : (answerText p o).toList =
        if n.name ∈ userResponseGraphNodes then (spokenText n o).toList else [] := by
      rw [answerText, hplace]
      simp only
      split_ifs <;> rfl
    rw [List.filterMap_append, String.join_append, hevents.join_responseParts, ih, answerTexts, hstep,
      String.join_append, hanswer]
    simp only [Option.map_some, Option.getD_some]
    congr 1
    split_ifs
    · cases spokenText n o <;> simp
    · rfl

/-- The messages of a run that goes on. -/
theorem answerTexts_append {mid : TurnPosition Args} {outcomes later : List (NodeOutcome Args)}
    (hrun : LabelledRun.runFrom (turnStep maxIterations) p outcomes = some mid) :
    answerTexts maxIterations p (outcomes ++ later) =
      answerTexts maxIterations p outcomes ++ answerTexts maxIterations mid later := by
  induction outcomes generalizing p with
  | nil =>
    obtain rfl := Option.some.inj hrun
    rfl
  | cons o outcomes ih =>
    obtain ⟨next, hstep, hrest⟩ := (runFrom_cons_eq_some _).mp hrun
    simp [answerTexts, hstep, ih hrest]

/-- The last message of a turn that comes to its end is the one that ends it. -/
theorem exists_answerTexts_eq (hlimit : 1 ≤ maxIterations) {checkpoint : AgentState Args}
    {userMessage userId : String}
    (hrun : LabelledRun.runFrom (turnStep maxIterations) (turnStart checkpoint userMessage userId) outcomes = some q)
    (hfinished : q.place = .finished) :
    ∃ earlier message, answerTexts maxIterations (turnStart checkpoint userMessage userId) outcomes =
        earlier ++ [message.content] ∧
      lastBody q.state.messages = some (.ai message) ∧ FinalAnswer outcomes message := by
  rcases List.eq_nil_or_concat' outcomes with rfl | ⟨before, o, rfl⟩
  · obtain rfl := Option.some.inj hrun
    exact absurd hfinished (by simp [turnStart, StateGraph.start])
  · obtain ⟨p, hbefore, hlast⟩ := (runFrom_append_eq_some _).mp hrun
    obtain ⟨q', hstep, hq⟩ := (runFrom_cons_eq_some _).mp hlast
    obtain rfl : q' = q := by simpa using hq
    have hinv := (turnProgress_of_run maxIterations hlimit checkpoint userMessage userId before hbefore).inv
    have htexts : ∀ content, answerText p o = some content →
        answerTexts maxIterations (turnStart checkpoint userMessage userId) (before ++ [o]) =
          answerTexts maxIterations (turnStart checkpoint userMessage userId) before ++ [content] := by
      intro content hcontent
      rw [answerTexts_append hbefore, answerTexts, hstep, hcontent]
      simp [answerTexts]
    cases turnStep_takes hstep with
    | answered name id response route hplace hroute =>
      cases route with
      | done =>
        obtain ⟨place, state, supersteps⟩ := p
        obtain rfl : place = _ := hplace
        obtain ⟨message, hlast, hvalid, hcalls⟩ := routeSpecialistOutput_eq_done.mp hroute
        obtain rfl := answer_eq_of_route hinv.unanswered hroute hlast
        refine ⟨_, message, htexts _ ?_, hlast, .specialist before id message rfl hcalls hvalid⟩
        cases name <;> rfl
      | tools => exact absurd hfinished (by simp [SpecialistRoute.place])
      | limit => exact absurd hfinished (by simp [SpecialistRoute.place])
      | invalid => exact absurd hfinished (by simp [SpecialistRoute.place])
    | limited hplace =>
      refine ⟨_, { content := iterationLimitMessage }, htexts _ ?_, lastBody_addMessage_none _ _, .limit⟩
      rw [answerText, hplace]
      rfl
    | rejected hplace =>
      refine ⟨_, { content := invalidToolCallMessage }, htexts _ ?_, lastBody_addMessage_none _ _, .invalid⟩
      rw [answerText, hplace]
      rfl
    | raised n o hplace hraise => exact absurd hfinished (by simp)
    | delegated => exact absurd hfinished (by simp)
    | undelegated => exact absurd hfinished (by simp)
    | executed => exact absurd hfinished (by simp)
    | outOfSteps => exact absurd hfinished (by simp)

end Streams

section Delivery

/-- A tag of the earlier messages hides the last one: they leave it open, or pieces of them outside of blocks form it
with what the last message adds to them. What is left are the pieces in front of the tag. -/
inductive Hides (earlier : Layout thinkTags) (last : List Char) : List Char → Prop
  | unclosed (e : OpenEnd thinkTags) (hend : earlier.openEnd = some e)
      (hclosing : contains thinkTags.closing (e.inside ++ last) = false)
      (hopening : contains thinkTags.opening earlier.outside = false) : Hides earlier last earlier.outside
  | formed (front behind added : List Char) (houtside : earlier.outside = front ++ behind) (hbehind : behind ≠ [])
      (hadds : earlier.Adds last added) (htag : (dropWord thinkTags.opening (behind ++ added)).isSome)
      (hclear : contains thinkTags.opening front = false) : Hides earlier last front

/-- The earlier messages of a turn let its last message through: they leave no tag open, and their pieces outside of
blocks form no opening tag together with it. Otherwise a tag of theirs hides it, and the same words have been said
right in front of the tag; or it completes a closing tag that they begin, and the letters that complete the tag stand
in front of the block as well. -/
inductive EndKept (earlier : Layout thinkTags) (last : List Char) : Prop
  | clear (hend : earlier.openEnd = none)
      (hclear : contains thinkTags.opening (earlier.outside ++ last) = false)
  | said (front words blanks : List Char) (hhides : Hides earlier last front)
      (hsaid : front = words ++ (strip last ++ blanks)) (hblanks : ∀ c ∈ blanks, isSpace c = true)
  | completed (e : OpenEnd thinkTags) (inside v w rest words blanks : List Char) (hend : earlier.openEnd = some e)
      (hinside : e.inside = inside ++ v) (hlast : last = w ++ rest)
      (hclosing : dropWord thinkTags.closing (v ++ w) = some [])
      (hclear : contains thinkTags.opening (earlier.outside ++ rest) = false)
      (hletters : earlier.outside = words ++ (w ++ blanks)) (hblanks : ∀ c ∈ blanks, isSpace c = true)
      (hrest : blanks = [] ∨ ∀ c ∈ rest, isSpace c = true)

section Kept

variable {L : Layout thinkTags} {earlier last : String} {front added : List Char}

/-- What is left of the earlier messages and a last one without tags. -/
theorem toList_stripReasoning_append (hL : L.text = earlier.toList) (hopening : hasTag "<think>" last = false)
    (hclosing : hasTag "</think>" last = false) (hadds : L.Adds last.toList added) :
    (stripReasoning (earlier ++ last)).toList = strip (thinkTags.cut (L.outside ++ added)) := by
  rw [hasTag_eq_contains] at hopening hclosing
  rw [toList_stripReasoning_eq, String.toList_append, ← hL, Layout.cut_remove_append hadds hopening hclosing]

/-- What is left when a tag of the earlier messages hides the last one. -/
theorem Hides.toList_stripReasoning (h : Hides L last.toList front) (hL : L.text = earlier.toList)
    (hopening : hasTag "<think>" last = false) (hclosing : hasTag "</think>" last = false) :
    (stripReasoning (earlier ++ last)).toList = strip front := by
  cases h with
  | unclosed e hend hinside hclear =>
    rw [toList_stripReasoning_append hL hopening hclosing (.nothing e hend hinside), List.append_nil,
      TagPair.cut_of_clear hclear]
  | formed _ behind added houtside hbehind hadds htag hclear =>
    obtain ⟨after, hafter⟩ := Option.isSome_iff_exists.mp htag
    obtain ⟨u, hsplit, hu⟩ := exists_of_dropWord hafter
    rw [toList_stripReasoning_append hL hopening hclosing hadds, houtside, List.append_assoc, hsplit,
      TagPair.cut_append_of_clear hclear hu]

/-- An opening tag that pieces of the earlier messages form hides the last one, which has none. -/
theorem exists_hides (hadds : L.Adds last.toList added) (hopening : hasTag "<think>" last = false)
    (hformed : contains thinkTags.opening (L.outside ++ added) = true) : ∃ front, Hides L last.toList front := by
  obtain ⟨front, u, y, hsplit, hu, hfront⟩ := TagPair.exists_first_of_contains thinkTags.isTag_opening hformed
  have hadded := hadds.contains_eq_false thinkTags.isTag_opening ((hasTag_eq_contains _ _).symm.trans hopening)
  obtain ⟨behind, houtside, htag⟩ : ∃ behind, L.outside = front ++ behind ∧ u ++ y = behind ++ added := by
    rcases List.append_eq_append_iff.mp hsplit with ⟨x, -, hx⟩ | hshorter
    · rw [contains_iff.mpr ⟨x, u, y, hx, hu⟩] at hadded
      cases hadded
    · exact hshorter
  have hbehind : behind ≠ [] := by
    rintro rfl
    have hfirst : added = [] ++ (u ++ y) := htag.symm
    rw [contains_iff.mpr ⟨[], u, y, hfirst, hu⟩] at hadded
    cases hadded
  refine ⟨front, .formed front behind added houtside hbehind hadds ?_ hfront⟩
  rw [← htag, dropWord_append hu]
  rfl

/-- The rest of a last message that completes a closing tag is the end of what is left exactly if the letters that
complete the tag stand in front of the block. -/
theorem strip_suffix_completed_iff {e : OpenEnd thinkTags} {inside v w rest text : List Char}
    (hinside : e.inside = inside ++ v) (hclosed : dropWord thinkTags.closing (v ++ w) = some []) :
    strip (w ++ rest) <:+ strip (text ++ rest) ↔ ∃ words blanks, text = words ++ (w ++ blanks) ∧
      (∀ c ∈ blanks, isSpace c = true) ∧ (blanks = [] ∨ ∀ c ∈ rest, isSpace c = true) := by
  have hw : w ≠ [] := by
    rintro rfl
    have hclear := e.insideClear
    rw [contains_iff.mpr ⟨inside, v, [], by simpa using hinside, by simpa using hclosed⟩] at hclear
    cases hclear
  exact Trimming.trim_suffix_append_iff hw fun c hc =>
    not_blank_of_spelled thinkTags.isTag_closing hclosed c (List.mem_append_right v hc)

/-- A last message without tags is the end of what is left exactly if the earlier ones let it through. -/
theorem endKept_iff (hL : L.text = earlier.toList) (hblank : strip last.toList ≠ [])
    (hopening : hasTag "<think>" last = false) (hclosing : hasTag "</think>" last = false) :
    strip last.toList <:+ (stripReasoning (earlier ++ last)).toList ↔ EndKept L last.toList := by
  constructor
  · intro hsuffix
    have hsaid : ∀ {front}, Hides L last.toList front → EndKept L last.toList := by
      intro front hhides
      rw [hhides.toList_stripReasoning hL hopening hclosing] at hsuffix
      obtain ⟨words, blanks, hwords, hblanks⟩ := (Trimming.trim_suffix_trim_iff hblank).mp hsuffix
      exact .said front words blanks hhides hwords hblanks
    obtain ⟨added, hadds⟩ := L.exists_adds ((hasTag_eq_contains _ _).symm.trans hclosing)
    by_cases hformed : contains thinkTags.opening (L.outside ++ added) = true
    · obtain ⟨front, hhides⟩ := exists_hides hadds hopening hformed
      exact hsaid hhides
    · rw [Bool.not_eq_true] at hformed
      cases hadds with
      | whole hend => exact .clear hend hformed
      | nothing e hend hclear => exact hsaid (.unclosed e hend hclear (by rwa [List.append_nil] at hformed))
      | rest e inside v w _ hend hinside hsplit hclosed =>
        rw [toList_stripReasoning_append hL hopening hclosing (.rest e inside v w added hend hinside hsplit hclosed),
          TagPair.cut_of_clear hformed, hsplit] at hsuffix
        obtain ⟨words, blanks, hletters, hblanks, hrest⟩ := (strip_suffix_completed_iff hinside hclosed).mp hsuffix
        exact .completed e inside v w added words blanks hend hinside hsplit hclosed hformed hletters hblanks hrest
  · intro hkept
    cases hkept with
    | clear hend hclear =>
      rw [toList_stripReasoning_append hL hopening hclosing (.whole hend), TagPair.cut_of_clear hclear]
      exact Trimming.trim_suffix_trim_append hblank L.outside
    | said front words blanks hhides hsaid hblanks =>
      rw [hhides.toList_stripReasoning hL hopening hclosing]
      exact (Trimming.trim_suffix_trim_iff hblank).mpr ⟨words, blanks, hsaid, hblanks⟩
    | completed e inside v w rest words blanks hend hinside hsplit hclosed hclear hletters hblanks hrest =>
      rw [toList_stripReasoning_append hL hopening hclosing (.rest e inside v w rest hend hinside hsplit hclosed),
        TagPair.cut_of_clear hclear, hsplit]
      exact (strip_suffix_completed_iff hinside hclosed).mpr ⟨words, blanks, hletters, hblanks, hrest⟩

end Kept

variable {isAlnum : Char → Bool} {run : StreamRun} {checkpoint : AgentState Args} {userMessage userId : String}
  {outcomes : List (NodeOutcome Args)} {q : TurnPosition Args}

/-- Both checks on the answer let it through. -/
def OutputPasses (isAlnum : Char → Bool) (run : StreamRun) : Prop :=
  ∀ text, run.responseText = .ok text →
    validateOutput isAlnum text = .ok () ∧ (run.checkNemoOutput text).passes = .ok true

/-- An answer that passes its checks is sent as it is. -/
theorem deliveredText_of_outputPasses (hgraph : run.graphException = none) (houtput : OutputPasses isAlnum run) :
    deliveredText isAlnum run = .ok (stripReasoning (String.join (run.events.filterMap responsePart))) := by
  have hresponse : run.responseText = .ok (stripReasoning (String.join (run.events.filterMap responsePart))) := by
    simp [StreamRun.responseText, hgraph]
  obtain ⟨hvalid, hnemo⟩ := houtput _ hresponse
  simp only [deliveredText, hresponse, validatedText, hvalid, nemoCheckedText, hnemo, bind, Except.bind]
  split_ifs <;> rfl

/-- A turn that comes to its end sends its last message, if that is a text without think tags that is not blank
and the checks pass, exactly if the messages before it let it through. -/
theorem turn_end_delivered_iff
    (hstreams : TurnStreams maxAgentIterations (turnStart checkpoint userMessage userId) outcomes run.events q)
    (hfinished : q.place = .finished) (hgraph : run.graphException = none)
    (hinput : inputPasses isAlnum userMessage run = .ok true) (houtput : OutputPasses isAlnum run) :
    ∃ earlier message,
      answerTexts maxAgentIterations (turnStart checkpoint userMessage userId) outcomes =
        earlier ++ [message.content] ∧
      lastBody q.state.messages = some (.ai message) ∧ FinalAnswer outcomes message ∧
      (strip message.content.toList ≠ [] → hasTag "<think>" message.content = false →
        hasTag "</think>" message.content = false →
        ((∃ content, (streamLlmResponse isAlnum userMessage run).frames = [.message content, .done] ∧
            strip message.content.toList <:+ content.toList) ↔
          ∃ L : Layout thinkTags, L.text = (String.join earlier).toList ∧ EndKept L message.content.toList)) := by
  obtain ⟨earlier, message, htexts, hlast, hanswer⟩ :=
    exists_answerTexts_eq (by decide) hstreams.runFrom hfinished
  refine ⟨earlier, message, htexts, hlast, hanswer, fun hblank hopening hclosing => ?_⟩
  have hdelivered := deliveredText_of_outputPasses hgraph houtput
  rw [hstreams.join_responseParts, htexts, String.join_append] at hdelivered
  have hsingle : String.join [message.content] = message.content := by simp
  rw [hsingle] at hdelivered
  have hsent : (∃ content, (streamLlmResponse isAlnum userMessage run).frames = [.message content, .done] ∧
      strip message.content.toList <:+ content.toList) ↔
        strip message.content.toList <:+ (stripReasoning (String.join earlier ++ message.content)).toList := by
    have hframes : (streamLlmResponse isAlnum userMessage run).frames =
        (if stripReasoning (String.join earlier ++ message.content) = "" then []
          else [.message (stripReasoning (String.join earlier ++ message.content))]) ++ [.done] := by
      simp [streamLlmResponse, hinput, hdelivered]
    rw [hframes]
    constructor
    · rintro ⟨content, hcontent, hsuffix⟩
      split_ifs at hcontent with hempty
      · simp at hcontent
      · obtain rfl : _ = content := by simpa using hcontent
        exact hsuffix
    · intro hsuffix
      refine ⟨_, ?_, hsuffix⟩
      rw [if_neg]
      · rfl
      · intro hempty
        rw [hempty] at hsuffix
        exact hblank (List.eq_nil_of_suffix_nil hsuffix)
  rw [hsent]
  constructor
  · intro hsuffix
    obtain ⟨L, hL⟩ := Layout.exists_layout thinkTags (String.join earlier).toList
    exact ⟨L, hL, (endKept_iff hL hblank hopening hclosing).mp hsuffix⟩
  · rintro ⟨L, hL, hkept⟩
    exact (endKept_iff hL hblank hopening hclosing).mpr hkept

/-- The events of a run in which every message is one chunk. -/
def wholeMessages (maxIterations : ℕ) : TurnPosition Args → List (NodeOutcome Args) → List GraphEvent
  | _, [] => []
  | p, o :: outcomes =>
    (match p.place with
      | .node n => ((spokenText n o).map fun text => GraphEvent.messages ⟨true, .text text⟩ (some ⟨some n.name⟩)).toList
      | _ => []) ++ ((turnStep maxIterations p o).map (wholeMessages maxIterations · outcomes)).getD []

/-- A run may yield every message as one chunk. -/
theorem turnStreams_wholeMessages {maxIterations : ℕ} {p : TurnPosition Args}
    (hrun : LabelledRun.runFrom (turnStep maxIterations) p outcomes = some q) :
    TurnStreams maxIterations p outcomes (wholeMessages maxIterations p outcomes) q := by
  induction outcomes generalizing p with
  | nil =>
    obtain rfl := Option.some.inj hrun
    exact .rest p
  | cons o outcomes ih =>
    obtain ⟨mid, hstep, hrest⟩ := (runFrom_cons_eq_some _).mp hrun
    obtain ⟨n, hplace⟩ : ∃ n, p.place = .node n := by
      cases hplace : p.place with
      | node n => exact ⟨n, rfl⟩
      | finished => simp [turnStep, StateGraph.step, hplace] at hstep
      | raised => simp [turnStep, StateGraph.step, hplace] at hstep
      | outOfSteps => simp [turnStep, StateGraph.step, hplace] at hstep
    simp only [wholeMessages, hplace, hstep, Option.map_some, Option.getD_some]
    refine .superstep n hplace hstep ⟨?_, ?_⟩ (ih hrest)
    · intro chunk metadata hmem _
      cases htext : spokenText n o with
      | none => simp [htext] at hmem
      | some text =>
        obtain ⟨-, rfl⟩ : chunk = _ ∧ metadata = _ := by simpa [htext] using hmem
        rfl
    · cases spokenText n o <;> simp [spokenPart]

/-- A turn whose specialist says something beside a call, and then gives its answer. -/
def answerAfter (beside answer : String) : List (NodeOutcome String) :=
  [.supervisor { content := "", toolCalls := [⟨"delegate_to_order_tracking", "", some "call-0"⟩] },
    .specialist (some 11) { content := beside, toolCalls := [⟨"get_order_status", "ORD-1001", some "call-1"⟩] },
    .tools [("shipped", false)],
    .specialist (some 21) { content := answer }]

def newTurn : TurnPosition String := turnStart ⟨[], none, none, none⟩ "Where is ORD-1001?" "CUS-001"

/-- The surroundings of a call that runs the turn, with the NeMo checks switched off. -/
def runOfTurn (outcomes : List (NodeOutcome String)) : StreamRun where
  checkNemoInput _ := .disabled
  events := wholeMessages maxAgentIterations newTurn outcomes
  graphException := none
  checkNemoOutput _ := .disabled

/-- The checks let through what is left of a run's text, if they let it through. -/
theorem outputPasses_of_validateOutput {outcomes : List (NodeOutcome String)} {text : String}
    (htext : stripReasoning (String.join ((runOfTurn outcomes).events.filterMap responsePart)) = text)
    (hvalid : validateOutput Char.isAlphanum text = .ok ()) : OutputPasses Char.isAlphanum (runOfTurn outcomes) := by
  intro response hresponse
  obtain rfl : stripReasoning (String.join ((runOfTurn outcomes).events.filterMap responsePart)) = response :=
    Except.ok.inj hresponse
  exact ⟨htext ▸ hvalid, rfl⟩

/-- A text beside a call leaves no tag open, and the answer is sent behind it. -/
theorem turn_end_delivered_after_text :
    ∃ content, (streamLlmResponse Char.isAlphanum "Where is ORD-1001?"
        (runOfTurn (answerAfter "<think>Tracking.</think>One moment. " "It is shipped."))).frames =
          [.message content, .done] ∧
      strip "It is shipped.".toList <:+ content.toList := by
  let outcomes := answerAfter "<think>Tracking.</think>One moment. " "It is shipped."
  have hcomputed : (LabelledRun.runFrom (turnStep maxAgentIterations) newTurn outcomes).map
      StateGraph.Position.place = some .finished := by decide +kernel
  obtain ⟨q, hrun, hfinished⟩ := Option.map_eq_some_iff.mp hcomputed
  have houtput : OutputPasses Char.isAlphanum (runOfTurn outcomes) :=
    @outputPasses_of_validateOutput outcomes "One moment. It is shipped." (by decide +kernel) (by decide +kernel)
  have hstreams : ∀ {q}, LabelledRun.runFrom (turnStep maxAgentIterations) newTurn outcomes = some q →
      TurnStreams maxAgentIterations newTurn outcomes (runOfTurn outcomes).events q := turnStreams_wholeMessages
  obtain ⟨earlier, message, htexts, -, -, hdelivered⟩ :=
    turn_end_delivered_iff (hstreams hrun) hfinished rfl (by decide +kernel) houtput
  have hanswers : answerTexts maxAgentIterations newTurn outcomes =
      ["<think>Tracking.</think>One moment. "] ++ ["It is shipped."] := by decide +kernel
  obtain ⟨rfl, hcontent⟩ := List.append_inj' (htexts.symm.trans hanswers) rfl
  have hmessage : message.content = "It is shipped." := by simpa using hcontent
  rw [hmessage] at hdelivered
  refine (hdelivered (by decide +kernel) (by decide +kernel) (by decide +kernel)).mpr ?_
  let block : Stretch thinkTags := ⟨[], "<think>".toList, "Tracking.".toList, "</think>".toList, by decide +kernel,
    by decide +kernel, by decide +kernel, by decide +kernel⟩
  let before : Layout thinkTags := ⟨[block], "One moment. ".toList, none, by decide +kernel⟩
  exact ⟨before, by decide +kernel, .clear rfl (by decide +kernel)⟩

/-- A text beside a call leaves a tag open, and nothing of the answer is sent. -/
theorem turn_end_lost :
    ∃ q : TurnPosition String,
      TurnStreams maxAgentIterations newTurn (answerAfter "<think>Tracking." "It is shipped.")
        (runOfTurn (answerAfter "<think>Tracking." "It is shipped.")).events q ∧
      q.place = .finished ∧ lastBody q.state.messages = some (.ai { content := "It is shipped." }) ∧
      inputPasses Char.isAlphanum "Where is ORD-1001?"
        (runOfTurn (answerAfter "<think>Tracking." "It is shipped.")) = .ok true ∧
      OutputPasses Char.isAlphanum (runOfTurn (answerAfter "<think>Tracking." "It is shipped.")) ∧
      (streamLlmResponse Char.isAlphanum "Where is ORD-1001?"
        (runOfTurn (answerAfter "<think>Tracking." "It is shipped."))).frames = [.done] := by
  let outcomes := answerAfter "<think>Tracking." "It is shipped."
  have hcomputed : (LabelledRun.runFrom (turnStep maxAgentIterations) newTurn outcomes).map
      (fun q => (q.place, lastBody q.state.messages)) =
        some (.finished, some (.ai { content := "It is shipped." })) := by decide +kernel
  obtain ⟨q, hrun, hend⟩ := Option.map_eq_some_iff.mp hcomputed
  obtain ⟨hfinished, hlast⟩ := Prod.mk.inj hend
  have houtput : OutputPasses Char.isAlphanum (runOfTurn outcomes) :=
    @outputPasses_of_validateOutput outcomes "" (by decide +kernel) (by decide +kernel)
  exact ⟨q, turnStreams_wholeMessages hrun, hfinished, hlast, by decide +kernel, houtput, by decide +kernel⟩

end Delivery

end Agentops
