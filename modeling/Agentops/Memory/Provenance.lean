import Agentops.Foundations.LabelledRun
import Agentops.Memory.Conversations

/-!
# Where the messages of a summary come from

Every message of a checkpoint was added by a turn on the conversation that the checkpoint's key is made
of, and so were the messages that a call of `summarise_and_store` has read and those that a stored
summary was computed from. When no customer has a colon the key has one customer, so that nothing that a
customer calls a thread leads to another customer's conversation.
-/

namespace Agentops

variable {Args Vector : Type}

/-- The message was added by one of the first commits, by a turn on a conversation with this key. -/
structure Entry.Of (conversations : List (String × String)) (key : String) (commits : ℕ) (m : Entry Args) :
    Prop where
  turn : (m.customerId, m.threadId) ∈ conversations
  key : conversationKey m.customerId m.threadId = key
  number : m.number < commits

/-- A message keeps its origin while conversations and commits are added. -/
theorem Entry.Of.mono {conversations conversations' : List (String × String)} {key : String}
    {commits commits' : ℕ} {m : Entry Args} (h : m.Of conversations key commits)
    (hsubset : conversations ⊆ conversations') (hle : commits ≤ commits') :
    m.Of conversations' key commits' :=
  ⟨hsubset h.turn, h.key, Nat.lt_of_lt_of_le h.number hle⟩

/-- The later state of a call has read the same messages of the same conversation, and is the same call
once it is over. -/
structure SummaryAttempt.Later (a a' : SummaryAttempt Args) : Prop where
  customerId : a'.customerId = a.customerId
  threadId : a'.threadId = a.threadId
  found : a'.found = a.found
  readAt : a'.readAt = a.readAt
  stillOver : a.stage.isOver = true → a'.stage = a.stage

/-- An attempt may stay as it is. -/
theorem SummaryAttempt.Later.refl (a : SummaryAttempt Args) : a.Later a := ⟨rfl, rfl, rfl, rfl, fun _ => rfl⟩

/-- It keeps its conversation. -/
theorem SummaryAttempt.Later.key {a a' : SummaryAttempt Args} (h : a.Later a') : a'.key = a.key := by
  unfold SummaryAttempt.key
  rw [h.customerId, h.threadId]

namespace MemorySystem

variable {required : Bool} {idle : ℕ} {s s' : MemorySystem Args Vector}

/-- The key is that of a conversation on which a turn has been run. -/
def Marked (s : MemorySystem Args Vector) (key : String) : Prop :=
  ∃ c ∈ s.conversations, key = conversationKey c.1 c.2

/-- Every message is one of its conversation's, a call that found nothing has found no text, and sweeps
deal with the markers of turns, waiting for a call on the entry that they have taken up. -/
structure Sound (s : MemorySystem Args Vector) : Prop where
  threads : ∀ c ∈ s.conversations, isRequestId c.2 = true
  checkpoints : ∀ key, ∀ m ∈ s.checkpoints key, m.Of s.conversations key s.commits
  turns : ∀ turn ∈ s.turns, ∀ messages, turn.state = some messages →
    ∀ m ∈ messages, m.Of s.conversations turn.key s.commits
  read : ∀ a ∈ s.attempts, a.readAt ≤ s.commits
  found : ∀ a ∈ s.attempts, ∀ m ∈ a.found, m.Of s.conversations a.key a.readAt
  nothing : ∀ a ∈ s.attempts, a.stage = .emptyConversation → ∀ m ∈ a.found, m.isText = false
  activity : ∀ key ∈ s.activity.members, s.Marked key
  pending : ∀ sweep ∈ s.sweeps, ∀ key ∈ sweep.stage.pending, s.Marked key
  sweeps : ∀ sweep ∈ s.sweeps, ∀ k entry rest, sweep.stage = .summarising k entry rest →
    ∃ a, s.attempts[k]? = some a ∧ (a.customerId, a.threadId) = partitionMember entry ∧ a.key = entry
  summaries : ∀ row ∈ s.summaries, row.messageCount = (transcript row.found).2 ∧
    ∀ m ∈ row.found, m.Of s.conversations (conversationKey row.customerId row.threadId) row.readAt

/-- At first there is nothing. -/
theorem sound_initial : (initial : MemorySystem Args Vector).Sound := by
  constructor <;> simp [initial, conversations, SortedSet.members]

section Attempts

variable {k j : ℕ} {a attempt : SummaryAttempt Args} {stage : AttemptStage}

/-- A call that goes on stays the same call otherwise. -/
theorem later_advance (stage : AttemptStage) (hattempt : s.attempts[k]? = some attempt)
    (hover : attempt.stage.isOver = false) (ha : s.attempts[j]? = some a) :
    ∃ a', (s.advance k attempt stage).attempts[j]? = some a' ∧ a.Later a' := by
  by_cases hkj : k = j
  · subst hkj
    obtain rfl := Option.some.inj (hattempt.symm.trans ha)
    refine ⟨_, List.getElem?_set_self (List.getElem?_eq_some_iff.mp ha).1, rfl, rfl, rfl, rfl, ?_⟩
    simp [hover]
  · exact ⟨a, by simpa [advance, List.getElem?_set_ne hkj] using ha, .refl a⟩

/-- So is every call that was there when another one is begun. -/
theorem later_summarise (customerId threadId : String) (readable : Bool) (ha : s.attempts[j]? = some a) :
    ∃ a', (s.summarise customerId threadId readable).attempts[j]? = some a' ∧ a.Later a' := by
  refine ⟨a, ?_, .refl a⟩
  simpa [summarise, List.getElem?_append_left (List.getElem?_eq_some_iff.mp ha).1] using ha

/-- Every event leaves every call the call that it was. -/
theorem later_of_step {e : MemoryEvent Args Vector} (hstep : memoryStep required idle s e = some s')
    (ha : s.attempts[j]? = some a) : ∃ a', s'.attempts[j]? = some a' ∧ a.Later a' := by
  cases memoryStep_changes hstep with
  | ended authorization verified threadId readable customerId _ => exact later_summarise _ _ _ ha
  | taken i readable sweep entry rest _ _ => exact later_summarise _ _ _ ha
  | replied k content attempt hattempt hstage =>
    exact later_advance _ hattempt (by simp [hstage, AttemptStage.isOver]) ha
  | stored k vector attempt summary hattempt hstage =>
    exact later_advance .stored hattempt (by simp [hstage, AttemptStage.isOver]) ha
  | failed k attempt hattempt hover => exact later_advance _ hattempt hover ha
  | abandoned i sweep k attempt _ hattempt hover =>
    exact later_advance .cancelled hattempt hover ha
  | _ => exact ⟨a, ha, .refl a⟩

end Attempts

section Steps

/-- A turn that begins is one more conversation, or one that there is. -/
theorem Sound.touch (h : s.Sound) (userId : String) (request : AgentStreamRequest) :
    Sound { s.touch userId request.threadId with
      turns := s.turns ++ [⟨userId, request.threadId, request.message, none⟩] } := by
  have hsubset : s.conversations ⊆ s.conversations ++ [(userId, request.threadId)] :=
    List.subset_append_left _ _
  have hconversations : MemorySystem.conversations { s.touch userId request.threadId with
      turns := s.turns ++ [⟨userId, request.threadId, request.message, none⟩] } =
      s.conversations ++ [(userId, request.threadId)] := by simp [conversations]
  have hmarked : ∀ key, s.Marked key → Marked { s.touch userId request.threadId with
      turns := s.turns ++ [⟨userId, request.threadId, request.message, none⟩] } key := fun key hkey =>
    have ⟨c, hc, hkey⟩ := hkey
    ⟨c, hconversations ▸ hsubset hc, hkey⟩
  refine ⟨fun c hc => ?_, fun key m hm => ?_, fun turn hturn messages hstate m hm => ?_, h.read,
    fun a ha m hm => ?_, h.nothing, fun key hkey => ?_, fun sweep hsweep key hkey => ?_, h.sweeps,
    fun row hrow => ⟨(h.summaries row hrow).1, fun m hm => ?_⟩⟩
  · rw [hconversations] at hc
    rcases List.mem_append.mp hc with hold | hnew
    · exact h.threads c hold
    · exact List.mem_singleton.mp hnew ▸ request.threadIdValid
  · exact hconversations ▸ (h.checkpoints key m hm).mono hsubset (Nat.le_refl _)
  · rw [hconversations]
    rcases List.mem_append.mp hturn with hold | hnew
    · exact (h.turns turn hold messages hstate m hm).mono hsubset (Nat.le_refl _)
    · obtain rfl := List.mem_singleton.mp hnew
      exact absurd hstate (by simp)
  · exact hconversations ▸ (h.found a ha m hm).mono hsubset (Nat.le_refl _)
  · rcases SortedSet.mem_members_add.mp hkey with hold | rfl
    · exact hmarked key (h.activity key hold)
    · exact ⟨(userId, request.threadId), hconversations ▸ List.mem_append_right _ List.mem_cons_self, rfl⟩
  · exact hmarked key (h.pending sweep hsweep key hkey)
  · exact hconversations ▸ ((h.summaries row hrow).2 m hm).mono hsubset (Nat.le_refl _)

/-- A turn that moves on stays on its conversation. -/
theorem conversations_save {i : ℕ} {turn : MemoryTurn Args} (hturn : s.turns[i]? = some turn)
    (messages : List (Entry Args)) : (s.save i turn messages).conversations = s.conversations := by
  have hbound := (List.getElem?_eq_some_iff.mp hturn).1
  unfold conversations MemorySystem.save
  rw [List.map_set]
  refine List.ext_getElem? fun j => ?_
  by_cases hij : i = j
  · subst hij
    rw [List.getElem?_set_self (by simpa using hbound)]
    simp [hturn]
  · rw [List.getElem?_set_ne hij]

/-- A turn writes messages of its own conversation only. -/
theorem Sound.save (h : s.Sound) {i : ℕ} {e : MemoryEvent Args Vector} {turn : MemoryTurn Args}
    {messages : List (Entry Args)} (hturn : s.turns[i]? = some turn)
    (hwrites : s.writes e = some (turn, messages)) : (s.save i turn messages).Sound := by
  obtain ⟨hmem, body, hmessages⟩ := mem_writes hwrites
  have hsame := conversations_save hturn messages
  have hlater : ∀ {key : String} {m : Entry Args}, m.Of s.conversations key s.commits →
      m.Of (s.save i turn messages).conversations key (s.commits + 1) :=
    fun hof => hsame ▸ hof.mono (List.Subset.refl _) (Nat.le_succ _)
  have hof : ∀ m ∈ messages, m.Of (s.save i turn messages).conversations turn.key (s.commits + 1) := by
    intro m hm
    rcases hmessages m hm with rfl | hcheckpoint | ⟨old, hold, hm⟩
    · exact ⟨hsame ▸ List.mem_map_of_mem hmem, rfl, Nat.lt_succ_self _⟩
    · exact hlater (h.checkpoints _ m hcheckpoint)
    · exact hlater (h.turns turn hmem old hold m hm)
  have hmarked : ∀ key, s.Marked key → (s.save i turn messages).Marked key := fun key hkey =>
    have ⟨c, hc, hkey⟩ := hkey
    ⟨c, hsame ▸ hc, hkey⟩
  refine ⟨fun c hc => h.threads c (hsame ▸ hc), fun key m hm => ?_, fun q hq old hstate m hm => ?_,
    fun a ha => Nat.le_succ_of_le (h.read a ha), fun a ha m hm => hsame ▸ h.found a ha m hm, h.nothing,
    fun key hkey => hmarked key (h.activity key hkey),
    fun sweep hsweep key hkey => hmarked key (h.pending sweep hsweep key hkey), h.sweeps,
    fun row hrow => ⟨(h.summaries row hrow).1, fun m hm => hsame ▸ (h.summaries row hrow).2 m hm⟩⟩
  · by_cases hkey : key = turn.key
    · subst hkey
      exact hof m (by simpa [MemorySystem.save] using hm)
    · exact hlater (h.checkpoints key m (by simpa [MemorySystem.save, hkey] using hm))
  · rcases List.mem_or_eq_of_mem_set hq with hold | rfl
    · exact hlater (h.turns q hold old hstate m hm)
    · exact hof m (Option.some.inj hstate ▸ hm)

/-- An expired checkpoint holds nothing. -/
theorem Sound.expire (h : s.Sound) (key : String) :
    Sound { s with checkpoints := Function.update s.checkpoints key [] } := by
  refine { h with checkpoints := fun key' m hm => ?_ }
  by_cases hkey : key' = key
  · simp [hkey] at hm
  · exact h.checkpoints key' m (by simpa [hkey] using hm)

/-- A call reads messages of its own conversation. -/
theorem Sound.summarise (h : s.Sound) (customerId threadId : String) (readable : Bool) :
    (s.summarise customerId threadId readable).Sound := by
  refine { h with read := fun a ha => ?_, found := fun a ha => ?_, nothing := fun a ha hstage => ?_,
                  sweeps := fun sweep hsweep k entry rest hstage => ?_ }
  · rcases List.mem_append.mp ha with hold | hnew
    · exact h.read a hold
    · exact List.mem_singleton.mp hnew ▸ Nat.le_refl _
  · rcases List.mem_append.mp ha with hold | hnew
    · exact h.found a hold
    · obtain rfl := List.mem_singleton.mp hnew
      exact h.checkpoints _
  · rcases List.mem_append.mp ha with hold | hnew
    · exact h.nothing a hold hstage
    · obtain rfl := List.mem_singleton.mp hnew
      simp only at hstage
      cases readable with
      | false => simp at hstage
      | true =>
        by_cases hempty : (transcript (s.checkpoints (conversationKey customerId threadId))).1 = ""
        · exact transcript_eq_empty_iff.mp hempty
        · simp [hempty] at hstage
  · obtain ⟨a, ha, hpair, hkey⟩ := h.sweeps sweep hsweep k entry rest hstage
    obtain ⟨a', ha', hlater⟩ := later_summarise customerId threadId readable ha
    exact ⟨a', ha', by rw [hlater.customerId, hlater.threadId, hpair], hlater.key.trans hkey⟩

/-- A call that goes on has still read the same. -/
theorem Sound.advance (h : s.Sound) (stage : AttemptStage) {k : ℕ} {attempt : SummaryAttempt Args}
    (hattempt : s.attempts[k]? = some attempt) (hover : attempt.stage.isOver = false)
    (hstage : stage ≠ .emptyConversation) : (s.advance k attempt stage).Sound := by
  have hmem := List.mem_of_getElem? hattempt
  refine { h with read := fun a ha => ?_, found := fun a ha => ?_, nothing := fun a ha hnothing => ?_,
                  sweeps := fun sweep hsweep k' entry rest hwaits => ?_ }
  · rcases List.mem_or_eq_of_mem_set ha with hold | rfl
    · exact h.read a hold
    · exact h.read attempt hmem
  · rcases List.mem_or_eq_of_mem_set ha with hold | rfl
    · exact h.found a hold
    · exact h.found attempt hmem
  · rcases List.mem_or_eq_of_mem_set ha with hold | rfl
    · exact h.nothing a hold hnothing
    · exact absurd hnothing hstage
  · obtain ⟨a, ha, hpair, hkey⟩ := h.sweeps sweep hsweep k' entry rest hwaits
    obtain ⟨a', ha', hlater⟩ := later_advance stage hattempt hover ha
    exact ⟨a', ha', by rw [hlater.customerId, hlater.threadId, hpair], hlater.key.trans hkey⟩

/-- A stored row was computed from what its call has read. -/
theorem Sound.store (h : s.Sound) {k : ℕ} {attempt : SummaryAttempt Args} {summary : String}
    {vector : Vector} (hattempt : s.attempts[k]? = some attempt)
    (hstage : attempt.stage = .embedding summary) :
    (s.saveConversationSummary k attempt summary vector).Sound := by
  have hadvanced := h.advance .stored hattempt (by simp [hstage, AttemptStage.isOver]) (by simp)
  refine { hadvanced with summaries := fun row hrow => ?_ }
  rcases KeyedTable.mem_upsert.mp hrow with rfl | ⟨hold, -⟩
  · exact ⟨rfl, h.found attempt (List.mem_of_getElem? hattempt)⟩
  · exact h.summaries row hold

/-- Removing a marker leaves the others. -/
theorem Sound.unmark (h : s.Sound) (entry : String) : Sound { s with activity := s.activity.remove entry } :=
  { h with activity := fun key hkey => h.activity key (SortedSet.mem_members_remove.mp hkey).1 }

/-- A sweep deals with the markers of turns, and waits for a call on its entry if it waits. -/
theorem Sound.setSweep (h : s.Sound) {j : ℕ} {sweep : Sweep} {stage : SweepStage}
    (hpending : ∀ key ∈ stage.pending, s.Marked key)
    (hwaits : ∀ k entry rest, stage = .summarising k entry rest → ∃ a, s.attempts[k]? = some a ∧
      (a.customerId, a.threadId) = partitionMember entry ∧ a.key = entry) :
    (s.setSweep j sweep stage).Sound := by
  refine { h with pending := fun q hq key hkey => ?_, sweeps := fun q hq k entry rest hstage => ?_ }
  · rcases List.mem_or_eq_of_mem_set hq with hold | rfl
    · exact h.pending q hold key hkey
    · exact hpending key hkey
  · rcases List.mem_or_eq_of_mem_set hq with hold | rfl
    · exact h.sweeps q hold k entry rest hstage
    · exact hwaits k entry rest hstage

/-- Every event keeps every message its conversation's. -/
theorem Sound.step (h : s.Sound) {e : MemoryEvent Args Vector}
    (hstep : memoryStep required idle s e = some s') : s'.Sound := by
  cases memoryStep_changes hstep with
  | ticked seconds => exact { h with }
  | chatRefused authorization verified request => exact h
  | touched authorization verified request userId _ => exact h.touch userId request
  | saved e i turn messages hturn hwrites => exact h.save hturn hwrites
  | expired key => exact h.expire key
  | endRefused authorization verified threadId readable => exact h
  | ended authorization verified threadId readable customerId _ =>
    exact h.summarise customerId threadId readable
  | replied k content attempt hattempt hstage =>
    refine h.advance _ hattempt (by simp [hstage, AttemptStage.isOver]) ?_
    split <;> simp
  | stored k vector attempt summary hattempt hstage => exact h.store hattempt hstage
  | failed k attempt hattempt hover => exact h.advance _ hattempt hover (by simp)
  | sweepStarted =>
    refine { h with pending := fun q hq key hkey => ?_, sweeps := fun q hq k entry rest hstage => ?_ }
    · rcases List.mem_append.mp hq with hold | hnew
      · exact h.pending q hold key hkey
      · exact absurd (List.mem_singleton.mp hnew ▸ hkey) (by simp [SweepStage.pending])
    · rcases List.mem_append.mp hq with hold | hnew
      · exact h.sweeps q hold k entry rest hstage
      · exact absurd (List.mem_singleton.mp hnew ▸ hstage) (by simp)
  | ranged j sweep hsweep =>
    refine h.setSweep (fun key hkey => ?_) (by simp)
    have hstale : key ∈ s.stale sweep.cutoff := hkey
    unfold stale at hstale
    exact h.activity key (SortedSet.mem_members_of_mem_rangeByScore hstale)
  | dropped j readable sweep entry rest hsweep hstage hthread =>
    refine (h.unmark entry).setSweep (fun key hkey => ?_) (by simp)
    refine h.pending sweep (List.mem_of_getElem? hsweep) key ?_
    exact hstage ▸ List.mem_cons_of_mem entry hkey
  | taken j readable sweep entry rest hsweep hstage hthread =>
    refine (h.summarise _ _ readable).setSweep (fun key hkey => ?_) fun k entry' rest' hwaits => ?_
    · exact h.pending sweep (List.mem_of_getElem? hsweep) key (hstage ▸ hkey)
    · obtain ⟨rfl, rfl, -⟩ := SweepStage.summarising.inj hwaits
      exact ⟨_, List.getElem?_concat_length, rfl,
        conversationKey_partitionMember (colon_mem_of_thread hthread)⟩
  | removed j sweep k entry rest attempt hsweep hstage hattempt hover =>
    refine (h.unmark entry).setSweep (fun key hkey => ?_) (by simp)
    refine h.pending sweep (List.mem_of_getElem? hsweep) key ?_
    exact hstage ▸ List.mem_cons_of_mem entry hkey
  | aborted j sweep hsweep => exact h.setSweep (by simp [SweepStage.pending]) (by simp)
  | abandoned j sweep k attempt hsweep hattempt hover =>
    exact (h.advance _ hattempt hover (by simp)).setSweep (by simp [SweepStage.pending]) (by simp)

/-- Every reachable state is sound. -/
theorem sound_of_run {events : List (MemoryEvent Args Vector)}
    (hrun : LabelledRun.runFrom (memoryStep required idle) initial events = some s) : s.Sound :=
  LabelledRun.runFrom_invariant _ Sound (fun _ _ _ h hstep => h.step hstep) hrun sound_initial

end Steps

end MemorySystem

end Agentops
