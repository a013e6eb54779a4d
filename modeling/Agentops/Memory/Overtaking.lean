import Agentops.Memory.Sweeping

/-!
# Summaries that overtake each other

`save_conversation_summary` replaces the row of a conversation by whatever comes last, and a call that
has read less may come after one that has read more. When the calls on a conversation store in the order
in which they have read it, and turns only append to it, the stored summary is never replaced by one of a
shorter conversation.
-/

namespace Agentops

open LabelledRun

variable {Args Vector : Type} {required : Bool} {idle : ℕ} {s s' : MemorySystem Args Vector}
  {events later : List (MemoryEvent Args Vector)} {u t : String}

/-- The checkpoint that expires in an event. -/
def MemoryEvent.expiring? : MemoryEvent Args Vector → Option String
  | .expire key => some key
  | _ => none

namespace MemorySystem

/-- The conversation is only appended to, and does not expire. -/
def Appends (s : MemorySystem Args Vector) (key : String) (e : MemoryEvent Args Vector) : Prop :=
  (∀ w ∈ s.writes e, w.1.key = key → s.checkpoints key <+: w.2) ∧ e.expiring? ≠ some key

/-- A summary of the conversation takes the place of one that was begun no later. -/
def ReplacesEarlier (s : MemorySystem Args Vector) (u t : String) (e : MemoryEvent Args Vector) : Prop :=
  ∀ a ∈ s.storing e, a.customerId = u → a.threadId = t →
    ∀ row ∈ s.summaries, row.key = (u, t) → row.readAt ≤ a.readAt

/-- What the calls on a conversation have read was read from a conversation that grows, and every row was
computed from what a call has read. -/
structure Growing (key : String) (s : MemorySystem Args Vector) : Prop where
  held : ∀ a ∈ s.attempts, a.key = key → a.found <+: s.checkpoints key
  current : ∀ a ∈ s.attempts, a.key = key → a.readAt = s.commits → a.found = s.checkpoints key
  reads : ∀ a ∈ s.attempts, ∀ a' ∈ s.attempts, a.key = key → a'.key = key → a.readAt ≤ a'.readAt →
    a.found <+: a'.found
  rows : ∀ row ∈ s.summaries, ∃ a ∈ s.attempts, a.key = conversationKey row.customerId row.threadId ∧
    a.found = row.found ∧ a.readAt = row.readAt

section Decidable

variable [DecidableEq Args] (s : MemorySystem Args Vector) (e : MemoryEvent Args Vector)

/-- Decided on what is written and what expires. -/
instance (key : String) : Decidable (s.Appends key e) :=
  inferInstanceAs (Decidable ((∀ w ∈ s.writes e, w.1.key = key → s.checkpoints key <+: w.2) ∧
    e.expiring? ≠ some key))

/-- Decided on what is stored. -/
instance (u t : String) : Decidable (s.ReplacesEarlier u t e) :=
  inferInstanceAs (Decidable (∀ a ∈ s.storing e, a.customerId = u → a.threadId = t →
    ∀ row ∈ s.summaries, row.key = (u, t) → row.readAt ≤ a.readAt))

end Decidable

variable {key : String}

/-- There is nothing in the beginning. -/
theorem growing_initial (key : String) : (initial : MemorySystem Args Vector).Growing key := by
  constructor <;> simp [initial]

/-- A turn that appends leaves what was read where it was. -/
theorem Growing.save (h : s.Growing key) (hsound : s.Sound) {i : ℕ} {turn : MemoryTurn Args}
    {messages : List (Entry Args)} (happends : turn.key = key → s.checkpoints key <+: messages) :
    (s.save i turn messages).Growing key := by
  have hgrown : s.checkpoints key <+: (s.save i turn messages).checkpoints key := by
    by_cases hkey : key = turn.key
    · subst hkey
      simpa [MemorySystem.save] using happends rfl
    · simp [MemorySystem.save, hkey]
  refine ⟨fun a ha hkey => (h.held a ha hkey).trans hgrown, fun a ha hkey hread => ?_, h.reads, h.rows⟩
  have hold := hsound.read a ha
  have hnow : a.readAt = s.commits + 1 := hread
  omega

/-- A call reads all that the calls before it have read. -/
theorem Growing.summarise (h : s.Growing key) (hsound : s.Sound) (customerId threadId : String)
    (readable : Bool) : (s.summarise customerId threadId readable).Growing key := by
  refine ⟨fun a ha hkey => ?_, fun a ha hkey hread => ?_, fun a ha a' ha' hkey hkey' hle => ?_,
    fun row hrow => ?_⟩
  · rcases List.mem_append.mp ha with hold | hnew
    · exact h.held a hold hkey
    · obtain rfl := List.mem_singleton.mp hnew
      exact hkey ▸ List.prefix_refl _
  · rcases List.mem_append.mp ha with hold | hnew
    · exact h.current a hold hkey hread
    · obtain rfl := List.mem_singleton.mp hnew
      exact hkey ▸ rfl
  · rcases List.mem_append.mp ha with hold | hnew <;> rcases List.mem_append.mp ha' with hold' | hnew'
    · exact h.reads a hold a' hold' hkey hkey' hle
    · obtain rfl := List.mem_singleton.mp hnew'
      have hheld := h.held a hold hkey
      rw [← hkey'] at hheld
      exact hheld
    · obtain rfl := List.mem_singleton.mp hnew
      have hnow : a'.readAt = s.commits := Nat.le_antisymm (hsound.read a' hold') hle
      exact h.current a' hold' hkey' hnow ▸ hkey ▸ List.prefix_refl _
    · obtain rfl := List.mem_singleton.mp hnew
      obtain rfl := List.mem_singleton.mp hnew'
      exact List.prefix_refl _
  · obtain ⟨a, ha, hfacts⟩ := h.rows row hrow
    exact ⟨a, List.mem_append_left _ ha, hfacts⟩

/-- A call that goes on has still read the same. -/
theorem Growing.advance (h : s.Growing key) (stage : AttemptStage) {k : ℕ}
    {attempt : SummaryAttempt Args}
    (hattempt : s.attempts[k]? = some attempt) (hover : attempt.stage.isOver = false) :
    (s.advance k attempt stage).Growing key := by
  have hbefore : ∀ a ∈ (s.advance k attempt stage).attempts, ∃ b ∈ s.attempts, b.key = a.key ∧
      b.found = a.found ∧ b.readAt = a.readAt := by
    intro a ha
    rcases List.mem_or_eq_of_mem_set ha with hold | rfl
    · exact ⟨a, hold, rfl, rfl, rfl⟩
    · exact ⟨attempt, List.mem_of_getElem? hattempt, rfl, rfl, rfl⟩
  refine ⟨fun a ha hkey => ?_, fun a ha hkey hread => ?_, fun a ha a' ha' hkey hkey' hle => ?_,
    fun row hrow => ?_⟩
  · obtain ⟨b, hb, hsame, hfound, -⟩ := hbefore a ha
    exact hfound ▸ h.held b hb (hsame.trans hkey)
  · obtain ⟨b, hb, hsame, hfound, hreadAt⟩ := hbefore a ha
    exact hfound ▸ h.current b hb (hsame.trans hkey) (hreadAt.trans hread)
  · obtain ⟨b, hb, hsame, hfound, hreadAt⟩ := hbefore a ha
    obtain ⟨b', hb', hsame', hfound', hreadAt'⟩ := hbefore a' ha'
    exact hfound ▸ hfound' ▸ h.reads b hb b' hb' (hsame.trans hkey) (hsame'.trans hkey')
      (by rw [hreadAt, hreadAt']; exact hle)
  · obtain ⟨a, ha, hkey, hfound, hreadAt⟩ := h.rows row hrow
    obtain ⟨j, hj⟩ := List.mem_iff_getElem?.mp ha
    obtain ⟨a', ha', hlater⟩ := later_advance stage hattempt hover hj
    exact ⟨a', List.mem_of_getElem? ha', hlater.key.trans hkey, hlater.found.trans hfound,
      hlater.readAt.trans hreadAt⟩

/-- A stored row was computed from what its call has read. -/
theorem Growing.store (h : s.Growing key) {k : ℕ} {attempt : SummaryAttempt Args} {summary : String}
    {vector : Vector} (hattempt : s.attempts[k]? = some attempt)
    (hstage : attempt.stage = .embedding summary) :
    (s.saveConversationSummary k attempt summary vector).Growing key := by
  have hover : attempt.stage.isOver = false := by simp [hstage, AttemptStage.isOver]
  have hadvanced := h.advance .stored hattempt hover
  refine ⟨hadvanced.held, hadvanced.current, hadvanced.reads, fun row hrow => ?_⟩
  rcases KeyedTable.mem_upsert.mp hrow with rfl | ⟨hold, -⟩
  · obtain ⟨a', ha', hlater⟩ := later_advance .stored hattempt hover hattempt
    exact ⟨a', List.mem_of_getElem? ha', hlater.key, hlater.found, hlater.readAt⟩
  · exact hadvanced.rows row hold

/-- An event that appends to the conversation keeps it growing. -/
theorem Growing.step (h : s.Growing key) (hsound : s.Sound) {e : MemoryEvent Args Vector}
    (happends : s.Appends key e) (hstep : memoryStep required idle s e = some s') : s'.Growing key := by
  cases memoryStep_changes hstep with
  | saved e i turn messages hturn hwrites => exact h.save hsound (happends.1 (turn, messages) hwrites)
  | expired key' =>
    have hne : key ≠ key' := fun hkey => happends.2 (hkey ▸ rfl)
    have hsame : Function.update s.checkpoints key' [] key = s.checkpoints key := by simp [hne]
    exact ⟨fun a ha hkey => (h.held a ha hkey).trans (hsame ▸ List.prefix_refl _),
      fun a ha hkey hread => (h.current a ha hkey hread).trans hsame.symm, h.reads, h.rows⟩
  | ended authorization verified threadId readable customerId _ =>
    exact h.summarise hsound customerId threadId readable
  | replied k content attempt hattempt hstage =>
    exact h.advance _ hattempt (by simp [hstage, AttemptStage.isOver])
  | stored k vector attempt summary hattempt hstage => exact h.store hattempt hstage
  | failed k attempt hattempt hover => exact h.advance _ hattempt hover
  | taken j readable sweep entry rest _ _ _ => exact { h.summarise hsound _ _ readable with }
  | abandoned j sweep k attempt _ hattempt hover =>
    exact { h.advance .cancelled hattempt hover with }
  | _ => exact { h with }

/-- The rows of a table of summaries have different conversations. -/
theorem unique_summaries_of_run (hrun : runFrom (memoryStep required idle) initial events = some s) :
    KeyedTable.Unique ConversationSummary.key s.summaries := by
  refine runFrom_invariant _ (fun s : MemorySystem Args Vector =>
    KeyedTable.Unique ConversationSummary.key s.summaries) (fun s e s' h hstep => ?_) hrun List.nodup_nil
  cases memoryStep_changes hstep with
  | stored k vector attempt summary hattempt hstage => exact h.upsert _
  | _ => exact h

end MemorySystem

/-- The second row is about no shorter a conversation than the first. -/
structure ConversationSummary.NoShorter (row row' : ConversationSummary Args Vector) : Prop where
  count : row.messageCount ≤ row'.messageCount
  found : row.found <+: row'.found

section Overtaking

open MemorySystem

/-- In one event that replaces an earlier summary, the row of the conversation is kept or replaced by one
of no shorter a conversation. -/
theorem noShorter_of_step (hsound : s.Sound) (h : s.Growing (conversationKey u t))
    (hreplaces : s.ReplacesEarlier u t e) (hstep : memoryStep required idle s e = some s')
    {row : ConversationSummary Args Vector} (hrow : row ∈ s.summaries) (hkey : row.key = (u, t)) :
    ∃ row' ∈ s'.summaries, row'.key = (u, t) ∧ row.NoShorter row' := by
  cases memoryStep_changes hstep with
  | stored k vector attempt summary hattempt hstage =>
    by_cases hsame : row.key = (attempt.customerId, attempt.threadId)
    · obtain ⟨hcustomer, hthread⟩ := Prod.mk.inj (hsame.symm.trans hkey)
      have hattemptKey : attempt.key = conversationKey u t := by rw [SummaryAttempt.key, hcustomer, hthread]
      obtain ⟨a, ha, hrowKey, hfound, hreadAt⟩ := h.rows row hrow
      have hrowKey : a.key = conversationKey u t := by
        obtain ⟨hu, ht⟩ := Prod.mk.inj hkey
        rw [hrowKey, hu, ht]
      have hle : a.readAt ≤ attempt.readAt :=
        hreadAt ▸ hreplaces attempt hattempt hcustomer hthread row hrow hkey
      have hprefix : row.found <+: attempt.found :=
        hfound ▸ h.reads a ha attempt (List.mem_of_getElem? hattempt) hrowKey hattemptKey hle
      refine ⟨_, KeyedTable.mem_upsert.mpr (.inl rfl), hsame.symm.trans hkey, ?_, hprefix⟩
      exact (hsound.summaries row hrow).1 ▸ transcript_count_le hprefix
    · exact ⟨row, KeyedTable.mem_upsert.mpr (.inr ⟨hrow, hsame⟩), hkey, Nat.le_refl _, List.prefix_refl _⟩
  | _ => exact ⟨row, hrow, hkey, Nat.le_refl _, List.prefix_refl _⟩

/-- In every run in which the conversation is only appended to, and in which the calls on it store their
summaries in the order in which they have read it, what is stored for it later is about no shorter a
conversation than what was stored before. -/
theorem summary_noShorter
    (hmeet : StepsMeet (memoryStep required idle)
      (fun s e => s.Appends (conversationKey u t) e ∧ s.ReplacesEarlier u t e) initial (events ++ later))
    (hrun : runFrom (memoryStep required idle) initial events = some s)
    (hlater : runFrom (memoryStep required idle) s later = some s') :
    KeyedTable.Unique ConversationSummary.key s'.summaries ∧
      ∀ row ∈ s.summaries, row.key = (u, t) →
        ∃ row' ∈ s'.summaries, row'.key = (u, t) ∧ row.NoShorter row' := by
  have hwhole : runFrom (memoryStep required idle) initial (events ++ later) = some s' :=
    (runFrom_append_eq_some _).mpr ⟨s, hrun, hlater⟩
  obtain ⟨hbefore, hafter⟩ := hmeet.of_append _ hrun
  have hstep : ∀ (mid : MemorySystem Args Vector) e next,
      (mid.Appends (conversationKey u t) e ∧ mid.ReplacesEarlier u t e) →
      mid.Sound ∧ mid.Growing (conversationKey u t) → memoryStep required idle mid e = some next →
      next.Sound ∧ next.Growing (conversationKey u t) := fun mid e next hcond h hnext =>
    ⟨h.1.step hnext, h.2.step h.1 hcond.1 hnext⟩
  have hgrowing := hbefore.invariant _ _ hstep hrun ⟨sound_initial, growing_initial _⟩
  refine ⟨unique_summaries_of_run hwhole, fun row hrow hkey => ?_⟩
  have hkept := hafter.invariant _ (fun mid => (mid.Sound ∧ mid.Growing (conversationKey u t)) ∧
      ∃ row' ∈ mid.summaries, row'.key = (u, t) ∧ row.NoShorter row')
    (fun mid e next hcond h hnext => ?_) hlater
    ⟨hgrowing, row, hrow, hkey, Nat.le_refl _, List.prefix_refl _⟩
  · exact hkept.2
  · obtain ⟨hinv, row', hrow', hkey', hshorter⟩ := h
    obtain ⟨row'', hrow'', hkey'', hshorter'⟩ := noShorter_of_step hinv.1 hinv.2 hcond.2 hnext hrow' hkey'
    exact ⟨hstep mid e next hcond hinv hnext, row'', hrow'', hkey'',
      hshorter.count.trans hshorter'.count, hshorter.found.trans hshorter'.found⟩

/-- The customer ends the conversation twice, with an answer in between. -/
def endedTwice : List (MemoryEvent Unit ℕ) :=
  [chatOfCustomer .aboutOrder, .begin 0,
    .endConversation (some "Bearer token") (.ok ⟨"sub-1", none, some "CUS-001", none⟩) "t1" true,
    .commit 0 none (.ai { content := "It is on its way." }),
    .endConversation (some "Bearer token") (.ok ⟨"sub-1", none, some "CUS-001", none⟩) "t1" true]

/-- The first call stores first. -/
def storedInOrder : List (MemoryEvent Unit ℕ) :=
  [.reply 0 (some "A question."), .embedded 0 7, .reply 1 (some "An answered question."), .embedded 1 8]

/-- The second call stores first. -/
def storedOvertaken : List (MemoryEvent Unit ℕ) :=
  [.reply 1 (some "An answered question."), .embedded 1 8, .reply 0 (some "A question."), .embedded 0 7]

/-- In order, the row of one message is replaced by one of two. -/
theorem summary_noShorter_endedTwice :
    ∃ s s' row row', runFrom (memoryStep true 300) (initial : MemorySystem Unit ℕ)
        (endedTwice ++ storedInOrder.take 2) = some s ∧
      runFrom (memoryStep true 300) s (storedInOrder.drop 2) = some s' ∧ row ∈ s.summaries ∧
      row.messageCount = 1 ∧ row' ∈ s'.summaries ∧ row'.key = ("CUS-001", "t1") ∧ row.NoShorter row' := by
  have hcomputed : (runFrom (memoryStep true 300) (initial : MemorySystem Unit ℕ)
      (endedTwice ++ storedInOrder.take 2)).map (fun s => (s.summaries.head?.map fun row =>
        (row.messageCount, row.key), (runFrom (memoryStep true 300) s (storedInOrder.drop 2)).isSome)) =
      some (some (1, ("CUS-001", "t1")), true) := by decide +kernel
  obtain ⟨s, hrun, hfacts⟩ := Option.map_eq_some_iff.mp hcomputed
  obtain ⟨hrow, hlater⟩ := Prod.mk.inj hfacts
  obtain ⟨row, hhead, hrow⟩ := Option.map_eq_some_iff.mp hrow
  obtain ⟨hcount, hkey⟩ := Prod.mk.inj hrow
  obtain ⟨s', hlater⟩ := Option.isSome_iff_exists.mp hlater
  have hmem := List.mem_of_mem_head? hhead
  have hmeet : StepsMeet (memoryStep true 300) (fun s e => s.Appends (conversationKey "CUS-001" "t1") e ∧
      s.ReplacesEarlier "CUS-001" "t1" e) (initial : MemorySystem Unit ℕ)
      (endedTwice ++ storedInOrder.take 2 ++ storedInOrder.drop 2) := by decide +kernel
  obtain ⟨row', hrow', hkey', hshorter⟩ := (summary_noShorter hmeet hrun hlater).2 row hmem hkey
  exact ⟨s, s', row, row', hrun, hlater, hmem, hcount, hrow', hkey', hshorter⟩

/-- Overtaken, the row of two messages is replaced by one of one, though the turn only appends. -/
theorem summary_shorter_overtaken :
    StepsMeet (memoryStep true 300) (fun s e => s.Appends (conversationKey "CUS-001" "t1") e)
      (initial : MemorySystem Unit ℕ) (endedTwice ++ storedOvertaken) ∧
    ∃ s s', runFrom (memoryStep true 300) (initial : MemorySystem Unit ℕ)
        (endedTwice ++ storedOvertaken.take 2) = some s ∧
      runFrom (memoryStep true 300) s (storedOvertaken.drop 2) = some s' ∧
      s.summaries.map (fun row => (row.key, row.messageCount)) = [(("CUS-001", "t1"), 2)] ∧
      s'.summaries.map (fun row => (row.key, row.messageCount)) = [(("CUS-001", "t1"), 1)] := by
  refine ⟨by decide +kernel, ?_⟩
  have hcomputed : (runFrom (memoryStep true 300) (initial : MemorySystem Unit ℕ)
      (endedTwice ++ storedOvertaken.take 2)).map (fun s =>
        (s.summaries.map (fun row => (row.key, row.messageCount)),
          (runFrom (memoryStep true 300) s (storedOvertaken.drop 2)).map fun s' =>
            s'.summaries.map (fun row => (row.key, row.messageCount)))) =
      some ([(("CUS-001", "t1"), 2)], some [(("CUS-001", "t1"), 1)]) := by decide +kernel
  obtain ⟨s, hrun, hfacts⟩ := Option.map_eq_some_iff.mp hcomputed
  obtain ⟨hrows, hlater⟩ := Prod.mk.inj hfacts
  obtain ⟨s', hlater, hrows'⟩ := Option.map_eq_some_iff.mp hlater
  exact ⟨s, s', hrun, hlater, hrows, hrows'⟩

end Overtaking

end Agentops
