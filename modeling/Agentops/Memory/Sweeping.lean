import Agentops.Memory.Provenance

/-!
# What the sweeper loses

A sweep reads a conversation, waits for two models and then removes the marker, whatever has happened in
between. Text that was written meanwhile, or after the marker has gone, is in no summary and will not be
in any. As long as neither happens, and no summary of an unmarked conversation takes the place of one that
has read more, every text is in the last summary, or its conversation is still marked, or an attempt on it
has failed.
-/

namespace Agentops

open LabelledRun

variable {Args Vector : Type} {required : Bool} {idle : ℕ} {s s' : MemorySystem Args Vector}
  {events : List (MemoryEvent Args Vector)} {key : String}

/-- The call has come to nothing: something raised, or the summary was empty. -/
def AttemptStage.cameToNothing : AttemptStage → Bool
  | .failed | .emptySummary => true
  | _ => false

/-- An attempt that came to nothing is over. -/
theorem AttemptStage.isOver_of_cameToNothing {stage : AttemptStage} (h : stage.cameToNothing = true) :
    stage.isOver = true := by
  cases stage <;> simp_all [cameToNothing, isOver]

/-- The call that a sweep waits for, and the entry that it deals with. -/
def SweepStage.waiting? : SweepStage → Option (ℕ × String)
  | .summarising k entry _ => some (k, entry)
  | _ => none

namespace MemorySystem

/-- Text that was committed after the state of the last stored summary had been read is due: its
conversation is marked, or a call that was begun after the commit has come to nothing. -/
def Covered (s : MemorySystem Args Vector) (key : String) : Prop :=
  ∀ m ∈ s.checkpoints key, m.isText = true → s.lastRead key ≤ m.number →
    key ∈ s.activity.members ∨
      ∃ a ∈ s.attempts, a.key = key ∧ m.number < a.readAt ∧ a.stage.cameToNothing = true

/-- Decided on the messages of the checkpoint. -/
instance (s : MemorySystem Args Vector) (key : String) : Decidable (s.Covered key) :=
  inferInstanceAs (Decidable (∀ m ∈ s.checkpoints key, m.isText = true → s.lastRead key ≤ m.number →
    key ∈ s.activity.members ∨
      ∃ a ∈ s.attempts, a.key = key ∧ m.number < a.readAt ∧ a.stage.cameToNothing = true))

/-- A turn writes new text only while its conversation is marked. -/
def WritesMarked (s : MemorySystem Args Vector) (e : MemoryEvent Args Vector) : Prop :=
  ∀ w ∈ s.writes e, w.1.key ∈ s.activity.members ∨
    ∀ m ∈ w.2, m.isText = true → m ∈ s.checkpoints w.1.key

/-- The call whose summary is stored in an event. -/
def storing (s : MemorySystem Args Vector) : MemoryEvent Args Vector → Option (SummaryAttempt Args)
  | .embedded k _ => s.attempts[k]?
  | _ => none

/-- The marker that a sweep removes in an event, and the call that it has waited for. -/
def removing (s : MemorySystem Args Vector) :
    MemoryEvent Args Vector → Option (String × SummaryAttempt Args)
  | .remove j => do
    let sweep ← s.sweeps[j]?
    let (k, entry) ← sweep.stage.waiting?
    let a ← s.attempts[k]?
    return (entry, a)
  | _ => none

/-- A summary that is stored while its conversation is not marked has read all text that the one before it
has read. -/
def StoresRead (s : MemorySystem Args Vector) (e : MemoryEvent Args Vector) : Prop :=
  ∀ a ∈ s.storing e, a.key ∉ s.activity.members →
    ∀ m ∈ s.checkpoints a.key, m.isText = true → a.readAt ≤ m.number → s.lastRead a.key ≤ m.number

/-- A sweep removes a marker when the last stored summary has read all text that is there, but for text that
the call which it has waited for has read, and come to nothing. -/
def RemovesRead (s : MemorySystem Args Vector) (e : MemoryEvent Args Vector) : Prop :=
  ∀ r ∈ s.removing e, ∀ m ∈ s.checkpoints r.1, m.isText = true → s.lastRead r.1 ≤ m.number →
    m ∈ r.2.found ∧ r.2.stage.cameToNothing = true

/-- The event loses no text. -/
def LosesNothing (s : MemorySystem Args Vector) (e : MemoryEvent Args Vector) : Prop :=
  s.WritesMarked e ∧ s.StoresRead e ∧ s.RemovesRead e

section Decidable

variable [DecidableEq Args] (s : MemorySystem Args Vector) (e : MemoryEvent Args Vector)

/-- Decided on what is written. -/
instance : Decidable (s.WritesMarked e) :=
  inferInstanceAs (Decidable (∀ w ∈ s.writes e, w.1.key ∈ s.activity.members ∨
    ∀ m ∈ w.2, m.isText = true → m ∈ s.checkpoints w.1.key))

/-- Decided on what is stored. -/
instance : Decidable (s.StoresRead e) :=
  inferInstanceAs (Decidable (∀ a ∈ s.storing e, a.key ∉ s.activity.members →
    ∀ m ∈ s.checkpoints a.key, m.isText = true → a.readAt ≤ m.number → s.lastRead a.key ≤ m.number))

/-- Decided on what is removed. -/
instance : Decidable (s.RemovesRead e) :=
  inferInstanceAs (Decidable (∀ r ∈ s.removing e, ∀ m ∈ s.checkpoints r.1, m.isText = true →
    s.lastRead r.1 ≤ m.number → m ∈ r.2.found ∧ r.2.stage.cameToNothing = true))

/-- Decided on all three. -/
instance : Decidable (s.LosesNothing e) :=
  inferInstanceAs (Decidable (s.WritesMarked e ∧ s.StoresRead e ∧ s.RemovesRead e))

end Decidable

/-- A change that brings in no text, keeps the marker and what the last summary has read, and forgets no
call. -/
theorem Covered.mono (h : s.Covered key)
    (htext : ∀ m ∈ s'.checkpoints key, m.isText = true → m ∈ s.checkpoints key)
    (hread : s'.lastRead key = s.lastRead key)
    (hmarked : key ∈ s.activity.members → key ∈ s'.activity.members)
    (hlater : ∀ (k : ℕ) (a : SummaryAttempt Args), s.attempts[k]? = some a →
      ∃ a', s'.attempts[k]? = some a' ∧ a.Later a') : s'.Covered key := by
  intro m hm htxt hle
  rcases h m (htext m hm htxt) htxt (hread ▸ hle) with hmark | ⟨a, ha, hkey, hnumber, hnothing⟩
  · exact .inl (hmarked hmark)
  · obtain ⟨k, hk⟩ := List.mem_iff_getElem?.mp ha
    obtain ⟨a', ha', hlater⟩ := hlater k a hk
    refine .inr ⟨a', List.mem_of_getElem? ha', hlater.key.trans hkey, hlater.readAt ▸ hnumber, ?_⟩
    rw [hlater.stillOver (AttemptStage.isOver_of_cameToNothing hnothing)]
    exact hnothing

/-- A turn that writes while its conversation is marked, or nothing new, keeps every text due. -/
theorem Covered.save (h : s.Covered key) {i : ℕ} {turn : MemoryTurn Args} {messages : List (Entry Args)}
    (hmarked : turn.key ∈ s.activity.members ∨
      ∀ m ∈ messages, m.isText = true → m ∈ s.checkpoints turn.key) : (s.save i turn messages).Covered key := by
  have hlater : ∀ (k : ℕ) (a : SummaryAttempt Args), s.attempts[k]? = some a →
      ∃ a', (s.save i turn messages).attempts[k]? = some a' ∧ a.Later a' := fun k a ha => ⟨a, ha, .refl a⟩
  by_cases hkey : key = turn.key
  · subst hkey
    rcases hmarked with hmark | htext
    · exact fun m _ _ _ => .inl hmark
    · refine h.mono (fun m hm => ?_) rfl id hlater
      exact htext m (by simpa [MemorySystem.save] using hm)
  · refine h.mono (fun m hm _ => ?_) rfl id hlater
    simpa [MemorySystem.save, hkey] using hm

/-- A summary of a marked conversation, or one that has read all that the one before it has read, keeps every
text due. -/
theorem Covered.store (h : s.Covered key) {k : ℕ} {attempt : SummaryAttempt Args} {summary : String}
    {vector : Vector} (hattempt : s.attempts[k]? = some attempt) (hstage : attempt.stage = .embedding summary)
    (hread : attempt.key ∉ s.activity.members → ∀ m ∈ s.checkpoints attempt.key, m.isText = true →
      attempt.readAt ≤ m.number → s.lastRead attempt.key ≤ m.number) :
    (s.saveConversationSummary k attempt summary vector).Covered key := by
  have hlater : ∀ (j : ℕ) (a : SummaryAttempt Args), s.attempts[j]? = some a →
      ∃ a', (s.advance k attempt .stored).attempts[j]? = some a' ∧ a.Later a' := fun j a ha =>
    later_advance .stored hattempt (by simp [hstage, AttemptStage.isOver]) ha
  by_cases hkey : key = attempt.key
  · subst hkey
    by_cases hmark : attempt.key ∈ s.activity.members
    · exact fun m _ _ _ => .inl hmark
    · intro m hm htext hle
      have hunread : s.lastRead attempt.key ≤ m.number :=
        hread hmark m hm htext (by simpa [saveConversationSummary] using hle)
      -- Apart from what was read last, storing changes nothing that the text depends on.
      have hadvanced : (s.advance k attempt .stored).Covered attempt.key :=
        h.mono (fun m hm _ => hm) rfl id hlater
      exact hadvanced m hm htext hunread
  · exact h.mono (fun m hm _ => hm) (by simp [saveConversationSummary, advance, hkey]) id hlater

/-- A marker may go once the last summary has read all text that is there, or its call has come to nothing. -/
theorem Covered.unmark (h : s.Covered key) (hsound : s.Sound) {entry : String} {a : SummaryAttempt Args}
    (ha : a ∈ s.attempts) (hkey : a.key = entry)
    (hread : ∀ m ∈ s.checkpoints entry, m.isText = true → s.lastRead entry ≤ m.number →
      m ∈ a.found ∧ a.stage.cameToNothing = true) :
    Covered { s with activity := s.activity.remove entry } key := by
  by_cases hentry : key = entry
  · subst hentry
    intro m hm htext hle
    obtain ⟨hfound, hnothing⟩ := hread m hm htext hle
    exact .inr ⟨a, ha, hkey, (hsound.found a ha m hfound).number, hnothing⟩
  · refine h.mono (fun m hm _ => hm) rfl (fun hmark => ?_) fun k a ha => ⟨a, ha, .refl a⟩
    exact SortedSet.mem_members_remove.mpr ⟨hmark, hentry⟩

/-- An event that loses nothing keeps every text due. -/
theorem Covered.step (h : s.Covered key) (hsound : s.Sound) {e : MemoryEvent Args Vector}
    (hkeeps : s.LosesNothing e) (hstep : memoryStep required idle s e = some s') : s'.Covered key := by
  have hlater := fun k a (ha : s.attempts[k]? = some a) => later_of_step hstep ha
  cases memoryStep_changes hstep with
  | touched authorization verified request userId _ =>
    exact h.mono (fun m hm _ => hm) rfl (fun hmark => SortedSet.mem_members_add.mpr (.inl hmark)) hlater
  | saved e i turn messages hturn hwrites => exact h.save (hkeeps.1 (turn, messages) hwrites)
  | expired key' =>
    refine h.mono (fun m hm _ => ?_) rfl id hlater
    by_cases hkey : key = key'
    · simp [hkey] at hm
    · simpa [hkey] using hm
  | stored k vector attempt summary hattempt hstage =>
    exact h.store hattempt hstage (hkeeps.2.1 attempt hattempt)
  | dropped j readable sweep entry rest hsweep hstage hthread =>
    obtain ⟨c, hc, rfl⟩ := hsound.pending sweep (List.mem_of_getElem? hsweep) entry
      (by simp [hstage, SweepStage.pending])
    exact absurd hthread (thread_partitionMember_ne_empty (hsound.threads c hc))
  | removed j sweep k entry rest attempt hsweep hstage hattempt hover =>
    obtain ⟨a, ha, -, hkey⟩ := hsound.sweeps sweep (List.mem_of_getElem? hsweep) k entry rest hstage
    obtain rfl := Option.some.inj (hattempt.symm.trans ha)
    have hread := hkeeps.2.2 (entry, attempt)
      (by simp [removing, hsweep, hstage, SweepStage.waiting?, hattempt])
    exact h.unmark hsound (List.mem_of_getElem? hattempt) hkey hread
  | _ => exact h.mono (fun m hm _ => hm) rfl id hlater

end MemorySystem

section Sweeping

open MemorySystem

/-- In every run whose events lose nothing, text that was committed after the state of the last stored
summary had been read is due: its conversation is marked, or a call that was begun after the commit has
come to nothing. -/
theorem text_due (hkeeps : StepsMeet (memoryStep required idle) LosesNothing initial events)
    (hrun : runFrom (memoryStep required idle) initial events = some s) : ∀ key, s.Covered key := by
  have h : s.Sound ∧ ∀ key, s.Covered key := hkeeps.invariant _ (fun s => s.Sound ∧ ∀ key, s.Covered key)
    (fun _ _ _ hcond hs hstep => ⟨hs.1.step hstep, fun key => (hs.2 key).step hs.1 hcond hstep⟩) hrun
    ⟨sound_initial, fun key m hm => by simp [initial] at hm⟩
  exact h.2

/-- A request of CUS-001. -/
def chatOfCustomer (request : AgentStreamRequest) : MemoryEvent Unit ℕ :=
  .chat (some "Bearer token") (.ok ⟨"sub-1", none, some "CUS-001", none⟩) request

/-- A turn that is swept, after which the customer writes again. -/
def sweptThenResumed : List (MemoryEvent Unit ℕ) :=
  [chatOfCustomer .aboutOrder, .begin 0,
    .commit 0 none (.ai { content := "It is on its way." }), .tick 301, .sweep, .range 0, .next 0 true,
    .reply 0 (some "The customer asked where the order was."), .embedded 0 7, .remove 0,
    chatOfCustomer { AgentStreamRequest.aboutOrder with message := "Thank you", messageLength := by decide },
    .begin 1]

/-- The new message is not in the summary, and the conversation is marked. -/
theorem text_due_sweptThenResumed :
    ∃ s, runFrom (memoryStep true 300) (initial : MemorySystem Unit ℕ) sweptThenResumed = some s ∧
      s.lastRead "CUS-001:t1" = 2 ∧ (s.checkpoints "CUS-001:t1").map Entry.number = [0, 1, 2] ∧
      s.activity.members = ["CUS-001:t1"] ∧ ∀ key, s.Covered key := by
  have hcomputed : (runFrom (memoryStep true 300) (initial : MemorySystem Unit ℕ) sweptThenResumed).map
      (fun s => (s.lastRead "CUS-001:t1", (s.checkpoints "CUS-001:t1").map Entry.number,
        s.activity.members)) = some (2, [0, 1, 2], ["CUS-001:t1"]) := by decide +kernel
  obtain ⟨s, hrun, hfacts⟩ := Option.map_eq_some_iff.mp hcomputed
  simp only [Prod.mk.injEq] at hfacts
  exact ⟨s, hrun, hfacts.1, hfacts.2.1, hfacts.2.2, text_due (by decide +kernel) hrun⟩

/-- The customer writes again while the sweep waits for the models. -/
def resumedWhileSwept : List (MemoryEvent Unit ℕ) :=
  [chatOfCustomer .aboutOrder, .begin 0,
    .commit 0 none (.ai { content := "It is on its way." }), .tick 301, .sweep, .range 0, .next 0 true,
    chatOfCustomer
      { AgentStreamRequest.aboutOrder with message := "Please cancel it", messageLength := by decide },
    .begin 1,
    .commit 1 none (.ai { content := "It is cancelled." }),
    .reply 0 (some "The customer asked where the order was."), .embedded 0 7, .remove 0]

/-- The new messages are in no summary, no call has come to nothing, and the marker is gone. -/
theorem text_lost_resumedWhileSwept :
    ∃ s, runFrom (memoryStep true 300) (initial : MemorySystem Unit ℕ) resumedWhileSwept = some s ∧
      ¬ s.Covered "CUS-001:t1" := by
  have hcomputed : (runFrom (memoryStep true 300) (initial : MemorySystem Unit ℕ) resumedWhileSwept).map
      (fun s => decide (s.Covered "CUS-001:t1")) = some false := by decide +kernel
  obtain ⟨s, hrun, hfacts⟩ := Option.map_eq_some_iff.mp hcomputed
  exact ⟨s, hrun, of_decide_eq_false hfacts⟩

end Sweeping

end Agentops
