import Agentops.Foundations.Generator
import Agentops.Memory.Conversations

/-!
# One call of `sweep_idle`

The stale members of the activity set are dealt with one after the other, in a loop with three removals and a
handler for ordinary exceptions, and the client is closed in the end. A cancellation may come, and Redis may
fail, at every `await`: the range read, an attempt to summarise, a removal (which may have taken effect by
then) and the closing of the client. What the call does is the list of its actions in order.
-/

namespace Agentops

open Generators

/-- What cuts a call short: an exception that `except Exception` catches, or a cancellation. -/
inductive Interruption
  | exception
  | cancelled
  deriving DecidableEq, Repr

/-- What `summarise_and_store` comes to for a member: a result, stored or not, or what is raised. -/
inductive AttemptOutcome
  | result (stored : Bool)
  | raises (interruption : Interruption)
  deriving DecidableEq, Repr

/-- What a removal comes to. It may have been done when it is interrupted. -/
inductive RemovalOutcome
  | done
  | interrupted (removed : Bool) (interruption : Interruption)
  deriving DecidableEq, Repr

/-- The surroundings of a call. -/
structure SweepRun where
  range : Option Interruption
  attempt : String → AttemptOutcome
  removal : String → RemovalOutcome
  aclose : Option Interruption

/-- What a call does to its conversations. -/
inductive SweepAction
  | attempted (entry : String)
  | attemptOver (entry : String)
  | removed (entry : String)
  deriving DecidableEq, Repr

/-- A part of a call. -/
abbrev SweepBlock (A : Type) := Block SweepAction Interruption A

/-- The member has a thread part. -/
def hasThread (entry : String) : Bool := (partitionMember entry).2 ≠ ""

/-- The members that `zrangebyscore` lists. -/
def staleMembers (cutoff : ℤ) (activity : SortedSet String ℕ) : List String :=
  activity.rangeByScore (fun score : ℕ => decide ((score : ℤ) ≤ cutoff)) fun a b =>
    decide (a.2 < b.2) || (decide (a.2 = b.2) && decide (a.1 ≤ b.1))

namespace SweepRun

variable (run : SweepRun)

open Block

/-- An `await` of Redis. -/
def awaits (outcome : Option Interruption) : SweepBlock Unit :=
  match outcome with
  | none => pure ()
  | some interruption => raise interruption

/-- `zrem`, which may have removed the marker when it is interrupted. -/
def zrem (entry : String) : SweepBlock Unit :=
  match run.removal entry with
  | .done => yield (.removed entry)
  | .interrupted true interruption => ⟨[.removed entry], .raised interruption⟩
  | .interrupted false interruption => raise interruption

/-- `summarise_and_store`. A cancelled attempt does not come to its end. -/
def summariseAndStore (entry : String) : SweepBlock Bool :=
  match run.attempt entry with
  | .result stored => ⟨[.attempted entry, .attemptOver entry], .next stored⟩
  | .raises .exception => ⟨[.attempted entry, .attemptOver entry], .raised .exception⟩
  | .raises .cancelled => ⟨[.attempted entry], .raised .cancelled⟩

/-- The attempt with its handler, and the number of conversations that have been closed then. -/
def attemptEntry (entry : String) (closed : ℕ) : SweepBlock ℕ :=
  (do
    let stored ← run.summariseAndStore entry
    pure (if stored then closed + 1 else closed)).tryExcept fun
  | .exception => some (pure closed)
  | .cancelled => none

/-- The body of the loop. -/
def sweepEntry (entry : String) (closed : ℕ) : SweepBlock ℕ :=
  if hasThread entry then do
    let closed ← run.attemptEntry entry closed
    run.zrem entry
    pure closed
  else do
    run.zrem entry
    pure closed

/-- The loop. -/
def sweepEntries : List String → ℕ → SweepBlock ℕ
  | [], closed => pure closed
  | entry :: rest, closed => do
    let closed ← run.sweepEntry entry closed
    sweepEntries rest closed

/-- `sweep_idle`, on the members that the range read lists. -/
def sweepIdle (stale : List String) : SweepBlock ℕ :=
  (do
    awaits run.range
    run.sweepEntries stale 0).tryFinally (awaits run.aclose)

end SweepRun

/-- The members whose attempts begin, in order. -/
def attempts (actions : List SweepAction) : List String :=
  actions.filterMap fun
    | .attempted entry => some entry
    | _ => none

/-- The members that are removed, in order. -/
def removals (actions : List SweepAction) : List String :=
  actions.filterMap fun
    | .removed entry => some entry
    | _ => none

/-- The activity set after the actions. -/
def activityAfter (actions : List SweepAction) (activity : SortedSet String ℕ) : SortedSet String ℕ :=
  (removals actions).foldl (fun activity entry => activity.remove entry) activity

/-- What is done about a member. -/
def entryActions (entry : String) : List SweepAction :=
  if hasThread entry then [.attempted entry, .attemptOver entry, .removed entry] else [.removed entry]

/-- The attempt for the member stores a summary. -/
def SweepRun.stores (run : SweepRun) (entry : String) : Bool :=
  hasThread entry && decide (run.attempt entry = .result true)

/-- Nothing cuts the call short at the member. An ordinary exception of its attempt does not. -/
def SweepRun.Passes (run : SweepRun) (entry : String) : Prop :=
  run.removal entry = .done ∧ (hasThread entry = true → run.attempt entry ≠ .raises .cancelled)

section Actions

variable {actions later : List SweepAction} {entry : String} {stale done : List String}

/-- The attempts of both parts. -/
@[simp] theorem attempts_append : attempts (actions ++ later) = attempts actions ++ attempts later :=
  List.filterMap_append

/-- The removals of both parts. -/
@[simp] theorem removals_append : removals (actions ++ later) = removals actions ++ removals later :=
  List.filterMap_append

/-- Entries with a thread are attempted. -/
theorem attempts_flatMap_entryActions (stale : List String) :
    attempts (stale.flatMap entryActions) = stale.filter hasThread := by
  have hentry : ∀ entry, attempts (entryActions entry) = [entry].filter hasThread := by
    intro entry
    by_cases h : hasThread entry <;> simp [entryActions, attempts, h]
  induction stale with
  | nil => rfl
  | cons entry stale ih =>
    rw [List.flatMap_cons, attempts_append, hentry, ih, ← List.filter_append, List.singleton_append]

/-- All entries are removed. -/
theorem removals_flatMap_entryActions (stale : List String) : removals (stale.flatMap entryActions) = stale := by
  have hentry : ∀ entry, removals (entryActions entry) = [entry] := by
    intro entry
    by_cases h : hasThread entry <;> simp [entryActions, removals, h]
  induction stale with
  | nil => rfl
  | cons entry stale ih => rw [List.flatMap_cons, removals_append, hentry, ih, List.singleton_append]

/-- A member is in the set if it was and is not removed. -/
theorem mem_activityAfter {activity : SortedSet String ℕ} {m : String} :
    m ∈ (activityAfter actions activity).members ↔ m ∈ activity.members ∧ m ∉ removals actions := by
  unfold activityAfter
  induction removals actions generalizing activity with
  | nil => simp
  | cons entry rest ih =>
    rw [List.foldl_cons, ih, SortedSet.mem_members_remove]
    simp [and_assoc]

end Actions

section Loop

variable (run : SweepRun)

/-- What the body of the loop comes to. -/
inductive EntryTakes (entry : String) (closed : ℕ) : SweepBlock ℕ → Prop
  | dealt (hpasses : run.Passes entry) : EntryTakes entry closed
      ⟨entryActions entry, .next (closed + if run.stores entry then 1 else 0)⟩
  | cancelled (hthread : hasThread entry = true) (hattempt : run.attempt entry = .raises .cancelled) :
      EntryTakes entry closed ⟨[.attempted entry], .raised .cancelled⟩
  | kept (interruption : Interruption) (hremoval : run.removal entry = .interrupted false interruption) :
      EntryTakes entry closed ⟨(entryActions entry).dropLast, .raised interruption⟩
  | dropped (interruption : Interruption) (hremoval : run.removal entry = .interrupted true interruption) :
      EntryTakes entry closed ⟨entryActions entry, .raised interruption⟩

/-- What the loop comes to: it deals with all members, or is cut short at one. -/
inductive SweepTakes (stale : List String) (closed : ℕ) : SweepBlock ℕ → Prop
  | finished (hpass : ∀ entry ∈ stale, run.Passes entry) : SweepTakes stale closed
      ⟨stale.flatMap entryActions, .next (closed + stale.countP run.stores)⟩
  | cut (done : List String) (entry : String) (rest : List String) (closed' : ℕ) (actions : List SweepAction)
      (interruption : Interruption) (hstale : stale = done ++ entry :: rest)
      (hentry : EntryTakes run entry closed' ⟨actions, .raised interruption⟩) :
      SweepTakes stale closed ⟨done.flatMap entryActions ++ actions, .raised interruption⟩

/-- An attempt that is not cancelled comes to its end. -/
theorem attemptEntry_eq {entry : String} (closed : ℕ) (hthread : hasThread entry = true) :
    run.attemptEntry entry closed = if run.attempt entry = .raises .cancelled
      then ⟨[.attempted entry], .raised .cancelled⟩
      else ⟨[.attempted entry, .attemptOver entry], .next (closed + if run.stores entry then 1 else 0)⟩ := by
  unfold SweepRun.attemptEntry SweepRun.summariseAndStore SweepRun.stores
  cases hattempt : run.attempt entry with
  | result stored => cases stored <;> simp [hthread]
  | raises interruption => cases interruption <;> simp [Block.tryExcept]

/-- A removal is done, or is interrupted before or after that. -/
theorem zrem_eq (entry : String) (actions : List SweepAction) (closed : ℕ) :
    ((⟨actions, .next closed⟩ : SweepBlock ℕ) >>= fun closed => do run.zrem entry; pure closed) =
      match run.removal entry with
      | .done => ⟨actions ++ [.removed entry], .next closed⟩
      | .interrupted true interruption => ⟨actions ++ [.removed entry], .raised interruption⟩
      | .interrupted false interruption => ⟨actions, .raised interruption⟩ := by
  unfold SweepRun.zrem
  cases run.removal entry with
  | done => rfl
  | interrupted removed interruption => cases removed <;> simp [Block.raise]

/-- Every entry takes one of these ways. -/
theorem sweepEntry_takes (entry : String) (closed : ℕ) : EntryTakes run entry closed (run.sweepEntry entry closed) := by
  have hremoved : ∀ (actions : List SweepAction) (closed' : ℕ), entryActions entry = actions ++ [.removed entry] →
      closed' = closed + (if run.stores entry then 1 else 0) →
      (hasThread entry = true → run.attempt entry ≠ .raises .cancelled) → EntryTakes run entry closed
        ((⟨actions, .next closed'⟩ : SweepBlock ℕ) >>= fun closed => do run.zrem entry; pure closed) := by
    rintro actions closed' hactions rfl hattempt
    rw [zrem_eq]
    cases hremoval : run.removal entry with
    | done => exact hactions ▸ .dealt ⟨hremoval, hattempt⟩
    | interrupted removed interruption =>
      cases removed with
      | true => exact hactions ▸ .dropped interruption hremoval
      | false =>
        have hkept : EntryTakes run entry closed ⟨(entryActions entry).dropLast, .raised interruption⟩ :=
          .kept interruption hremoval
        rwa [hactions, List.dropLast_concat] at hkept
  unfold SweepRun.sweepEntry
  by_cases hthread : hasThread entry = true
  · rw [if_pos hthread, attemptEntry_eq run closed hthread]
    by_cases hattempt : run.attempt entry = .raises .cancelled
    · rw [if_pos hattempt]
      exact .cancelled hthread hattempt
    · rw [if_neg hattempt]
      exact hremoved _ _ (if_pos hthread) rfl fun _ => hattempt
  · rw [if_neg hthread]
    have hdropped := hremoved [] closed (if_neg hthread) (by simp [SweepRun.stores, hthread])
      fun h => absurd h hthread
    exact hdropped

/-- The loop does one of these things. -/
theorem sweepEntries_takes (stale : List String) (closed : ℕ) :
    SweepTakes run stale closed (run.sweepEntries stale closed) := by
  induction stale generalizing closed with
  | nil => exact .finished (by simp)
  | cons entry rest ih =>
    rw [SweepRun.sweepEntries]
    have hentry := sweepEntry_takes run entry closed
    generalize run.sweepEntry entry closed = block at hentry ⊢
    cases hentry with
    | dealt hpasses =>
      have hrest := ih (closed + if run.stores entry then 1 else 0)
      generalize hblock : run.sweepEntries rest (closed + if run.stores entry then 1 else 0) = block at hrest
      rw [Block.bind_next, hblock]
      cases hrest with
      | finished hpass =>
        have hcount : closed + (entry :: rest).countP run.stores =
            (closed + if run.stores entry then 1 else 0) + rest.countP run.stores := by
          rw [List.countP_cons]
          omega
        exact hcount ▸ .finished (List.forall_mem_cons.mpr ⟨hpasses, hpass⟩)
      | cut done entry' rest' closed' actions interruption hstale hentry' =>
        subst hstale
        have hcut : SweepTakes run (entry :: done ++ entry' :: rest') closed
            ⟨(entry :: done).flatMap entryActions ++ actions, .raised interruption⟩ :=
          .cut (entry :: done) entry' rest' closed' actions interruption rfl hentry'
        simpa using hcut
    | cancelled hthread hattempt =>
      exact .cut [] entry rest closed _ .cancelled rfl (.cancelled hthread hattempt)
    | kept interruption hremoval => exact .cut [] entry rest closed _ interruption rfl (.kept interruption hremoval)
    | dropped interruption hremoval =>
      exact .cut [] entry rest closed _ interruption rfl (.dropped interruption hremoval)

end Loop

section Call

variable (run : SweepRun) (cutoff : ℤ) (activity : SortedSet String ℕ)

/-- Where and why a call is cut short, and what is left of the members that it listed: at the range read all of
them; at a member whose attempt is cancelled that member and the later ones; at a member whose removal is
interrupted the later ones, and the member itself unless the removal had been done; and at the closing of the
client none. -/
inductive CutShort (stale : List String) (actions : List SweepAction) (after : SortedSet String ℕ) : Prop
  | range (hrange : run.range ≠ none) (hactions : actions = []) (hkept : ∀ m ∈ stale, m ∈ after.members)
  | entry (done : List String) (entry : String) (rest : List String) (hstale : stale = done ++ entry :: rest)
      (hattempts : attempts actions = (done ++ [entry]).filter hasThread)
      (hdone : ∀ m ∈ done, m ∉ after.members) (hrest : ∀ m ∈ rest, m ∈ after.members)
      (hcause : hasThread entry = true ∧ run.attempt entry = .raises .cancelled ∧ entry ∈ after.members ∨
        ∃ removed interruption, run.removal entry = .interrupted removed interruption ∧
          (entry ∈ after.members ↔ removed = false))
  | closing (haclose : run.aclose ≠ none) (hattempts : attempts actions = stale.filter hasThread)
      (hremovals : removals actions = stale)

variable {run} {stale : List String} {actions : List SweepAction}

/-- A member at which the loop is interrupted is dealt with as far as the loop came. -/
theorem EntryTakes.interrupted {entry : String} {closed : ℕ} {interruption : Interruption}
    (h : EntryTakes run entry closed ⟨actions, .raised interruption⟩) :
    actions <+: entryActions entry ∧ attempts actions = [entry].filter hasThread ∧
      (hasThread entry = true ∧ run.attempt entry = .raises .cancelled ∧ removals actions = [] ∨
        ∃ removed interruption, run.removal entry = .interrupted removed interruption ∧
          removals actions = if removed then [entry] else []) := by
  have hwhole : attempts (entryActions entry) = [entry].filter hasThread ∧ removals (entryActions entry) = [entry] :=
    ⟨by simpa using attempts_flatMap_entryActions [entry], by simpa using removals_flatMap_entryActions [entry]⟩
  cases h with
  | cancelled hthread hattempt =>
    refine ⟨?_, by simp [attempts, hthread], .inl ⟨hthread, hattempt, rfl⟩⟩
    rw [entryActions, if_pos hthread]
    exact ⟨[.attemptOver entry, .removed entry], rfl⟩
  | kept _ hremoval =>
    refine ⟨List.dropLast_prefix _, ?_, .inr ⟨false, _, hremoval, ?_⟩⟩
    · by_cases hthread : hasThread entry <;> simp [entryActions, attempts, hthread]
    · by_cases hthread : hasThread entry <;> simp [entryActions, removals, hthread]
  | dropped _ hremoval => exact ⟨List.prefix_refl _, hwhole.1, .inr ⟨true, _, hremoval, hwhole.2⟩⟩

/-- No member that the loop passes interrupts it. -/
theorem EntryTakes.not_passes {entry : String} {closed : ℕ} {interruption : Interruption}
    (h : EntryTakes run entry closed ⟨actions, .raised interruption⟩) : ¬ run.Passes entry := by
  rintro ⟨hremoval, hattempt⟩
  obtain ⟨-, -, ⟨hthread, hcancelled, -⟩ | ⟨removed, _, hinterrupted, -⟩⟩ := h.interrupted
  · exact hattempt hthread hcancelled
  · simp [hremoval] at hinterrupted

/-- No member with a thread is removed before the attempt for it has come to its end. -/
theorem attemptOver_mem_of_prefix {before : List SweepAction} {entry : String}
    (h : before ++ [.removed entry] <+: stale.flatMap entryActions) (hthread : hasThread entry = true) :
    .attemptOver entry ∈ before := by
  induction stale generalizing before with
  | nil => simp at h
  | cons first rest ih =>
    obtain ⟨actions, hfirst, hnone, hover⟩ : ∃ actions, entryActions first = actions ++ [.removed first] ∧
        .removed entry ∉ actions ∧ (hasThread first = true → .attemptOver first ∈ actions) := by
      by_cases hfirst : hasThread first = true
      · exact ⟨[.attempted first, .attemptOver first], by simp [entryActions, hfirst], by simp, by simp⟩
      · exact ⟨[], by simp [entryActions, hfirst], by simp, fun h => absurd h hfirst⟩
    have hhead : before ++ [.removed entry] <+: entryActions first → .attemptOver entry ∈ before := by
      intro hprefix
      rw [hfirst, List.prefix_concat_iff] at hprefix
      rcases hprefix with hsame | hshort
      · obtain ⟨rfl, hentry⟩ := List.append_inj' hsame rfl
        obtain rfl : entry = first := by simpa using hentry
        exact hover hthread
      · exact absurd (hshort.subset (by simp)) hnone
    rw [List.flatMap_cons] at h
    rcases List.prefix_or_prefix_of_prefix h (List.prefix_append _ _) with hshort | ⟨tail, htail⟩
    · exact hhead hshort
    · rcases List.eq_nil_or_concat' tail with rfl | ⟨tail, last, rfl⟩
      · exact hhead (by rw [← htail, List.append_nil])
      · rw [← List.append_assoc] at htail
        obtain ⟨rfl, hlast⟩ := List.append_inj' htail rfl
        obtain rfl : last = .removed entry := by simpa using hlast
        rw [List.append_assoc, List.prefix_append_right_inj] at h
        exact List.mem_append_right _ (ih h)

/-- What a call comes to. -/
inductive CallTakes (run : SweepRun) (stale : List String) : SweepBlock ℕ → Prop
  | unread (interruption : Interruption) (hrange : run.range ≠ none) :
      CallTakes run stale ⟨[], .raised interruption⟩
  | returned (hrange : run.range = none) (haclose : run.aclose = none) (hpass : ∀ entry ∈ stale, run.Passes entry) :
      CallTakes run stale ⟨stale.flatMap entryActions, .next (stale.countP run.stores)⟩
  | cut (done : List String) (entry : String) (rest : List String) (closed : ℕ) (actions : List SweepAction)
      (interruption raised : Interruption) (hstale : stale = done ++ entry :: rest)
      (hentry : EntryTakes run entry closed ⟨actions, .raised interruption⟩) :
      CallTakes run stale ⟨done.flatMap entryActions ++ actions, .raised raised⟩
  | unclosed (interruption : Interruption) (haclose : run.aclose ≠ none) :
      CallTakes run stale ⟨stale.flatMap entryActions, .raised interruption⟩

/-- And so does every call. -/
theorem sweepIdle_takes (run : SweepRun) (stale : List String) : CallTakes run stale (run.sweepIdle stale) := by
  have hfinally : ∀ body : SweepBlock ℕ, body.tryFinally (SweepRun.awaits run.aclose) =
      ⟨body.yields, match run.aclose with
        | none => body.exit
        | some interruption => .raised interruption⟩ := by
    intro body
    cases run.aclose <;> simp [SweepRun.awaits, Block.tryFinally, Block.raise]
  rw [SweepRun.sweepIdle, hfinally]
  cases hrange : run.range with
  | some interruption =>
    have hbody : ((SweepRun.awaits (some interruption) : SweepBlock Unit) >>= fun _ => run.sweepEntries stale 0) =
        ⟨[], .raised interruption⟩ := rfl
    rw [hbody]
    cases run.aclose with
    | none => exact .unread interruption (by simp [hrange])
    | some interruption' => exact .unread interruption' (by simp [hrange])
  | none =>
    have hbody : ((SweepRun.awaits none : SweepBlock Unit) >>= fun _ => run.sweepEntries stale 0) =
        run.sweepEntries stale 0 := rfl
    rw [hbody]
    have htakes := sweepEntries_takes run stale 0
    generalize run.sweepEntries stale 0 = block at htakes ⊢
    cases htakes with
    | finished hpass =>
      cases haclose : run.aclose with
      | none => simpa using CallTakes.returned hrange haclose hpass
      | some interruption => exact .unclosed interruption (by simp [haclose])
    | cut done entry rest closed' actions interruption hstale hentry =>
      cases run.aclose with
      | none => exact .cut done entry rest closed' actions interruption interruption hstale hentry
      | some raised => exact .cut done entry rest closed' actions interruption raised hstale hentry

/-- The members are dealt with in order, as far as the call comes. -/
theorem CallTakes.prefix_actions {block : SweepBlock ℕ} (h : CallTakes run stale block) :
    block.yields <+: stale.flatMap entryActions := by
  cases h with
  | unread => exact List.nil_prefix
  | returned => exact List.prefix_refl _
  | cut done entry rest closed actions interruption raised hstale hentry =>
    rw [hstale, List.flatMap_append, List.flatMap_cons]
    exact (List.prefix_append_right_inj _).mpr (hentry.interrupted.1.trans (List.prefix_append _ _))
  | unclosed => exact List.prefix_refl _

/-- Only stale members are removed. -/
theorem CallTakes.removals_subset {block : SweepBlock ℕ} (h : CallTakes run stale block) :
    removals block.yields ⊆ stale := by
  obtain ⟨later, hlater⟩ := h.prefix_actions
  have hall := removals_flatMap_entryActions stale
  rw [← hlater, removals_append] at hall
  exact hall ▸ List.subset_append_left _ _

/-- What a call that is cut short leaves. -/
theorem CallTakes.cutShort {block : SweepBlock ℕ} (h : CallTakes run stale block) {interruption : Interruption}
    (hexit : block.exit = .raised interruption) (hstale : stale.Nodup) {activity : SortedSet String ℕ}
    (hmember : ∀ m ∈ stale, m ∈ activity.members) :
    CutShort run stale block.yields (activityAfter block.yields activity) := by
  cases h with
  | returned => simp at hexit
  | unread _ hrange => exact .range hrange rfl hmember
  | unclosed _ haclose =>
    exact .closing haclose (attempts_flatMap_entryActions stale) (removals_flatMap_entryActions stale)
  | cut done entry rest closed actions _ raised hsplit hentry =>
    subst hsplit
    obtain ⟨-, hattempts, hremovals⟩ := hentry.interrupted
    obtain ⟨-, hrestNodup, hdisjoint⟩ := List.nodup_append.mp hstale
    have hremoved : removals (done.flatMap entryActions ++ actions) = done ++ removals actions := by
      rw [removals_append, removals_flatMap_entryActions]
    have hlater : ∀ m ∈ rest, m ∉ done ++ removals actions := by
      intro m hm hmem
      rcases List.mem_append.mp hmem with hdone | haction
      · exact hdisjoint m hdone m (List.mem_cons_of_mem _ hm) rfl
      · have hsub : removals actions ⊆ [entry] := by
          rcases hremovals with ⟨-, -, hnil⟩ | ⟨removed, _, -, hsome⟩
          · simp [hnil]
          · cases removed <;> simp [hsome]
        obtain rfl := List.mem_singleton.mp (hsub haction)
        exact (List.nodup_cons.mp hrestNodup).1 hm
    have hentryDone : entry ∉ done := fun hdone => hdisjoint entry hdone entry List.mem_cons_self rfl
    refine .entry done entry rest rfl ?_ ?_ ?_ ?_
    · rw [attempts_append, attempts_flatMap_entryActions, hattempts, List.filter_append]
    · intro m hm
      rw [mem_activityAfter, hremoved]
      exact fun h => h.2 (List.mem_append_left _ hm)
    · intro m hm
      rw [mem_activityAfter, hremoved]
      exact ⟨hmember m (List.mem_append_right _ (List.mem_cons_of_mem _ hm)), hlater m hm⟩
    · rcases hremovals with ⟨hthread, hcancelled, hnil⟩ | ⟨removed, interruption, hinterrupted, hsome⟩
      · refine .inl ⟨hthread, hcancelled, ?_⟩
        rw [mem_activityAfter, hremoved, hnil, List.append_nil]
        exact ⟨hmember entry (by simp), hentryDone⟩
      · refine .inr ⟨removed, interruption, hinterrupted, ?_⟩
        rw [mem_activityAfter, hremoved, hsome]
        cases removed <;> simp [hmember entry, hentryDone]

variable (run)

/-- One bad conversation neither stalls nor loses the others. A call returns whatever exceptions attempts raise,
exactly when Redis answers and no attempt is cancelled; then it has begun one attempt for each stale member with a
thread, in order, has removed every stale member and returns how many summaries were stored. A call that is cut
short leaves the members that it did not deal with in the set. No member with a thread is ever removed before its
attempt has come to its end, and other members are left alone. -/
theorem sweep_idle_keeps (hunique : activity.members.Nodup) :
    ((∃ closed, (run.sweepIdle (staleMembers cutoff activity)).exit = .next closed) ↔
      run.range = none ∧ run.aclose = none ∧ ∀ entry ∈ staleMembers cutoff activity, run.Passes entry) ∧
    (∀ closed, (run.sweepIdle (staleMembers cutoff activity)).exit = .next closed →
      attempts (run.sweepIdle (staleMembers cutoff activity)).yields =
        (staleMembers cutoff activity).filter hasThread ∧
      removals (run.sweepIdle (staleMembers cutoff activity)).yields = staleMembers cutoff activity ∧
      (∀ m ∈ staleMembers cutoff activity,
        m ∉ (activityAfter (run.sweepIdle (staleMembers cutoff activity)).yields activity).members) ∧
      closed = (staleMembers cutoff activity).countP run.stores) ∧
    (∀ interruption, (run.sweepIdle (staleMembers cutoff activity)).exit = .raised interruption →
      CutShort run (staleMembers cutoff activity) (run.sweepIdle (staleMembers cutoff activity)).yields
        (activityAfter (run.sweepIdle (staleMembers cutoff activity)).yields activity)) ∧
    (run.sweepIdle (staleMembers cutoff activity)).exit ≠ .returned ∧
    (∀ before entry later, (run.sweepIdle (staleMembers cutoff activity)).yields =
        before ++ .removed entry :: later → hasThread entry = true → .attemptOver entry ∈ before) ∧
    ∀ m ∉ staleMembers cutoff activity,
      (m ∈ (activityAfter (run.sweepIdle (staleMembers cutoff activity)).yields activity).members ↔
        m ∈ activity.members) := by
  have hstale : (staleMembers cutoff activity).Nodup := SortedSet.nodup_rangeByScore hunique
  have hmember : ∀ m ∈ staleMembers cutoff activity, m ∈ activity.members := fun m =>
    SortedSet.mem_members_of_mem_rangeByScore
  generalize staleMembers cutoff activity = stale at hstale hmember ⊢
  have htakes := sweepIdle_takes run stale
  generalize run.sweepIdle stale = block at htakes ⊢
  refine ⟨⟨?_, ?_⟩, fun closed hexit => ?_, fun interruption hexit => htakes.cutShort hexit hstale hmember, ?_, ?_, ?_⟩
  · rintro ⟨closed, hexit⟩
    cases htakes with
    | returned hrange haclose hpass => exact ⟨hrange, haclose, hpass⟩
    | unread => simp at hexit
    | cut => simp at hexit
    | unclosed => simp at hexit
  · rintro ⟨hrange, haclose, hpass⟩
    cases htakes with
    | returned => exact ⟨_, rfl⟩
    | unread _ hunread => exact absurd hrange hunread
    | cut done entry rest closed actions _ _ hsplit hentry =>
      exact absurd (hpass entry (by simp [hsplit])) hentry.not_passes
    | unclosed _ hunclosed => exact absurd haclose hunclosed
  · cases htakes with
    | returned =>
      obtain rfl := Exit.next.inj hexit
      refine ⟨attempts_flatMap_entryActions stale, removals_flatMap_entryActions stale, fun m hm => ?_, rfl⟩
      rw [mem_activityAfter, removals_flatMap_entryActions]
      exact fun h => h.2 hm
    | unread => simp at hexit
    | cut => simp at hexit
    | unclosed => simp at hexit
  · cases htakes <;> simp
  · intro before entry later hyields hthread
    have hprefix := htakes.prefix_actions
    rw [hyields, ← List.singleton_append, ← List.append_assoc] at hprefix
    exact attemptOver_mem_of_prefix ((List.prefix_append _ _).trans hprefix) hthread
  · intro m hm
    rw [mem_activityAfter]
    exact and_iff_left fun h => hm (htakes.removals_subset h)

/-- One conversation fails, a member has no thread, and the last conversation is closed. -/
theorem sweep_idle_keeps_failing :
    ∃ run : SweepRun, run.attempt "CUS-001:t1" = .raises .exception ∧
      (run.sweepIdle (staleMembers 5 [("CUS-001:t1", 0), ("CUS-001", 1), ("CUS-002:t2", 2)])).exit = .next 1 ∧
      removals (run.sweepIdle (staleMembers 5 [("CUS-001:t1", 0), ("CUS-001", 1), ("CUS-002:t2", 2)])).yields =
        ["CUS-001:t1", "CUS-001", "CUS-002:t2"] := by
  let run : SweepRun := ⟨none, fun entry => if entry = "CUS-001:t1" then .raises .exception else .result true,
    fun _ => .done, none⟩
  have hstale : staleMembers 5 [("CUS-001:t1", 0), ("CUS-001", 1), ("CUS-002:t2", 2)] =
      ["CUS-001:t1", "CUS-001", "CUS-002:t2"] := by
    rw [staleMembers, SortedSet.rangeByScore, List.filter_eq_self.mpr (by simp), List.mergeSort_of_pairwise (by simp)]
    rfl
  have hexit : (run.sweepIdle (staleMembers 5 [("CUS-001:t1", 0), ("CUS-001", 1), ("CUS-002:t2", 2)])).exit =
      .next 1 := by
    rw [hstale]
    decide +kernel
  obtain ⟨-, hremovals, -⟩ := (sweep_idle_keeps run 5 [("CUS-001:t1", 0), ("CUS-001", 1), ("CUS-002:t2", 2)]
    (by decide)).2.1 1 hexit
  exact ⟨run, rfl, hexit, hremovals.trans hstale⟩

end Call

end Agentops
