import Agentops.Foundations.Transaction
import Mathlib.Data.List.Basic
import Mathlib.Data.List.Nodup
import Mathlib.Tactic.Tauto

/-!
# Commit order is a serial order

The invariant behind the theorem is that every active session replays: the statements it has
performed would get the same answers on the database committed so far, so its body, performed
alone on that database, arrives at the same place with the same writes. A session keeps it
when another one commits because the locks are disjoint; at its own commit it says that the
committed database moves exactly as one serial execution of the body.
-/

namespace Transaction

open LabelledRun

variable {Stmt : Type} {Answer : Stmt → Type} {Db Write Key Err α : Type}

/-- Which keys protect which data. `Agree K` compares two databases on everything protected by
the keys of `K` and on everything that no session changes. -/
structure Discipline (E : Engine Stmt Answer Db Write Key Err) where
  Agree : List Key → Db → Db → Prop
  Covered : Stmt → List Key → Prop
  Guarded : Write → List Key → Prop
  agree_refl : ∀ keys d, Agree keys d d
  agree_trans : ∀ keys d d' d'', Agree keys d d' → Agree keys d' d'' → Agree keys d d''
  agree_anti : ∀ keys more d d', keys ⊆ more → Agree more d d' → Agree keys d d'
  agree_apply : ∀ keys w d d', Agree keys d d' → Agree keys (E.apply w d) (E.apply w d')
  agree_frame : ∀ keys held w d, Guarded w held → keys.Disjoint held → Agree keys d (E.apply w d)
  execute_congr : ∀ s keys d d', E.locks s d ⊆ keys → Covered s keys → Agree keys d d' →
    E.execute s d' = E.execute s d ∧ E.locks s d' = E.locks s d
  writes_guarded : ∀ s keys d x writes, Covered s keys → E.execute s d = .ok (x, writes) →
    ∀ w ∈ writes, Guarded w keys
  guarded_mono : ∀ w keys more, keys ⊆ more → Guarded w keys → Guarded w more

namespace Engine

variable (E : Engine Stmt Answer Db Write Key Err)

/-- The body `p` arrives at `rest` with these writes and locks when its statements are answered
on the database `d` below its own writes. -/
inductive Replays (d : Db) (p : Program Stmt Answer α) :
    Program Stmt Answer α → List Write → List Key → Prop
  | start : Replays d p p [] []
  | next {s : Stmt} {next : Answer s → Program Stmt Answer α} {writes more : List Write}
      {held : List Key} {x : Answer s} (before : Replays d p (.perform s next) writes held)
      (hx : E.execute s (E.applyAll writes d) = .ok (x, more)) :
      Replays d p (next x) (writes ++ more) (held ++ E.locks s (E.applyAll writes d))

/-- Each statement met by a body satisfies `P` on the view it is answered on. -/
def Along (P : Stmt → Db → Prop) : Program Stmt Answer α → Db → Prop
  | .done _, _ => True
  | .perform s next, d =>
    P s d ∧ ∀ x writes, E.execute s d = .ok (x, writes) → Along P (next x) (E.applyAll writes d)

variable {E}

/-- Performing a body alone from its start is performing the rest from where it arrived. -/
theorem Replays.run_eq {d : Db} {p rest : Program Stmt Answer α} {writes : List Write}
    {held : List Key} (h : E.Replays d p rest writes held) :
    E.run p d = E.run rest (E.applyAll writes d) := by
  induction h with
  | start => rfl
  | next before hx ih => rw [ih, E.run_perform_ok hx, E.applyAll_append]

/-- What holds along a body does not depend on the form of its result. -/
theorem Along.map {β : Type} {P : Stmt → Db → Prop} (f : α → β) {p : Program Stmt Answer α} {d : Db}
    (h : E.Along P p d) : E.Along P (p.map f) d := by
  induction p generalizing d with
  | done a => trivial
  | perform s next ih => exact ⟨h.1, fun x writes hx => ih x (h.2 x writes hx)⟩

/-- What holds along a body holds at the point a replay has arrived at. -/
theorem Replays.along {P : Stmt → Db → Prop} {d : Db} {p rest : Program Stmt Answer α}
    {writes : List Write} {held : List Key} (h : E.Replays d p rest writes held)
    (hp : E.Along P p d) : E.Along P rest (E.applyAll writes d) := by
  induction h with
  | start => exact hp
  | next before hx ih =>
    rw [E.applyAll_append]
    exact ih.2 _ _ hx

end Engine

namespace Discipline

variable {E : Engine Stmt Answer Db Write Key Err} (D : Discipline E)

/-- The body takes the locks its statements need before it relies on them, on every database. -/
def Follows : Program Stmt Answer α → List Key → Prop
  | .done _, _ => True
  | .perform s next, held => ∀ d, D.Covered s (held ++ E.locks s d) ∧
      ∀ x writes, E.execute s d = .ok (x, writes) → Follows (next x) (held ++ E.locks s d)

/-- A body stays disciplined when its result is reported in another form. -/
theorem Follows.map {β : Type} (f : α → β) {p : Program Stmt Answer α} {held : List Key}
    (h : D.Follows p held) : D.Follows (p.map f) held := by
  induction p generalizing held with
  | done a => trivial
  | perform s next ih => exact fun d => ⟨(h d).1, fun x writes hx => ih x ((h d).2 x writes hx)⟩

/-- A replay of a disciplined body arrives at a disciplined rest. -/
theorem follows_of_replays {d : Db} {p rest : Program Stmt Answer α} {writes : List Write}
    {held : List Key} (h : E.Replays d p rest writes held) (hp : D.Follows p []) :
    D.Follows rest held := by
  induction h with
  | start => exact hp
  | next before hx ih => exact (ih _).2 _ _ hx

/-- Every uncommitted write of a disciplined session is protected by its own locks. -/
theorem guarded_of_replays {d : Db} {p rest : Program Stmt Answer α} {writes : List Write}
    {held : List Key} (h : E.Replays d p rest writes held) (hp : D.Follows p []) :
    ∀ w ∈ writes, D.Guarded w held := by
  induction h with
  | start => simp
  | @next s next writes more held x before hx ih =>
    intro w hw
    rcases List.mem_append.mp hw with hold | hnew
    · exact D.guarded_mono w _ _ (List.subset_append_left _ _) (ih w hold)
    · have hcovered := (D.follows_of_replays before hp (E.applyAll writes d)).1
      exact D.writes_guarded _ _ _ _ _ hcovered hx w hnew

/-- Agreement survives the same writes on both sides. -/
theorem agree_applyAll {keys : List Key} {d d' : Db} (writes : List Write)
    (h : D.Agree keys d d') : D.Agree keys (E.applyAll writes d) (E.applyAll writes d') := by
  induction writes generalizing d d' with
  | nil => exact h
  | cons w writes ih => exact ih (D.agree_apply keys w d d' h)

/-- Writes protected by other keys leave agreement alone. -/
theorem agree_of_guarded {keys held : List Key} {writes : List Write} (d : Db)
    (hguard : ∀ w ∈ writes, D.Guarded w held) (hdisjoint : keys.Disjoint held) :
    D.Agree keys d (E.applyAll writes d) := by
  induction writes generalizing d with
  | nil => exact D.agree_refl keys d
  | cons w writes ih =>
    exact D.agree_trans _ _ _ _ (D.agree_frame keys held w d (hguard w List.mem_cons_self) hdisjoint)
      (ih (E.apply w d) fun v hv => hguard v (List.mem_cons_of_mem _ hv))

/-- A replay carries over to any database that agrees on the keys it holds. -/
theorem replays_congr {d d' : Db} {p rest : Program Stmt Answer α} {writes : List Write}
    {held : List Key} (h : E.Replays d p rest writes held) (hp : D.Follows p [])
    (hagree : D.Agree held d d') : E.Replays d' p rest writes held := by
  induction h with
  | start => exact .start
  | @next s next writes more held x before hx ih =>
    have hbefore := ih (D.agree_anti _ _ _ _ (List.subset_append_left _ _) hagree)
    have hcovered := (D.follows_of_replays before hp (E.applyAll writes d)).1
    obtain ⟨hexec, hlocks⟩ := D.execute_congr s _ _ _ (List.subset_append_right _ _) hcovered
      (D.agree_applyAll writes hagree)
    have hx' : E.execute s (E.applyAll writes d') = .ok (x, more) := hexec.trans hx
    exact hlocks ▸ Engine.Replays.next hbefore hx'

end Discipline

namespace Engine

variable {E : Engine Stmt Answer Db Write Key Err}

/-- What every interleaving keeps: the committed sessions form a serial run, the active ones
replay on the committed database, and no two hold a common lock. -/
structure Interleaved (E : Engine Stmt Answer Db Write Key Err)
    (programs : List (Program Stmt Answer α)) (start : Db)
    (w : World Stmt Answer Db Write Key α) (history : List (ℕ × α)) : Prop where
  serial : E.serialRun programs (history.map Prod.fst) start = some (history, w.database)
  once : (history.map Prod.fst).Nodup
  results : ∀ (i : ℕ) (a : α), (i, a) ∈ history ↔ w.sessions[i]? = some (.committed a)
  replays : ∀ (i : ℕ) (rest : Program Stmt Answer α) (writes : List Write) (held : List Key),
    w.sessions[i]? = some (.active rest writes held) →
      ∃ p, programs[i]? = some p ∧ E.Replays w.database p rest writes held
  disjoint : ∀ (i j : ℕ) (t u : Session Stmt Answer Write Key α), i ≠ j →
    w.sessions[i]? = some t → w.sessions[j]? = some u → t.held.Disjoint u.held

/-- Before any statement every session replays trivially and holds nothing. -/
theorem interleaved_initial (programs : List (Program Stmt Answer α)) (start : Db) :
    Interleaved E programs start (World.initial programs start) [] where
  serial := rfl
  once := by simp
  results i a := by simp [World.initial]
  replays i rest writes held h := by
    simp only [World.initial, List.getElem?_map, Option.map_eq_some_iff, Session.active.injEq] at h
    obtain ⟨p, hp, rfl, rfl, rfl⟩ := h
    exact ⟨p, hp, .start⟩
  disjoint i j t u _ ht _ := by
    simp only [World.initial, List.getElem?_map, Option.map_eq_some_iff] at ht
    obtain ⟨p, -, rfl⟩ := ht
    simp [Session.held]

/-- Replacing one session keeps locks disjoint if its new locks are free elsewhere. -/
theorem disjoint_set {sessions : List (Session Stmt Answer Write Key α)} {i : ℕ}
    {t : Session Stmt Answer Write Key α}
    (hdisjoint : ∀ (j k : ℕ) (t u : Session Stmt Answer Write Key α), j ≠ k →
      sessions[j]? = some t → sessions[k]? = some u → t.held.Disjoint u.held)
    (hfree : ∀ (j : ℕ) (u : Session Stmt Answer Write Key α), j ≠ i →
      sessions[j]? = some u → t.held.Disjoint u.held) :
    ∀ (j k : ℕ) (v u : Session Stmt Answer Write Key α), j ≠ k →
      (sessions.set i t)[j]? = some v → (sessions.set i t)[k]? = some u →
        v.held.Disjoint u.held := by
  intro j k v u hne hv hu
  by_cases hj : i = j
  · subst hj
    obtain rfl : v = t := by
      rw [List.getElem?_set_self'] at hv
      cases hs : sessions[i]? <;> simp_all
    rw [List.getElem?_set_ne hne] at hu
    exact hfree k u (Ne.symm hne) hu
  · rw [List.getElem?_set_ne hj] at hv
    by_cases hk : i = k
    · subst hk
      obtain rfl : u = t := by
        rw [List.getElem?_set_self'] at hu
        cases hs : sessions[i]? <;> simp_all
      exact fun k hkv hkt => hfree j v hne hv hkt hkv
    · rw [List.getElem?_set_ne hk] at hu
      exact hdisjoint j k v u hne hv hu

section Steps

variable {programs : List (Program Stmt Answer α)} {start : Db}
  {w : World Stmt Answer Db Write Key α} {history : List (ℕ × α)} {i : ℕ}
  {rest : Program Stmt Answer α} {writes : List Write} {held : List Key}

/-- The history tells of the sessions that committed, also after another one moved on. -/
theorem Interleaved.results_set (h : Interleaved E programs start w history)
    (hi : w.sessions[i]? = some (.active rest writes held)) {session : Session Stmt Answer Write Key α}
    (hsession : ∀ a, session ≠ .committed a) (j : ℕ) (a : α) :
    (j, a) ∈ history ↔ (w.sessions.set i session)[j]? = some (.committed a) := by
  rw [h.results, List.getElem?_set]
  by_cases hij : i = j
  · subst hij
    simp [hi, hsession]
  · rw [if_neg hij]

/-- A session that ends without committing leaves a serial history unchanged. -/
theorem Interleaved.rolledBack (h : Interleaved E programs start w history)
    (hi : w.sessions[i]? = some (.active rest writes held)) :
    Interleaved E programs start { w with sessions := w.sessions.set i .rolledBack } history where
  serial := h.serial
  once := h.once
  results := h.results_set hi (by simp)
  replays j rest' writes' held' hj := by
    by_cases hij : i = j
    · subst hij
      simp [List.getElem?_set_self', hi] at hj
    · exact h.replays j _ _ _ (by simpa only [List.getElem?_set_ne hij] using hj)
  disjoint := disjoint_set h.disjoint fun j u _ _ => by simp [Session.held]

/-- Answering one statement keeps the history and extends the session's replay. -/
theorem Interleaved.advanced {s : Stmt} {next : Answer s → Program Stmt Answer α}
    {x : Answer s} {more : List Write} (h : Interleaved E programs start w history)
    (hi : w.sessions[i]? = some (.active (.perform s next) writes held))
    (hfree : ∀ other ∈ w.sessions.eraseIdx i,
      ∀ k ∈ E.locks s (E.applyAll writes w.database), k ∉ other.held)
    (hx : E.execute s (E.applyAll writes w.database) = .ok (x, more)) :
    Interleaved E programs start
      { w with sessions := w.sessions.set i (.active (next x) (writes ++ more)
          (held ++ E.locks s (E.applyAll writes w.database))) } history where
  serial := h.serial
  once := h.once
  results := h.results_set hi (by simp)
  replays j rest' writes' held' hj := by
    by_cases hij : i = j
    · subst hij
      obtain ⟨p, hp, hreplay⟩ := h.replays i _ _ _ hi
      simp only [List.getElem?_set_self', hi, Option.map_eq_map, Option.map_some,
        Function.const_apply, Option.some.injEq, Session.active.injEq] at hj
      obtain ⟨rfl, rfl, rfl⟩ := hj
      exact ⟨p, hp, hreplay.next hx⟩
    · exact h.replays j _ _ _ (by simpa only [List.getElem?_set_ne hij] using hj)
  disjoint := by
    refine disjoint_set h.disjoint fun j u hne hu => ?_
    simp only [Session.held, List.disjoint_append_left]
    refine ⟨h.disjoint i j _ u (Ne.symm hne) hi hu, fun k hk hku => ?_⟩
    exact hfree u (List.mem_eraseIdx_iff_getElem?.mpr ⟨j, hne, hu⟩) k hk hku

/-- A commit appends the body's own serial execution, and the others still replay. -/
theorem Interleaved.committed (D : Discipline E) (hfollows : ∀ p ∈ programs, D.Follows p [])
    {a : α} (h : Interleaved E programs start w history)
    (hi : w.sessions[i]? = some (.active (.done a) writes held)) :
    Interleaved E programs start ⟨E.applyAll writes w.database, w.sessions.set i (.committed a)⟩
      (history ++ [(i, a)]) where
  serial := by
    obtain ⟨p, hp, hreplay⟩ := h.replays i _ _ _ hi
    rw [List.map_append]
    exact E.serialRun_concat programs h.serial hp hreplay.run_eq
  once := by
    rw [List.map_append, List.nodup_append]
    refine ⟨h.once, by simp, ?_⟩
    rintro j hj k hk rfl
    obtain ⟨⟨j', b⟩, hb, rfl⟩ := List.mem_map.mp hj
    obtain rfl : j' = i := by simpa using hk
    have := (h.results j' b).mp hb
    simp [hi] at this
  results j b := by
    rw [List.mem_append, h.results, List.getElem?_set]
    by_cases hij : i = j
    · subst hij
      obtain ⟨hlt, hget⟩ := List.getElem?_eq_some_iff.mp hi
      simp [hlt, hget, eq_comm]
    · simp [hij, Ne.symm hij]
  replays j rest' writes' held' hj := by
    by_cases hij : i = j
    · subst hij
      simp [List.getElem?_set_self', hi] at hj
    · rw [List.getElem?_set_ne hij] at hj
      obtain ⟨q, hq, hqreplay⟩ := h.replays j _ _ _ hj
      obtain ⟨p, hp, hreplay⟩ := h.replays i _ _ _ hi
      refine ⟨q, hq, D.replays_congr hqreplay (hfollows q (List.mem_of_getElem? hq)) ?_⟩
      -- the other session's locks do not touch what this commit writes
      have hguard := D.guarded_of_replays hreplay (hfollows p (List.mem_of_getElem? hp))
      exact D.agree_of_guarded w.database hguard (h.disjoint j i _ _ (Ne.symm hij) hj hi)
  disjoint := disjoint_set h.disjoint fun j u _ _ => by simp [Session.held]

/-- Each step of an interleaving keeps the invariant for some history. -/
theorem Interleaved.step [DecidableEq Key] (D : Discipline E) (hfollows : ∀ p ∈ programs, D.Follows p [])
    {l : Label} {w' : World Stmt Answer Db Write Key α}
    (h : Interleaved E programs start w history) (hstep : E.step w l = some w') :
    ∃ history', Interleaved E programs start w' history' := by
  cases l with
  | advance i =>
    simp only [Engine.step] at hstep
    split at hstep
    case h_1 s next writes held hi =>
      simp only [Option.ite_none_right_eq_some] at hstep
      obtain ⟨hfree, hstep⟩ := hstep
      cases hx : E.execute s (E.applyAll writes w.database) with
      | error e =>
        simp only [hx, Option.some.injEq] at hstep
        exact ⟨history, hstep ▸ h.rolledBack hi⟩
      | ok out =>
        simp only [hx, Option.some.injEq] at hstep
        exact ⟨history, hstep ▸ h.advanced hi hfree hx⟩
    case h_2 => cases hstep
  | commit i =>
    simp only [Engine.step] at hstep
    split at hstep
    case h_1 a writes held hi =>
      simp only [Option.some.injEq] at hstep
      exact ⟨history ++ [(i, a)], hstep ▸ h.committed D hfollows hi⟩
    case h_2 => cases hstep
  | rollback i =>
    simp only [Engine.step] at hstep
    split at hstep
    case h_1 rest writes held hi =>
      simp only [Option.some.injEq] at hstep
      exact ⟨history, hstep ▸ h.rolledBack hi⟩
    case h_2 => cases hstep

end Steps

/-- Commit order is a serial order of the committed sessions: it gives the committed database
and every caller's result. -/
theorem exists_interleaved [DecidableEq Key] (D : Discipline E) {programs : List (Program Stmt Answer α)}
    (hfollows : ∀ p ∈ programs, D.Follows p []) {start : Db} {labels : List Label}
    {w : World Stmt Answer Db Write Key α}
    (hrun : runFrom E.step (World.initial programs start) labels = some w) :
    ∃ history, Interleaved E programs start w history :=
  runFrom_invariant E.step (fun w => ∃ history, Interleaved E programs start w history)
    (fun _ _ _ ⟨_, h⟩ hstep => h.step D hfollows hstep) hrun ⟨[], interleaved_initial programs start⟩

/-- What holds along every body, performed alone on any database a serial run can reach, holds
of every statement an interleaving is about to answer. -/
theorem Interleaved.along {P : Stmt → Db → Prop} (inv : Db → Prop)
    {programs : List (Program Stmt Answer α)} {start : Db}
    {w : World Stmt Answer Db Write Key α} {history : List (ℕ × α)}
    (h : Interleaved E programs start w history)
    (hkeep : ∀ p ∈ programs, ∀ d a d', inv d → E.run p d = .ok (a, d') → inv d')
    (halong : ∀ p ∈ programs, ∀ d, inv d → E.Along P p d) (hstart : inv start)
    {i : ℕ} {s : Stmt} {next : Answer s → Program Stmt Answer α} {writes : List Write}
    {held : List Key} (hi : w.sessions[i]? = some (.active (.perform s next) writes held)) :
    P s (E.applyAll writes w.database) := by
  obtain ⟨p, hp, hreplay⟩ := h.replays i _ _ _ hi
  have hmem := List.mem_of_getElem? hp
  have hinv : inv w.database := E.serialRun_invariant programs inv hkeep h.serial hstart
  exact (hreplay.along (halong p hmem _ hinv)).1

end Engine

end Transaction
