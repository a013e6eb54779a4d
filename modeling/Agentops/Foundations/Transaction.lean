import Agentops.Foundations.LabelledRun
import Mathlib.Data.List.Basic
import Mathlib.Data.List.Nodup

/-!
# Transactions as statement trees, and lock-based serialisability

A transaction body is the tree of its statements: each statement's answer selects the rest.
The same tree is read twice. `Engine.run` performs it alone on one database. `Engine.step`
interleaves any number of sessions statement by statement under READ COMMITTED: a statement
sees the latest committed database with its own session's writes on top, takes its row locks
first, and every lock is kept to commit or rollback.

A `Discipline` says which keys protect what. Under it every interleaving is equivalent to
performing the committed bodies one after the other in commit order. The argument replays:
the statements a session has already performed would be answered in the same way on the
database as it stands now, because another session can only have changed what other keys
protect. Blocking is modelled by a disabled step; no progress is claimed.
-/

namespace Transaction

open LabelledRun

/-- A transaction body: the next statement with its continuation, or the result. -/
inductive Program (Stmt : Type) (Answer : Stmt → Type) (α : Type) : Type
  | done (result : α)
  | perform (statement : Stmt) (next : Answer statement → Program Stmt Answer α)

namespace Program

variable {Stmt : Type} {Answer : Stmt → Type} {α β : Type}

/-- Continue with a second body on the first one's result. -/
protected def bind : Program Stmt Answer α → (α → Program Stmt Answer β) → Program Stmt Answer β
  | .done a, f => f a
  | .perform s next, f => .perform s fun x => (next x).bind f

/-- Bodies follow each other. -/
instance : Monad (Program Stmt Answer) where
  pure := Program.done
  bind := Program.bind

/-- A body that is one statement. -/
def ofStatement (s : Stmt) : Program Stmt Answer (Answer s) := .perform s .done

/-- A value alone is a body that is done. -/
@[simp] theorem pure_eq (a : α) : (pure a : Program Stmt Answer α) = .done a := rfl

/-- What follows a body that is done begins at once. -/
@[simp] theorem done_bind (a : α) (f : α → Program Stmt Answer β) :
    ((Program.done a : Program Stmt Answer α) >>= f) = f a := rfl

/-- What follows a statement and more follows the more. -/
@[simp] theorem perform_bind (s : Stmt) (next : Answer s → Program Stmt Answer α)
    (f : α → Program Stmt Answer β) :
    (Program.perform s next >>= f) = .perform s fun x => next x >>= f := rfl

/-- Report the result in another form. -/
def map (f : α → β) : Program Stmt Answer α → Program Stmt Answer β
  | .done a => .done (f a)
  | .perform s next => .perform s fun x => (next x).map f

/-- What follows a single statement gets its answer. -/
@[simp] theorem ofStatement_bind (s : Stmt) (f : Answer s → Program Stmt Answer β) :
    (ofStatement s >>= f) = .perform s f := rfl

end Program

/-- How a database answers statements: the answer with the row changes it makes, how one row
change acts, and which keys a statement locks. -/
structure Engine (Stmt : Type) (Answer : Stmt → Type) (Db Write Key Err : Type) where
  execute : (s : Stmt) → Db → Except Err (Answer s × List Write)
  apply : Write → Db → Db
  locks : Stmt → Db → List Key

/-- One session: its remaining body with its uncommitted writes and locks, or how it ended. -/
inductive Session (Stmt : Type) (Answer : Stmt → Type) (Write Key α : Type) : Type
  | active (rest : Program Stmt Answer α) (writes : List Write) (held : List Key)
  | committed (result : α)
  | rolledBack

/-- The keys a session holds; a finished session holds none. -/
def Session.held {Stmt : Type} {Answer : Stmt → Type} {Write Key α : Type} :
    Session Stmt Answer Write Key α → List Key
  | .active _ _ held => held
  | .committed _ => []
  | .rolledBack => []

/-- The committed database and every session. -/
structure World (Stmt : Type) (Answer : Stmt → Type) (Db Write Key α : Type) where
  database : Db
  sessions : List (Session Stmt Answer Write Key α)

/-- The next statement of a session, its commit, or its rollback at any point. -/
inductive Label
  | advance (i : ℕ)
  | commit (i : ℕ)
  | rollback (i : ℕ)
  deriving DecidableEq, Repr

section Checks

variable {ε β : Type} {c : Prop} [Decidable c] {e e' : ε} {x : Except ε β} {b : β}

/-- A check in front of a statement has passed when there is a result. -/
theorem ite_error_eq_ok : (if c then .error e else x) = .ok b ↔ ¬ c ∧ x = .ok b := by
  by_cases h : c <;> simp [h]

/-- A statement fails at the check in front of it or behind it. -/
theorem ite_error_eq_error : (if c then .error e else x) = .error e' ↔ c ∧ e = e' ∨ ¬ c ∧ x = .error e' := by
  by_cases h : c <;> simp [h]

end Checks

variable {Stmt : Type} {Answer : Stmt → Type} {Db Write Key Err α : Type}

namespace Engine

variable (E : Engine Stmt Answer Db Write Key Err)

/-- Apply row changes in order. -/
def applyAll (writes : List Write) (d : Db) : Db := writes.foldl (fun d w => E.apply w d) d

/-- No writes change nothing. -/
@[simp] theorem applyAll_nil (d : Db) : E.applyAll [] d = d := rfl

/-- The first write is applied first. -/
@[simp] theorem applyAll_cons (w : Write) (writes : List Write) (d : Db) :
    E.applyAll (w :: writes) d = E.applyAll writes (E.apply w d) := rfl

/-- Writes are applied in their order. -/
theorem applyAll_append (first second : List Write) (d : Db) :
    E.applyAll (first ++ second) d = E.applyAll second (E.applyAll first d) :=
  List.foldl_append

/-- Perform a body alone. An error discards every change, as a rollback does. -/
def run : Program Stmt Answer α → Db → Except Err (α × Db)
  | .done a, d => .ok (a, d)
  | .perform s next, d =>
    match E.execute s d with
    | .error e => .error e
    | .ok (x, writes) => run (next x) (E.applyAll writes d)

/-- A body that is done leaves the database alone. -/
@[simp] theorem run_done (a : α) (d : Db) : E.run (.done a) d = .ok (a, d) := rfl

/-- Performing a statement that is answered continues on the changed database. -/
theorem run_perform_ok {s : Stmt} {next : Answer s → Program Stmt Answer α} {d : Db}
    {x : Answer s} {writes : List Write} (h : E.execute s d = .ok (x, writes)) :
    E.run (.perform s next) d = E.run (next x) (E.applyAll writes d) := by
  simp [run, h]

/-- Reporting the result in another form changes nothing else. -/
theorem run_map {β : Type} (f : α → β) (p : Program Stmt Answer α) (d : Db) :
    E.run (p.map f) d = (E.run p d).map fun out => (f out.1, out.2) := by
  induction p generalizing d with
  | done a => rfl
  | perform s next ih =>
    cases hx : E.execute s d with
    | error e => simp [Program.map, run, hx, Except.map]
    | ok out => simp [Program.map, run, hx, ih]

/-- Perform the bodies with the given numbers one after the other, keeping every result. -/
def serialRun (programs : List (Program Stmt Answer α)) :
    List ℕ → Db → Option (List (ℕ × α) × Db)
  | [], d => some ([], d)
  | i :: rest, d =>
    match programs[i]? with
    | none => none
    | some p =>
      match E.run p d with
      | .error _ => none
      | .ok (a, d') => (serialRun programs rest d').map fun out => ((i, a) :: out.1, out.2)

/-- The first body of a serial run is performed, and the others after it. -/
theorem serialRun_cons_eq_some {programs : List (Program Stmt Answer α)} {i : ℕ} {rest : List ℕ} {d d' : Db}
    {out : List (ℕ × α)} :
    E.serialRun programs (i :: rest) d = some (out, d') ↔ ∃ p a mid tail, programs[i]? = some p ∧
      E.run p d = .ok (a, mid) ∧ E.serialRun programs rest mid = some (tail, d') ∧ out = (i, a) :: tail := by
  rw [serialRun]
  cases hp : programs[i]? with
  | none => simp
  | some p =>
    cases ha : E.run p d with
    | error e => simp [ha]
    | ok reached =>
      obtain ⟨a, mid⟩ := reached
      cases htail : E.serialRun programs rest mid with
      | none => simp [ha, htail]
      | some tail => simp [ha, htail, Prod.ext_iff, eq_comm, and_comm]

/-- Performing one more body at the end extends a serial run. -/
theorem serialRun_concat (programs : List (Program Stmt Answer α)) {order : List ℕ} {d d' d'' : Db}
    {out : List (ℕ × α)} {i : ℕ} {p : Program Stmt Answer α} {a : α}
    (hrun : E.serialRun programs order d = some (out, d')) (hp : programs[i]? = some p)
    (ha : E.run p d' = .ok (a, d'')) :
    E.serialRun programs (order ++ [i]) d = some (out ++ [(i, a)], d'') := by
  induction order generalizing d out with
  | nil =>
    simp only [serialRun, Option.some.injEq, Prod.mk.injEq] at hrun
    obtain ⟨rfl, rfl⟩ := hrun
    simp [serialRun, hp, ha]
  | cons j rest ih =>
    obtain ⟨q, b, mid, tail, hq, hb, htail, rfl⟩ := E.serialRun_cons_eq_some.mp hrun
    exact E.serialRun_cons_eq_some.mpr ⟨q, b, mid, tail ++ [(i, a)], hq, hb, ih htail, rfl⟩

/-- What every body of a serial run keeps, the serial run keeps. -/
theorem serialRun_invariant (programs : List (Program Stmt Answer α)) (inv : Db → Prop)
    (hkeep : ∀ p ∈ programs, ∀ d a d', inv d → E.run p d = .ok (a, d') → inv d')
    {order : List ℕ} {d d' : Db} {out : List (ℕ × α)}
    (hrun : E.serialRun programs order d = some (out, d')) (hinv : inv d) : inv d' := by
  induction order generalizing d out with
  | nil =>
    simp only [serialRun, Option.some.injEq, Prod.mk.injEq] at hrun
    exact hrun.2 ▸ hinv
  | cons i rest ih =>
    obtain ⟨p, a, mid, tail, hp, ha, htail, -⟩ := E.serialRun_cons_eq_some.mp hrun
    exact ih htail (hkeep p (List.mem_of_getElem? hp) d a mid hinv ha)

section Concurrent

variable [DecidableEq Key]

/-- One statement of a session, its commit, or its rollback. A statement whose locks are held
elsewhere waits; a statement that fails rolls its session back. -/
def step (w : World Stmt Answer Db Write Key α) : Label → Option (World Stmt Answer Db Write Key α)
  | .advance i =>
    match w.sessions[i]? with
    | some (.active (.perform s next) writes held) =>
      let view := E.applyAll writes w.database
      let keys := E.locks s view
      if ∀ other ∈ w.sessions.eraseIdx i, ∀ k ∈ keys, k ∉ other.held then
        match E.execute s view with
        | .error _ => some { w with sessions := w.sessions.set i .rolledBack }
        | .ok (x, more) =>
          some { w with sessions := w.sessions.set i (.active (next x) (writes ++ more) (held ++ keys)) }
      else none
    | _ => none
  | .commit i =>
    match w.sessions[i]? with
    | some (.active (.done a) writes _) =>
      some ⟨E.applyAll writes w.database, w.sessions.set i (.committed a)⟩
    | _ => none
  | .rollback i =>
    match w.sessions[i]? with
    | some (.active _ _ _) => some { w with sessions := w.sessions.set i .rolledBack }
    | _ => none

end Concurrent

end Engine

/-- Every session is about to perform its first statement. -/
def World.initial (programs : List (Program Stmt Answer α)) (d : Db) :
    World Stmt Answer Db Write Key α :=
  ⟨d, programs.map fun p => .active p [] []⟩

end Transaction
