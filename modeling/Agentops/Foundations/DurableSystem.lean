import Agentops.Foundations.DurableRun
import Agentops.Foundations.LabelledRun
import Mathlib.Data.List.Basic

/-!
# Many durable runs over one database

The server keeps every run under a workflow id, at most one of them open: a start request for
an id with an open run is answered with that run. A message is addressed to a workflow id and
reaches the run that is open when it arrives, which need not be the run that was open when it
was sent. The database is changed by activities of any run and by its surroundings.

Two rules carry invariants over whole runs of such a system. `Kept` is about one run at a time
and knows nothing of the database. `Recorded` relates the attempts of a run to the database: each
was performed on a database from which the present one has come about. `Later`, `object_of_run`
and `Posted` say what time and the post do to every run.
-/

namespace DurableExecution

open LabelledRun

variable {I S M A : Type} {R : A → Type} {F D α X : Type}

/-- The database, every run ever started, and the messages under way. -/
structure System (I S M A : Type) (R : A → Type) (F D α : Type) where
  db : D
  runs : List (Run I S M A R F D α)
  sent : List (Envelope S M)

/-- What can happen to the system. -/
inductive Event (I M X : Type)
  | start (workflowId : String) (input : I)
  | run (i : ℕ) (e : RunEvent)
  | send (workflowId : String) (message : M)
  | deliver (k : ℕ)
  | outside (x : X)
  deriving DecidableEq, Repr

namespace System

/-- The run that is open under a workflow id. -/
def openRun (s : System I S M A R F D α) (workflowId : String) : Option ℕ :=
  s.runs.findIdx? fun r => r.workflowId = workflowId ∧ r.stage.isOpen = true

/-- A database and no runs. -/
def initial (d : D) : System I S M A R F D α := ⟨d, [], []⟩

end System

namespace Service

variable (P : Service I S M A R F D α X)

/-- One event of the system. -/
def step (s : System I S M A R F D α) : Event I M X → Option (System I S M A R F D α)
  | .start workflowId input =>
    match s.openRun workflowId with
    | some _ => some s
    | none => some { s with runs := s.runs ++ [Run.start P workflowId input] }
  | .run i e =>
    match s.runs[i]? with
    | none => none
    | some r => (P.stepRun s.db r e).map fun out =>
        { s with db := out.1, runs := s.runs.set i out.2 }
  | .send workflowId message =>
    let addressee := (s.openRun workflowId).bind fun i => (s.runs[i]?).map fun r => (i, r.object)
    some { s with sent := s.sent ++ [⟨workflowId, message, addressee⟩] }
  | .deliver k =>
    match s.sent[k]? with
    | none => none
    | some e =>
      match s.openRun e.workflowId with
      | none => some { s with sent := s.sent.eraseIdx k }
      | some i => some { s with sent := s.sent.eraseIdx k, runs := s.runs.modify i (Run.receive e) }
  | .outside x => (P.outside x s.db).map fun db => { s with db := db }

/-- What each event does to the system. -/
inductive Changes (s : System I S M A R F D α) :
    Event I M X → System I S M A R F D α → Prop
  | joined (workflowId : String) (input : I) (i : ℕ) (h : s.openRun workflowId = some i) :
      Changes s (.start workflowId input) s
  | started (workflowId : String) (input : I) (h : s.openRun workflowId = none) :
      Changes s (.start workflowId input) { s with runs := s.runs ++ [Run.start P workflowId input] }
  | ran (i : ℕ) (e : RunEvent) (r r' : Run I S M A R F D α) (d : D) (hr : s.runs[i]? = some r)
      (h : P.Moves s.db r e d r') :
      Changes s (.run i e) { s with db := d, runs := s.runs.set i r' }
  | sent (workflowId : String) (message : M) (addressee : Option (ℕ × S))
      (h : addressee = (s.openRun workflowId).bind fun i => (s.runs[i]?).map fun r => (i, r.object)) :
      Changes s (.send workflowId message)
        { s with sent := s.sent ++ [⟨workflowId, message, addressee⟩] }
  | dropped (k : ℕ) (e : Envelope S M) (he : s.sent[k]? = some e)
      (h : s.openRun e.workflowId = none) :
      Changes s (.deliver k) { s with sent := s.sent.eraseIdx k }
  | delivered (k : ℕ) (e : Envelope S M) (i : ℕ) (he : s.sent[k]? = some e)
      (h : s.openRun e.workflowId = some i) :
      Changes s (.deliver k)
        { s with sent := s.sent.eraseIdx k, runs := s.runs.modify i (Run.receive e) }
  | outside (x : X) (d : D) (h : P.outside x s.db = some d) :
      Changes s (.outside x) { s with db := d }

/-- Every event of the system is one of these changes. -/
theorem step_changes {s s' : System I S M A R F D α} {e : Event I M X} (h : P.step s e = some s') :
    P.Changes s e s' := by
  cases e with
  | start workflowId input =>
    cases hopen : s.openRun workflowId with
    | some i =>
      simp only [step, hopen, Option.some.injEq] at h
      exact h ▸ .joined workflowId input i hopen
    | none =>
      simp only [step, hopen, Option.some.injEq] at h
      exact h ▸ .started workflowId input hopen
  | run i e =>
    cases hr : s.runs[i]? with
    | none => simp [step, hr] at h
    | some r =>
      simp only [step, hr] at h
      obtain ⟨⟨d, r'⟩, hout, rfl⟩ := Option.map_eq_some_iff.mp h
      exact .ran i e r r' d hr (P.stepRun_moves hout)
  | send workflowId message => exact Option.some.inj h ▸ .sent workflowId message _ rfl
  | deliver k =>
    cases he : s.sent[k]? with
    | none => simp [step, he] at h
    | some e =>
      cases hopen : s.openRun e.workflowId with
      | none =>
        simp only [step, he, hopen, Option.some.injEq] at h
        exact h ▸ .dropped k e he hopen
      | some i =>
        simp only [step, he, hopen, Option.some.injEq] at h
        exact h ▸ .delivered k e i he hopen
  | outside x =>
    obtain ⟨d, hd, rfl⟩ := Option.map_eq_some_iff.mp h
    exact .outside x d hd

end Service

section Kept

variable (P : Service I S M A R F D α X)

/-- A property of runs that every event keeps, whatever activities reply. -/
structure Kept (J : Run I S M A R F D α → Prop) : Prop where
  start : ∀ workflowId input, J (Run.start P workflowId input)
  receive : ∀ r e, J r → J (r.receive e)
  move : ∀ d r e d' r', J r → P.Moves d r e d' r' → J r'

variable {P}

/-- A kept property of all runs survives an event of the system. -/
theorem Kept.step {J : Run I S M A R F D α → Prop} (hkept : Kept P J)
    {s s' : System I S M A R F D α} {e : Event I M X} (hstep : P.step s e = some s')
    (h : ∀ r ∈ s.runs, J r) : ∀ r ∈ s'.runs, J r := by
  cases P.step_changes hstep with
  | joined workflowId input i _ => exact h
  | started workflowId input _ =>
    intro r hr
    rcases List.mem_append.mp hr with hold | hnew
    · exact h r hold
    · exact List.mem_singleton.mp hnew ▸ hkept.start workflowId input
  | ran i e r r' d hr hmove =>
    intro q hq
    rcases List.mem_or_eq_of_mem_set hq with hold | rfl
    · exact h q hold
    · exact hkept.move _ r e d q (h r (List.mem_of_getElem? hr)) hmove
  | sent workflowId message addressee _ => exact h
  | dropped k e _ _ => exact h
  | delivered k e i _ _ =>
    intro q hq
    obtain ⟨j, hj, rfl⟩ := List.mem_iff_getElem.mp hq
    rw [List.getElem_modify]
    split
    · exact hkept.receive _ e (h _ (List.getElem_mem _))
    · exact h _ (List.getElem_mem _)
  | outside x d _ => exact h

/-- A kept property is kept in other surroundings too. -/
theorem Kept.amid {J : Run I S M A R F D α → Prop} (hkept : Kept P J) {Y : Type} (outside : Y → D → Option D) :
    Kept (P.amid outside) J where
  start := hkept.start
  receive := hkept.receive
  move d r e d' r' h hmove := hkept.move d r e d' r' h hmove.of_amid

/-- A kept property holds of all runs of every system that a run of events reaches. -/
theorem Kept.holds {J : Run I S M A R F D α → Prop} (hkept : Kept P J) {d : D}
    {events : List (Event I M X)} {s : System I S M A R F D α}
    (hrun : runFrom P.step (System.initial d) events = some s) : ∀ r ∈ s.runs, J r :=
  runFrom_invariant P.step (fun s => ∀ r ∈ s.runs, J r) (fun _ _ _ h hstep => hkept.step hstep h) hrun
    (by simp [System.initial])

end Kept

section Later

variable {P : Service I S M A R F D α X}

/-- No event loses a run or lets a closed one go on. -/
theorem later_of_step {s s' : System I S M A R F D α} {e : Event I M X}
    (hstep : P.step s e = some s') {i : ℕ} {r : Run I S M A R F D α} (hr : s.runs[i]? = some r) :
    ∃ r', s'.runs[i]? = some r' ∧ r.Later r' := by
  cases P.step_changes hstep with
  | joined workflowId input j _ => exact ⟨r, hr, .refl r⟩
  | started workflowId input _ =>
    refine ⟨r, ?_, .refl r⟩
    rw [List.getElem?_append_left (List.getElem?_eq_some_iff.mp hr).1]
    exact hr
  | ran j e q q' d hq hmove =>
    by_cases hij : j = i
    · subst hij
      obtain rfl := Option.some.inj (hq.symm.trans hr)
      exact ⟨q', List.getElem?_set_self (List.getElem?_eq_some_iff.mp hr).1, hmove.later⟩
    · exact ⟨r, by rw [List.getElem?_set_ne hij]; exact hr, .refl r⟩
  | sent workflowId message addressee _ => exact ⟨r, hr, .refl r⟩
  | dropped k e _ _ => exact ⟨r, hr, .refl r⟩
  | delivered k e j _ _ =>
    by_cases hij : j = i
    · subst hij
      refine ⟨r.receive e, by simp [List.getElem?_modify_eq, hr], ?_⟩
      exact ⟨rfl, rfl, List.prefix_refl _, fun _ => ⟨rfl, rfl⟩⟩
    · refine ⟨r, ?_, .refl r⟩
      simp only [List.getElem?_modify, hij, if_false]
      simpa using hr
  | outside x d _ => exact ⟨r, hr, .refl r⟩

/-- An event of a run is a move of that run. -/
theorem moves_of_step {s s' : System I S M A R F D α} {i : ℕ} {e : RunEvent}
    (hstep : P.step s (.run i e) = some s') :
    ∃ r r', s.runs[i]? = some r ∧ s'.runs[i]? = some r' ∧ P.Moves s.db r e s'.db r' := by
  cases P.step_changes hstep with
  | ran _ _ r r' d hr hmove =>
    exact ⟨r, r', hr, List.getElem?_set_self (List.getElem?_eq_some_iff.mp hr).1, hmove⟩

/-- Only a start request adds a run. -/
theorem length_runs_of_step {s s' : System I S M A R F D α} {e : Event I M X}
    (hstep : P.step s e = some s') (he : ∀ workflowId input, e ≠ .start workflowId input) :
    s'.runs.length = s.runs.length := by
  cases P.step_changes hstep with
  | started workflowId input _ => exact absurd rfl (he workflowId input)
  | _ => simp

/-- Every run after another event was there before. -/
theorem earlier_of_step {s s' : System I S M A R F D α} {e : Event I M X}
    (hstep : P.step s e = some s') (he : ∀ workflowId input, e ≠ .start workflowId input) {i : ℕ}
    {r' : Run I S M A R F D α} (hr' : s'.runs[i]? = some r') :
    ∃ r, s.runs[i]? = some r ∧ r.Later r' := by
  obtain ⟨hi, -⟩ := List.getElem?_eq_some_iff.mp hr'
  rw [length_runs_of_step hstep he] at hi
  obtain ⟨q, hq, hlater⟩ := later_of_step hstep (List.getElem?_eq_getElem hi)
  obtain rfl := Option.some.inj (hr'.symm.trans hq)
  exact ⟨_, List.getElem?_eq_getElem hi, hlater⟩

/-- A run of events loses no run and lets no closed one go on. -/
theorem later_of_run {s s' : System I S M A R F D α} {events : List (Event I M X)}
    (hrun : runFrom P.step s events = some s') {i : ℕ} {r : Run I S M A R F D α}
    (hr : s.runs[i]? = some r) : ∃ r', s'.runs[i]? = some r' ∧ r.Later r' :=
  runFrom_invariant P.step (fun mid => ∃ r', mid.runs[i]? = some r' ∧ r.Later r')
    (fun _ _ _ ⟨_, hr', hlater⟩ hstep =>
      have ⟨r'', hr'', hlater'⟩ := later_of_step hstep hr'
      ⟨r'', hr'', hlater.trans hlater'⟩)
    hrun ⟨r, hr, .refl r⟩

end Later

section Objects

variable {P : Service I S M A R F D α X} {rel : S → S → Prop} [IsPreorder S rel]

/-- What is still to come of a run lies in the relation, if all the service does. -/
theorem Service.Within.kept (hP : P.Within rel) : Kept P fun r => r.stage.Within rel where
  start _ _ := trivial
  receive _ _ h := h
  move _ _ _ _ _ h hmove := (hmove.object hP h).2

/-- No event takes the object of a run downwards. -/
theorem object_of_step (hP : P.Within rel) {s s' : System I S M A R F D α} {e : Event I M X}
    (hstep : P.step s e = some s') (hs : ∀ r ∈ s.runs, r.stage.Within rel) {i : ℕ}
    {r : Run I S M A R F D α} (hr : s.runs[i]? = some r) :
    ∃ r', s'.runs[i]? = some r' ∧ rel r.object r'.object := by
  cases P.step_changes hstep with
  | joined workflowId input j _ => exact ⟨r, hr, refl _⟩
  | started workflowId input _ =>
    refine ⟨r, ?_, refl _⟩
    rw [List.getElem?_append_left (List.getElem?_eq_some_iff.mp hr).1]
    exact hr
  | ran j e q q' d hq hmove =>
    by_cases hij : j = i
    · subst hij
      obtain rfl := Option.some.inj (hq.symm.trans hr)
      exact ⟨q', List.getElem?_set_self (List.getElem?_eq_some_iff.mp hr).1,
        (hmove.object hP (hs q (List.mem_of_getElem? hr))).1⟩
    · exact ⟨r, by rw [List.getElem?_set_ne hij]; exact hr, refl _⟩
  | sent workflowId message addressee _ => exact ⟨r, hr, refl _⟩
  | dropped k e _ _ => exact ⟨r, hr, refl _⟩
  | delivered k e j _ _ =>
    by_cases hij : j = i
    · subst hij
      exact ⟨r.receive e, by simp [List.getElem?_modify_eq, hr], refl _⟩
    · refine ⟨r, ?_, refl _⟩
      simp only [List.getElem?_modify, hij, if_false]
      simpa using hr
  | outside x d _ => exact ⟨r, hr, refl _⟩

/-- No run of events takes the object of a run downwards. -/
theorem object_of_run (hP : P.Within rel) {s s' : System I S M A R F D α}
    {events : List (Event I M X)} (hrun : runFrom P.step s events = some s')
    (hs : ∀ r ∈ s.runs, r.stage.Within rel) {i : ℕ} {r : Run I S M A R F D α}
    (hr : s.runs[i]? = some r) : ∃ r', s'.runs[i]? = some r' ∧ rel r.object r'.object :=
  (runFrom_invariant P.step
    (fun mid => (∀ r ∈ mid.runs, r.stage.Within rel) ∧
      ∃ r', mid.runs[i]? = some r' ∧ rel r.object r'.object)
    (fun _ _ _ ⟨hmid, _, hr', hrel⟩ hstep =>
      have ⟨r'', hr'', hrel'⟩ := object_of_step hP hstep hmid hr'
      ⟨hP.kept.step hstep hmid, r'', hr'', trans_of rel hrel hrel'⟩)
    hrun ⟨hs, r, hr, refl _⟩).2

end Objects

section Messages

variable {P : Service I S M A R F D α X}

/-- The run that is open under an id. -/
theorem System.openRun_eq_some {s : System I S M A R F D α} {workflowId : String} {i : ℕ}
    (h : s.openRun workflowId = some i) :
    ∃ r, s.runs[i]? = some r ∧ r.workflowId = workflowId ∧ r.stage.isOpen = true := by
  obtain ⟨hi, hopen, -⟩ := List.findIdx?_eq_some_iff_getElem.mp h
  simp only [decide_eq_true_eq] at hopen
  exact ⟨s.runs[i], List.getElem?_eq_getElem hi, hopen⟩

/-- A run that has just been started is the open one of its id. -/
theorem System.openRun_started {s : System I S M A R F D α} {workflowId : String} {input : I}
    (h : s.openRun workflowId = none) :
    ({ s with runs := s.runs ++ [Run.start P workflowId input] } : System I S M A R F D α).openRun
      workflowId = some s.runs.length := by
  unfold System.openRun at h ⊢
  rw [List.findIdx?_append, h, List.findIdx?_singleton]
  have hfresh : (Stage.fresh : Stage S A R F D α).isOpen = true := rfl
  simp [Run.start, hfresh]

/-- Every message under way was sent, and every message of a run was sent to the run's id. -/
structure Posted (events : List (Event I M X)) (s : System I S M A R F D α) : Prop where
  sent : ∀ e ∈ s.sent, .send e.workflowId e.message ∈ events
  messages : ∀ r ∈ s.runs, ∀ e ∈ r.messages,
    e.workflowId = r.workflowId ∧ .send e.workflowId e.message ∈ events

/-- An event sends what it sends, and otherwise invents no message. -/
theorem Posted.step {s s' : System I S M A R F D α} {e : Event I M X} {events : List (Event I M X)}
    (hstep : P.step s e = some s') (h : Posted events s) : Posted (events ++ [e]) s' := by
  have hsent : ∀ e' ∈ s.sent, .send e'.workflowId e'.message ∈ events ++ [e] :=
    fun e' he' => List.mem_append_left _ (h.sent e' he')
  have hmessages : ∀ r ∈ s.runs, ∀ e' ∈ r.messages,
      e'.workflowId = r.workflowId ∧ .send e'.workflowId e'.message ∈ events ++ [e] :=
    fun r hr e' he' => ⟨(h.messages r hr e' he').1, List.mem_append_left _ (h.messages r hr e' he').2⟩
  cases P.step_changes hstep with
  | joined workflowId input i _ => exact ⟨hsent, hmessages⟩
  | started workflowId input _ =>
    refine ⟨hsent, fun r hr e' he' => ?_⟩
    rcases List.mem_append.mp hr with hold | hnew
    · exact hmessages r hold e' he'
    · obtain rfl := List.mem_singleton.mp hnew
      simp [Run.messages, Run.start] at he'
  | ran i e r r' d hr hmove =>
    refine ⟨hsent, fun q hq e' he' => ?_⟩
    rcases List.mem_or_eq_of_mem_set hq with hold | rfl
    · exact hmessages q hold e' he'
    · rw [hmove.messages] at he'
      rw [hmove.later.workflowId]
      exact hmessages r (List.mem_of_getElem? hr) e' he'
  | sent workflowId message addressee _ =>
    refine ⟨fun e' he' => ?_, hmessages⟩
    rcases List.mem_append.mp he' with hold | hnew
    · exact hsent e' hold
    · obtain rfl := List.mem_singleton.mp hnew
      exact List.mem_append_right _ (List.mem_singleton.mpr rfl)
  | dropped k e _ _ => exact ⟨fun e' he' => hsent e' (List.mem_of_mem_eraseIdx he'), hmessages⟩
  | delivered k e i he hopen =>
    refine ⟨fun e' he' => hsent e' (List.mem_of_mem_eraseIdx he'), fun q hq e' he' => ?_⟩
    obtain ⟨r, hr, hid, -⟩ := System.openRun_eq_some hopen
    obtain ⟨j, hj, rfl⟩ := List.mem_iff_getElem.mp hq
    have hjr : j < s.runs.length := by simpa using hj
    rw [List.getElem_modify] at he' ⊢
    split at he'
    · subst j
      obtain rfl : s.runs[i] = r := Option.some.inj ((List.getElem?_eq_getElem hjr).symm.trans hr)
      rw [if_pos rfl]
      simp only [Run.messages, Run.receive, ← List.append_assoc, List.mem_append,
        List.mem_singleton] at he'
      rcases he' with hold | rfl
      · exact hmessages _ (List.getElem_mem hjr) e' (List.mem_append.mpr hold)
      · exact ⟨hid.symm, hsent e' (List.mem_of_getElem? he)⟩
    · rw [if_neg (by assumption)]
      exact hmessages _ (List.getElem_mem hjr) e' he'
  | outside x d _ => exact ⟨hsent, hmessages⟩

/-- In a system that started without runs every message was sent. -/
theorem Posted.run {d : D} {s : System I S M A R F D α} {events : List (Event I M X)}
    (hrun : runFrom P.step (System.initial d) events = some s) : Posted events s := by
  have hinitial : Posted ([] : List (Event I M X)) (System.initial d : System I S M A R F D α) :=
    ⟨by simp [System.initial], by simp [System.initial]⟩
  exact runFrom_history P.step Posted (fun _ _ _ _ h hstep => h.step hstep) [] hrun hinitial

end Messages

section Starts

variable {P : Service I S M A R F D α X}

/-- An event starts a run only if it is a start. -/
theorem started_step {s s' : System I S M A R F D α} {e : Event I M X} {events : List (Event I M X)}
    (hstep : P.step s e = some s') (h : ∀ r ∈ s.runs, .start r.workflowId r.input ∈ events) :
    ∀ r ∈ s'.runs, .start r.workflowId r.input ∈ events ++ [e] := by
  have hsame : ∀ r' : Run I S M A R F D α, (∃ r ∈ s.runs, r.Later r') →
      .start r'.workflowId r'.input ∈ events ++ [e] := by
    intro r' ⟨r, hr, hlater⟩
    rw [hlater.workflowId, hlater.input]
    exact List.mem_append_left _ (h r hr)
  cases P.step_changes hstep with
  | joined workflowId input i _ => exact fun r hr => hsame r ⟨r, hr, .refl r⟩
  | started workflowId input _ =>
    intro r hr
    rcases List.mem_append.mp hr with hold | hnew
    · exact hsame r ⟨r, hold, .refl r⟩
    · obtain rfl := List.mem_singleton.mp hnew
      exact List.mem_append_right _ (List.mem_singleton.mpr rfl)
  | _ =>
    intro r' hr'
    obtain ⟨i, hi⟩ := List.mem_iff_getElem?.mp hr'
    obtain ⟨r, hr, hlater⟩ := earlier_of_step hstep (by simp) hi
    exact hsame r' ⟨r, List.mem_of_getElem? hr, hlater⟩

/-- In a system that started without runs every run was started with its input. -/
theorem started_run {d : D} {s : System I S M A R F D α} {events : List (Event I M X)}
    (hrun : runFrom P.step (System.initial d) events = some s) :
    ∀ r ∈ s.runs, .start r.workflowId r.input ∈ events :=
  runFrom_history P.step
    (fun (events : List (Event I M X)) (s : System I S M A R F D α) =>
      ∀ r ∈ s.runs, .start r.workflowId r.input ∈ events)
    (fun _ _ _ _ h hstep => started_step hstep h) [] hrun (by simp [System.initial])

end Starts

section Database

/-- The events whose outside changes are allowed. -/
def Event.Admissible (allowed : X → Prop) : Event I M X → Prop
  | .outside x => allowed x
  | _ => True

/-- Where everything is allowed every event is. -/
theorem Event.admissible_of_all (e : Event I M X) : e.Admissible fun _ => True := by
  cases e <;> trivial

variable (P : Service I S M A R F D α X)

/-- What every allowed change of the database keeps, and how the database moves by it. -/
structure Guarantee (allowed : X → Prop) (inv : D → Prop) (evolves : D → D → Prop) : Prop where
  refl : ∀ d, evolves d d
  trans : ∀ d d' d'', evolves d d' → evolves d' d'' → evolves d d''
  perform : ∀ a d, inv d → inv (P.perform a d).2 ∧ evolves d (P.perform a d).2
  outside : ∀ x d d', allowed x → inv d → P.outside x d = some d' → inv d' ∧ evolves d d'

/-- The record of an execution on a database from which the present one has come about. -/
structure Recorded (inv : D → Prop) (evolves : D → D → Prop) (d : D) {a : A}
    (record : Record D F (R a)) : Prop where
  performed : record = P.record a record.before
  inv : inv record.before
  step : evolves record.before record.after
  since : evolves record.after d

variable {P} {allowed : X → Prop} {inv : D → Prop} {evolves : D → D → Prop}

theorem Recorded.later (hG : Guarantee P allowed inv evolves) {d d' : D} {a : A}
    {record : Record D F (R a)} (h : Recorded P inv evolves d record) (hd : evolves d d') :
    Recorded P inv evolves d' record :=
  ⟨h.performed, h.inv, h.step, hG.trans _ _ _ h.since hd⟩

/-- What holds of the database and of everything the runs have executed. -/
structure Sound (P : Service I S M A R F D α X) (inv : D → Prop) (evolves : D → D → Prop)
    (s : System I S M A R F D α) : Prop where
  db : inv s.db
  did : ∀ r ∈ s.runs, ∀ (a : A) (record : Record D F (R a)), r.Did a record →
    Recorded P inv evolves s.db record

/-- A move of a run changes the database as an execution of an activity does, or not at all. -/
theorem Service.Moves.database (hG : Guarantee P allowed inv evolves) {d d' : D}
    {r r' : Run I S M A R F D α} {e : RunEvent} (h : P.Moves d r e d' r') (hinv : inv d) :
    inv d' ∧ evolves d d' := by
  cases h with
  | executed a next number _ => exact hG.perform a d hinv
  | executedLate k a number _ => exact hG.perform a d hinv
  | _ => exact ⟨hinv, hG.refl d⟩

/-- What a run has executed after an event some run had executed before, or executed in this event. -/
theorem did_of_step {s s' : System I S M A R F D α} {e : Event I M X} (hstep : P.step s e = some s')
    {r : Run I S M A R F D α} (hr : r ∈ s'.runs) {a : A} {record : Record D F (R a)} (hdid : r.Did a record) :
    (∃ r₀ ∈ s.runs, r₀.Did a record) ∨ record = P.record a s.db ∧ s'.db = record.after := by
  cases P.step_changes hstep with
  | joined workflowId input i _ => exact .inl ⟨r, hr, hdid⟩
  | started workflowId input _ =>
    rcases List.mem_append.mp hr with hold | hnew
    · exact .inl ⟨r, hold, hdid⟩
    · obtain rfl := List.mem_singleton.mp hnew
      obtain ⟨t, ht, -⟩ := hdid
      simp [Run.attempts, Run.start, Stage.current] at ht
  | ran i e q r' d hq hmove =>
    rcases List.mem_or_eq_of_mem_set hr with hold | rfl
    · exact .inl ⟨r, hold, hdid⟩
    · rcases hmove.did hdid with hbefore | hnow
      · exact .inl ⟨q, List.mem_of_getElem? hq, hbefore⟩
      · exact .inr hnow
  | sent workflowId message addressee _ => exact .inl ⟨r, hr, hdid⟩
  | dropped k e _ _ => exact .inl ⟨r, hr, hdid⟩
  | delivered k e i _ _ =>
    obtain ⟨j, hj, rfl⟩ := List.mem_iff_getElem.mp hr
    rw [List.getElem_modify] at hdid
    split at hdid
    · exact .inl ⟨_, List.getElem_mem _, hdid⟩
    · exact .inl ⟨_, List.getElem_mem _, hdid⟩
  | outside x d _ => exact .inl ⟨r, hr, hdid⟩

/-- Whatever a run has executed was executed in some event, on the database that this event found. -/
theorem exists_moment_of_did {d : D} {s : System I S M A R F D α} {events : List (Event I M X)}
    (hrun : runFrom P.step (System.initial d) events = some s) {r : Run I S M A R F D α} (hr : r ∈ s.runs)
    {a : A} {record : Record D F (R a)} (hdid : r.Did a record) :
    ∃ before e after mid next r', events = before ++ e :: after ∧
      runFrom P.step (System.initial d) before = some mid ∧ P.step mid e = some next ∧ r' ∈ next.runs ∧
      r'.Did a record ∧ record = P.record a mid.db := by
  obtain ⟨before, e, after, mid, next, hevents, hbefore, hstep, -, hnever, r', hr', hdid'⟩ :=
    exists_step_of_change P.step (fun s => ∃ r ∈ s.runs, r.Did a record) hrun (by simp [System.initial])
      ⟨r, hr, hdid⟩
  rcases did_of_step hstep hr' hdid' with hearlier | ⟨hrecord, -⟩
  · exact absurd hearlier hnever
  · exact ⟨before, e, after, mid, next, r', hevents, hbefore, hstep, hr', hdid', hrecord⟩

/-- An event with allowed outside changes keeps the database sound and moves it forward. -/
theorem Sound.step (hG : Guarantee P allowed inv evolves) {s s' : System I S M A R F D α}
    {e : Event I M X} (hstep : P.step s e = some s') (hallowed : e.Admissible allowed)
    (h : Sound P inv evolves s) : Sound P inv evolves s' ∧ evolves s.db s'.db := by
  have hdatabase : inv s'.db ∧ evolves s.db s'.db := by
    cases P.step_changes hstep with
    | ran i e r r' d _ hmove => exact hmove.database hG h.db
    | outside x d hd => exact hG.outside x s.db d hallowed h.db hd
    | _ => exact ⟨h.db, hG.refl _⟩
  refine ⟨⟨hdatabase.1, fun r hr a record hdid => ?_⟩, hdatabase.2⟩
  rcases did_of_step hstep hr hdid with ⟨r₀, hr₀, hbefore⟩ | ⟨rfl, hafter⟩
  · exact (h.did r₀ hr₀ a record hbefore).later hG hdatabase.2
  · exact ⟨rfl, h.db, hafter ▸ hdatabase.2, hafter ▸ hG.refl _⟩

/-- The database stays sound and moves forward through every run of allowed events. -/
theorem Sound.run (hG : Guarantee P allowed inv evolves) {s s' : System I S M A R F D α}
    {events : List (Event I M X)} (hallowed : ∀ e ∈ events, e.Admissible allowed)
    (hrun : runFrom P.step s events = some s') (h : Sound P inv evolves s) :
    Sound P inv evolves s' ∧ evolves s.db s'.db :=
  (StepsMeet.of_forall P.step s hallowed).invariant P.step
    (fun mid => Sound P inv evolves mid ∧ evolves s.db mid.db)
    (fun _ _ _ he hmid hstep =>
      have hnext := hmid.1.step hG hstep he
      ⟨hnext.1, hG.trans _ _ _ hmid.2 hnext.2⟩)
    hrun ⟨h, hG.refl _⟩

/-- A sound database with no runs is a sound system. -/
theorem Sound.initial {d : D} (h : inv d) : Sound P inv evolves (System.initial d) :=
  ⟨h, by simp [System.initial]⟩

/-- Whatever is reached from a sound database with no runs is sound. -/
theorem Sound.of_run (hG : Guarantee P allowed inv evolves) {d : D} {s : System I S M A R F D α}
    {events : List (Event I M X)} (h : inv d) (hallowed : ∀ e ∈ events, e.Admissible allowed)
    (hrun : runFrom P.step (System.initial d) events = some s) : Sound P inv evolves s :=
  (Sound.run hG hallowed hrun (Sound.initial h)).1

/-- Whatever a run has executed was performed on the database it found. -/
theorem performed_of_did {d : D} {s : System I S M A R F D α} {events : List (Event I M X)}
    (hrun : runFrom P.step (System.initial d) events = some s) {r : Run I S M A R F D α}
    (hr : r ∈ s.runs) {a : A} {record : Record D F (R a)} (hdid : r.Did a record) :
    record = P.record a record.before := by
  have hG : Guarantee P (fun _ => True) (fun _ => True) fun _ _ => True :=
    ⟨fun _ => trivial, fun _ _ _ _ _ => trivial, fun _ _ _ => ⟨trivial, trivial⟩,
      fun _ _ _ _ _ _ => ⟨trivial, trivial⟩⟩
  exact ((Sound.of_run hG trivial (fun e _ => e.admissible_of_all) hrun).did r hr a record hdid).performed

/-- A change of the database comes from outside or from the execution of an attempt. -/
theorem exists_execution_of_change {s s' : System I S M A R F D α} {e : Event I M X}
    (hstep : P.step s e = some s') (hne : s'.db ≠ s.db) :
    (∃ x, e = .outside x ∧ P.outside x s.db = some s'.db) ∨
      ∃ i e' r r' a, e = .run i e' ∧ s.runs[i]? = some r ∧ s'.runs[i]? = some r' ∧
        (∃ t ∈ r.attempts, t.work = ⟨a, none⟩) ∧ r'.Did a (P.record a s.db) ∧
        s'.db = (P.perform a s.db).2 := by
  cases P.step_changes hstep with
  | ran i e r r' d hr hmove =>
    have hget : (s.runs.set i r')[i]? = some r' :=
      List.getElem?_set_self (List.getElem?_eq_some_iff.mp hr).1
    cases hmove with
    | executed a next number hstage =>
      have hcurrent : ⟨a, number, .inFlight, none⟩ ∈ r.attempts :=
        List.mem_append_right _ (by simp [hstage, Stage.current])
      have hdid : (⟨a, number, .inFlight, some (P.record a s.db)⟩ : Attempt A R F D) ∈
          (r.await a next number (some (P.record a s.db))).attempts :=
        List.mem_append_right _ (by simp [Run.await, Stage.current])
      exact .inr ⟨i, _, r, _, a, rfl, hr, hget, ⟨_, hcurrent, rfl⟩, ⟨_, hdid, rfl⟩, rfl⟩
    | executedLate k a number hk =>
      have hpast : ⟨a, number, .lost, none⟩ ∈ r.attempts :=
        List.mem_append_left _ (List.mem_of_getElem? hk)
      have hdid : (⟨a, number, .lost, some (P.record a s.db)⟩ : Attempt A R F D) ∈
          (r.executed k ⟨a, number, .lost, some (P.record a s.db)⟩).attempts :=
        List.mem_append_left _ (List.mem_set (List.getElem?_eq_some_iff.mp hk).1 _)
      exact .inr ⟨i, _, r, _, a, rfl, hr, hget, ⟨_, hpast, rfl⟩, ⟨_, hdid, rfl⟩, rfl⟩
    | _ => exact absurd rfl hne
  | outside x d hd => exact .inl ⟨x, rfl, hd⟩
  | _ => exact absurd rfl hne

end Database

end DurableExecution
