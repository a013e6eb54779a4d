import Agentops.Workflow.CancelRuns
import Agentops.Workflow.RefundRuns

/-!
# What the runs of the order workflows have done to the tables

The invariants of the runs say which activities a run attempts; a record says on which database
an attempt was executed. Put together: what a loaded order says, what an execution wrote, and
that every new refunds row was written by an execution of a refund run that was cleared for it.
-/

namespace Agentops

open DurableExecution LabelledRun

/-- An attempt of an activity. -/
abbrev OrderAttempt := Attempt OrderActivity OrderActivity.Reply Failure Database

/-- What an execution of the first activity of a refund has found and done. -/
abbrev LoadRecord := Record Database Failure LoadedOrder

/-- What an execution of the second one has found and done. -/
abbrev ExecuteRecord := Record Database Failure ExecutedRefund

/-- What an execution of a cancellation has found and done. -/
abbrev CancelRecord := Record Database Failure CancellationResult

section Attempts

variable {inp : OrderActionInput} {r : OrderRun} {t : OrderAttempt}

/-- A cancel run attempts its cancellation and nothing else. -/
theorem CancelOrderWorkflow.Invariant.attempted (h : Invariant inp r) (ht : t ∈ r.attempts) :
    t.activity = .cancelOrder inp := by
  rcases List.mem_append.mp ht with hpast | hcurrent
  · exact h.tried _ ⟨t, hpast, rfl⟩
  · cases h.point with
    | cancelling number record hstage _ _ =>
      rw [hstage] at hcurrent
      exact List.mem_singleton.mp hcurrent ▸ rfl
    | _ => simp_all [Stage.current]

namespace RefundWorkflow

/-- A refund run attempts to load its order, and to execute its refund once it is cleared for it. -/
theorem Invariant.attempted (h : Invariant inp r) (ht : t ∈ r.attempts) :
    t.activity = .loadRefundOrder inp ∨
      t.activity = .executeRefund inp ∧ ∃ order, Cleared inp r order := by
  rcases List.mem_append.mp ht with hpast | hcurrent
  · rcases h.tried _ ⟨t, hpast, rfl⟩ with hload | hexecute
    · exact .inl hload
    · exact .inr ⟨hexecute, h.cleared (hexecute ▸ ⟨t, hpast, rfl⟩)⟩
  · cases h.point with
    | loading number record hstage _ _ _ =>
      rw [hstage] at hcurrent
      exact .inl (List.mem_singleton.mp hcurrent ▸ rfl)
    | executing order number record hstage hcleared _ _ =>
      rw [hstage] at hcurrent
      exact .inr ⟨List.mem_singleton.mp hcurrent ▸ rfl, order, hcleared⟩
    | _ => simp_all [Stage.current]

/-- A run that is over and has not tried to execute its refund has only loaded its order. -/
theorem Invariant.only_loaded (h : Invariant inp r) (hclosed : r.stage.isOpen = false)
    (htried : ¬ r.TriedBefore (.executeRefund inp)) (ht : t ∈ r.attempts) :
    t.activity = .loadRefundOrder inp := by
  have hcurrent : r.stage.current = [] := by
    cases hstage : r.stage <;> simp_all [Stage.current, Stage.isOpen]
  have hpast : t ∈ r.past := by simpa [Run.attempts, hcurrent] using ht
  rcases h.tried _ ⟨t, hpast, rfl⟩ with hload | hexecute
  · exact hload
  · exact absurd ⟨t, hpast, hexecute⟩ htried

end RefundWorkflow

/-- What an execution did is one of the attempts. -/
theorem activity_of_did {a : OrderActivity} {record : Record Database Failure a.Reply}
    (h : r.Did a record) : ∃ t ∈ r.attempts, t.activity = a :=
  have ⟨t, ht, hwork⟩ := h
  ⟨t, ht, congrArg Sigma.fst hwork⟩

open RefundWorkflow in
/-- A run that attempts to execute a refund is a refund run that is cleared for it. -/
theorem cleared_of_kept (hcancel : ∀ inp, r.input = .cancelOrder inp → CancelOrderWorkflow.Invariant inp r)
    (hrefund : ∀ inp, r.input = .refund inp → Invariant inp r) (ht : t ∈ r.attempts)
    (hactivity : t.activity = .executeRefund inp) : r.input = .refund inp ∧ ∃ order, Cleared inp r order := by
  cases hinput : r.input with
  | cancelOrder inp' =>
    have hcancelled := (hcancel inp' hinput).attempted ht
    exact absurd (hactivity.symm.trans hcancelled) (by simp)
  | refund inp' =>
    rcases (hrefund inp' hinput).attempted ht with hload | ⟨hexecute, hcleared⟩
    · exact absurd (hactivity.symm.trans hload) (by simp)
    · obtain rfl := OrderActivity.executeRefund.inj (hactivity.symm.trans hexecute)
      exact ⟨rfl, hcleared⟩

open RefundWorkflow in
/-- So is every such run of the system. -/
theorem cleared_of_attempted {db : Database} {events : List OrderEvent} {s : OrderSystem}
    (hrun : runFrom orderService.step (System.initial db) events = some s) (hr : r ∈ s.runs)
    (ht : t ∈ r.attempts) (hactivity : t.activity = .executeRefund inp) :
    r.input = .refund inp ∧ ∃ order, Cleared inp r order :=
  cleared_of_kept (CancelOrderWorkflow.kept.holds hrun r hr) (kept.holds hrun r hr) ht hactivity

end Attempts

section Records

variable {db : Database} {evolves : Database → Database → Prop} {inp : OrderActionInput}

/-- A reply to a load describes the order on the database of the load. -/
theorem loaded_of_recorded {record : LoadRecord}
    (h : Recorded orderService StoreSound evolves db (a := .loadRefundOrder inp) record) :
    record.after = record.before ∧ LoadOutcome record.before inp record.reply := by
  obtain ⟨reply, hrun, hout⟩ := loadRefundOrderActivity_outcome h.inv inp
  have hafter : record.after = (loadRefundOrderActivity inp record.before).2 :=
    congrArg Record.after h.performed
  have hreply : record.reply = (loadRefundOrderActivity inp record.before).1 :=
    congrArg Record.reply h.performed
  rw [hrun] at hafter hreply
  exact ⟨hafter, hreply ▸ hout⟩

/-- An execution of a refund did one of its cases on the database it found. -/
theorem executed_of_recorded {record : ExecuteRecord}
    (h : Recorded orderService StoreSound evolves db (a := .executeRefund inp) record) :
    ExecuteOutcome record.before inp (record.reply, record.after) := by
  have hout := executeRefundActivity_outcome h.inv inp
  have hrun : (record.reply, record.after) = executeRefundActivity inp record.before := by
    rw [congrArg Record.after h.performed, congrArg Record.reply h.performed]
    rfl
  exact hrun ▸ hout

end Records

section Insertions

/-- In this event an execution by the refund run `i` inserts the row. -/
structure Inserts (s : OrderSystem) (e : OrderEvent) (s' : OrderSystem) (row : Refund) (i : ℕ)
    (r : OrderRun) (inp : OrderActionInput) : Prop where
  event : ∃ e', e = .run i e'
  run : s.runs[i]? = some r
  input : r.input = .refund inp
  executed : ∃ r' reply, s'.runs[i]? = some r' ∧ r'.Did (.executeRefund inp) ⟨s.db, reply, s'.db⟩
  inserted : s'.db.refunds = s.db.refunds ++ [row]
  orderId : row.orderId = inp.orderNumber

variable {db : Database} {events : List OrderEvent} {s s' : OrderSystem} {e : OrderEvent}

/-- Which run it is can be told from the event. -/
theorem Inserts.unique {row row' : Refund} {i i' : ℕ} {r r' : OrderRun} {inp inp' : OrderActionInput}
    (h : Inserts s e s' row i r inp) (h' : Inserts s e s' row' i' r' inp') :
    i = i' ∧ r = r' ∧ inp = inp' := by
  obtain ⟨x, rfl⟩ := h.event
  obtain ⟨x', hevent⟩ := h'.event
  obtain ⟨rfl, -⟩ := Event.run.inj hevent
  obtain rfl := Option.some.inj (h.run.symm.trans h'.run)
  exact ⟨rfl, rfl, WorkflowInput.refund.inj (h.input.symm.trans h'.input)⟩

/-- The row was not there before. -/
theorem Inserts.new {row : Refund} {i : ℕ} {r : OrderRun} {inp : OrderActionInput}
    (h : Inserts s e s' row i r inp) (hschema : s'.db.Schema) : row ∉ s.db.refunds := by
  intro hold
  have hunique := hschema.refundsOrder
  rw [h.inserted] at hunique
  simp only [KeyedTable.Unique, List.map_append, List.nodup_append] at hunique
  exact hunique.2.2 _ (List.mem_map_of_mem hold) _ (by simp) rfl

open RefundWorkflow in
/-- A new refunds row was inserted by a run that was cleared for it, with the order's total. -/
theorem exists_inserts (hrun : runFrom orderService.step (System.initial db) events = some s)
    (hsound : StoreSound s.db) (hstep : orderService.step s e = some s') {row : Refund}
    (hrow : row ∈ s'.db.refunds) (hnew : row ∉ s.db.refunds) :
    ∃ i r inp order o, Inserts s e s' row i r inp ∧ Cleared inp r order ∧
      s.db.findOrder inp.orderNumber inp.requestedBy = some o ∧ row.amount.cents = s.db.total o := by
  have hne : s'.db ≠ s.db := fun heq => hnew (heq ▸ hrow)
  rcases exists_execution_of_change hstep hne with
    ⟨x, rfl, hx⟩ | ⟨i, e', r, r', a, rfl, hr, hr', ⟨t, ht, hwork⟩, hdid, hdb⟩
  · rw [Outside.refunds hsound.schema hx] at hrow
    exact absurd hrow hnew
  · have hmem := List.mem_of_getElem? hr
    have hactivity : t.activity = a := congrArg Sigma.fst hwork
    cases a with
    | cancelOrder inp' =>
      obtain ⟨result, db', hcancel, hout⟩ := cancelOrderActivity_outcome s.db inp'
      have hafter : s'.db = db' := hdb.trans (congrArg Prod.snd hcancel)
      rw [hafter] at hrow
      cases hout <;> exact absurd hrow hnew
    | loadRefundOrder inp' =>
      have hsame : s'.db = s.db := hdb.trans (loadRefundOrderActivity_unchanged s.db inp')
      exact absurd hsame hne
    | executeRefund inp' =>
      have hexecuted : ∃ reply, r'.Did (.executeRefund inp') ⟨s.db, reply, s'.db⟩ :=
        ⟨(orderService.perform (.executeRefund inp') s.db).1, by rw [hdb]; exact hdid⟩
      have hout := executeRefundActivity_outcome hsound inp'
      change s'.db = (executeRefundActivity inp' s.db).2 at hdb
      generalize executeRefundActivity inp' s.db = out at hout hdb
      cases hout with
      | settled o amount hfind hnone hst hamount hkey =>
        rw [hdb] at hrow
        rcases List.mem_append.mp hrow with hold | hinserted
        · exact absurd hold hnew
        · obtain rfl := List.mem_singleton.mp hinserted
          obtain ⟨hinput, order, hcleared⟩ := cleared_of_attempted hrun hmem ht hactivity
          obtain ⟨reply, hexecuted⟩ := hexecuted
          exact ⟨i, r, inp', order, o, ⟨⟨e', rfl⟩, hr, hinput, ⟨r', reply, hr', hexecuted⟩,
            congrArg Database.refunds hdb, rfl⟩, hcleared, hfind, hamount⟩
      | _ => exact absurd hdb hne

/-- When one more event of a run makes a first refunds row appear, that event inserts it. -/
theorem exists_inserts_of_first_row (hdb : StoreSound db) {i : ℕ} {e' : RunEvent} {cents : ℕ}
    (hbefore : (runFrom orderService.step (System.initial db) events).map (fun s => s.db.refunds) =
      some [])
    (hafter : (runFrom orderService.step (System.initial db) (events ++ [.run i e'])).map
      (fun s => s.db.refunds.map fun row => row.amount.cents) = some [cents]) :
    ∃ s s' row r inp, runFrom orderService.step (System.initial db) events = some s ∧
      orderService.step s (.run i e') = some s' ∧ Inserts s (.run i e') s' row i r inp ∧
      row.amount.cents = cents := by
  obtain ⟨s', hrun', hrefunds'⟩ := Option.map_eq_some_iff.mp hafter
  obtain ⟨s, hrun, hlast⟩ := (runFrom_append_eq_some _).mp hrun'
  obtain ⟨mid, hstep, hmid⟩ := (runFrom_cons_eq_some _).mp hlast
  obtain rfl : mid = s' := Option.some.inj hmid
  have hrefunds : s.db.refunds = [] := by simpa [hrun] using hbefore
  have hsound := sound_of_run hdb hrun
  have hcents : cents ∈ mid.db.refunds.map fun row => row.amount.cents := by simp [hrefunds']
  obtain ⟨row, hrow, hamount⟩ := List.mem_map.mp hcents
  obtain ⟨j, r, inp, order, o, hinserts, -⟩ := exists_inserts hrun hsound.db hstep hrow (by simp [hrefunds])
  obtain ⟨x, hevent⟩ := hinserts.event
  obtain ⟨rfl, -⟩ := Event.run.inj hevent
  exact ⟨s, mid, row, r, inp, hrun, hstep, hinserts, hamount⟩

end Insertions

end Agentops
