import Mathlib.Order.Basic
import Mathlib.Order.Max
import Mathlib.Logic.Relation
import Mathlib.Data.List.Infix
import Mathlib.Data.Nat.Notation

/-!
# Finite runs of a partial labelled step function

A system is a step function `step : S → L → Option S`; `none` means that the label is not
enabled in that state. A run takes a list of labels in order. The rules below turn what one
step preserves into what a whole run preserves: an invariant, also one of the labels taken so far,
an invariant of the steps that meet a condition, how often a run passes states of a kind, and the
step at which a fact first appears. And where the surroundings go on choosing labels that are enabled and leave
less to do, a run comes to its end.
-/

namespace LabelledRun

variable {S L : Type*} (step : S → L → Option S)

/-- Take the labels in order, failing at the first one that is not enabled. -/
def runFrom : S → List L → Option S
  | s, [] => some s
  | s, a :: rest => (step s a).bind fun s' => runFrom s' rest

@[simp] theorem runFrom_nil (s : S) : runFrom step s [] = some s := rfl

/-- A run that starts with a label is that step followed by a run from the next state. -/
theorem runFrom_cons_eq_some {s s' : S} {a : L} {rest : List L} :
    runFrom step s (a :: rest) = some s' ↔
      ∃ mid, step s a = some mid ∧ runFrom step mid rest = some s' :=
  Option.bind_eq_some_iff

/-- A run over concatenated labels passes through the state after the first part. -/
theorem runFrom_append (s : S) (first second : List L) :
    runFrom step s (first ++ second) =
      (runFrom step s first).bind fun mid => runFrom step mid second := by
  induction first generalizing s with
  | nil => rfl
  | cons a first ih =>
    simp only [List.cons_append, runFrom, Option.bind_assoc]
    congr 1
    funext mid
    exact ih mid

/-- A run of one label is that step. -/
theorem runFrom_singleton (s : S) (a : L) : runFrom step s [a] = step s a := by
  simp [runFrom]

/-- Split a successful run at any point of its label list. -/
theorem runFrom_append_eq_some {s s' : S} {first second : List L} :
    runFrom step s (first ++ second) = some s' ↔
      ∃ mid, runFrom step s first = some mid ∧ runFrom step mid second = some s' := by
  rw [runFrom_append, Option.bind_eq_some_iff]

/-- The states that a run passes, up to the first label that is not enabled. -/
def trace : S → List L → List S
  | s, [] => [s]
  | s, a :: rest => s :: ((step s a).map fun s' => trace s' rest).getD []

/-- A run passes its start. -/
theorem mem_trace_self (s : S) (labels : List L) : s ∈ trace step s labels := by
  cases labels <;> exact List.mem_cons_self

/-- A state that a run passes is reached by a part of its labels. -/
theorem exists_runFrom_of_mem_trace {s t : S} {labels : List L} (h : t ∈ trace step s labels) :
    ∃ before after, labels = before ++ after ∧ runFrom step s before = some t := by
  induction labels generalizing s with
  | nil => exact ⟨[], [], rfl, by simpa [trace, eq_comm] using h⟩
  | cons a rest ih =>
    rcases List.mem_cons.mp h with rfl | h
    · exact ⟨[], a :: rest, rfl, rfl⟩
    · cases hstep : step s a with
      | none => exact absurd h (by simp [hstep])
      | some mid =>
        obtain ⟨before, after, rfl, hrun⟩ := ih (s := mid) (by simpa [hstep] using h)
        exact ⟨a :: before, after, rfl, (runFrom_cons_eq_some step).mpr ⟨mid, hstep, hrun⟩⟩

section Invariants

/-- A relation between a state and the labels taken so far, kept by every step, holds after a run. -/
theorem runFrom_history (inv : List L → S → Prop)
    (hstep : ∀ past s a s', inv past s → step s a = some s' → inv (past ++ [a]) s')
    {s s' : S} (past : List L) {labels : List L} (hrun : runFrom step s labels = some s')
    (hinv : inv past s) : inv (past ++ labels) s' := by
  induction labels generalizing s past with
  | nil =>
    simp only [runFrom_nil, Option.some.injEq] at hrun
    simpa [← hrun] using hinv
  | cons a rest ih =>
    obtain ⟨mid, hmid, hrest⟩ := (runFrom_cons_eq_some step).mp hrun
    simpa using ih (past ++ [a]) hrest (hstep past s a mid hinv hmid)

/-- An invariant kept by every step holds after every run. -/
theorem runFrom_invariant (inv : S → Prop) (hstep : ∀ s a s', inv s → step s a = some s' → inv s')
    {s s' : S} {labels : List L} (hrun : runFrom step s labels = some s') (hinv : inv s) : inv s' :=
  runFrom_history step (fun _ => inv) (fun _ => hstep) [] hrun hinv

/-- Every step of a run meets a condition on its source state and label. -/
def StepsMeet (condition : S → L → Prop) : S → List L → Prop
  | _, [] => True
  | s, a :: rest => condition s a ∧ ∀ mid, step s a = some mid → StepsMeet condition mid rest

instance decidableStepsMeet (condition : S → L → Prop) [∀ s a, Decidable (condition s a)] :
    ∀ (s : S) (labels : List L), Decidable (StepsMeet step condition s labels)
  | _, [] => .isTrue trivial
  | s, a :: rest =>
    match hstep : step s a with
    | none => decidable_of_iff (condition s a) (by simp [StepsMeet, hstep])
    | some mid =>
      have := decidableStepsMeet condition mid rest
      decidable_of_iff (condition s a ∧ StepsMeet step condition mid rest) (by simp [StepsMeet, hstep])

/-- A condition on labels alone is met when every label meets it. -/
theorem StepsMeet.of_forall {admissible : L → Prop} {labels : List L} (s : S)
    (h : ∀ a ∈ labels, admissible a) : StepsMeet step (fun _ => admissible) s labels := by
  induction labels generalizing s with
  | nil => trivial
  | cons a rest ih =>
    exact ⟨h a List.mem_cons_self, fun mid _ => ih mid fun b hb => h b (List.mem_cons_of_mem _ hb)⟩

/-- Both parts of a run whose steps meet a condition do so. -/
theorem StepsMeet.of_append {condition : S → L → Prop} {s mid : S} {first second : List L}
    (hmeet : StepsMeet step condition s (first ++ second)) (hrun : runFrom step s first = some mid) :
    StepsMeet step condition s first ∧ StepsMeet step condition mid second := by
  induction first generalizing s with
  | nil =>
    obtain rfl := Option.some.inj hrun
    exact ⟨trivial, hmeet⟩
  | cons a rest ih =>
    obtain ⟨next, hnext, hrest⟩ := (runFrom_cons_eq_some step).mp hrun
    have hlater := ih (hmeet.2 next hnext) hrest
    refine ⟨⟨hmeet.1, fun next' hnext' => ?_⟩, hlater.2⟩
    obtain rfl := Option.some.inj (hnext.symm.trans hnext')
    exact hlater.1

/-- An invariant kept by the steps that meet a condition holds after a run all of whose steps do. -/
theorem StepsMeet.invariant {condition : S → L → Prop} (inv : S → Prop)
    (hstep : ∀ s a s', condition s a → inv s → step s a = some s' → inv s')
    {s s' : S} {labels : List L} (hmeet : StepsMeet step condition s labels)
    (hrun : runFrom step s labels = some s') (hinv : inv s) : inv s' := by
  induction labels generalizing s with
  | nil =>
    simp only [runFrom_nil, Option.some.injEq] at hrun
    exact hrun ▸ hinv
  | cons a rest ih =>
    obtain ⟨mid, hmid, hrest⟩ := (runFrom_cons_eq_some step).mp hrun
    exact ih (hmeet.2 mid hmid) hrest (hstep s a mid hmeet.1 hinv hmid)

/-- Where the steps that meet a condition keep an invariant that makes a state good, and any other step ends in a state
that is not good, a run passes good states only exactly if all its steps meet the condition. -/
theorem forall_mem_trace_iff {condition : S → L → Prop} (inv good : S → Prop) (hgood : ∀ s, inv s → good s)
    (hkeep : ∀ s a s', condition s a → inv s → step s a = some s' → inv s')
    (hbreak : ∀ s a s', ¬ condition s a → inv s → step s a = some s' → ¬ good s')
    {s s' : S} {labels : List L} (hrun : runFrom step s labels = some s') (hinv : inv s) :
    (∀ t ∈ trace step s labels, good t) ↔ StepsMeet step condition s labels := by
  induction labels generalizing s with
  | nil => exact iff_of_true (fun t ht => by simpa [trace] using (List.mem_singleton.mp ht) ▸ hgood s hinv) trivial
  | cons a rest ih =>
    obtain ⟨mid, hmid, hrest⟩ := (runFrom_cons_eq_some step).mp hrun
    have htrace : trace step s (a :: rest) = s :: trace step mid rest := by simp [trace, hmid]
    rw [htrace, List.forall_mem_cons]
    constructor
    · intro hall
      have hmeets : condition s a := by
        by_contra hnot
        exact hbreak s a mid hnot hinv hmid (hall.2 mid (mem_trace_self step mid rest))
      refine ⟨hmeets, fun next hnext => ?_⟩
      obtain rfl := Option.some.inj (hmid.symm.trans hnext)
      exact (ih hrest (hkeep s a mid hmeets hinv hmid)).mp hall.2
    · intro hmeet
      exact ⟨hgood s hinv, (ih hrest (hkeep s a mid hmeet.1 hinv hmid)).mpr (hmeet.2 mid hmid)⟩

end Invariants

section Budgets

/-- Where every step out of a state of a kind pays one out of a budget, and no step raises it, a run
passes no more such states than the budget of its start. -/
theorem countP_trace_le (inv : S → Prop) (kind : S → Bool) (budget : S → ℕ)
    (hkeep : ∀ s a s', inv s → step s a = some s' → inv s')
    (hpay : ∀ s a s', inv s → step s a = some s' → (kind s).toNat + budget s' ≤ budget s)
    (hend : ∀ s, inv s → (kind s).toNat ≤ budget s)
    {s : S} (labels : List L) (hinv : inv s) : (trace step s labels).countP kind ≤ budget s := by
  have hcount : ∀ t : S, ∀ states : List S,
      (t :: states).countP kind = (kind t).toNat + states.countP kind := by
    intro t states
    cases hkind : kind t <;> simp [hkind, Nat.add_comm]
  induction labels generalizing s with
  | nil => simpa [trace, hcount] using hend s hinv
  | cons a rest ih =>
    rw [trace, hcount]
    cases hstep : step s a with
    | none => simpa using hend s hinv
    | some mid =>
      have hpaid := hpay s a mid hinv hstep
      have hrest := ih (hkeep s a mid hinv hstep)
      simp only [Option.map_some, Option.getD_some]
      omega

end Budgets

section Endings

/-- Where the chosen label is enabled in every state that is not done, and its step leaves less to do, the run of
chosen labels comes to a state that is done. -/
theorem exists_chosen_run (inv done : S → Prop) (choose : S → L) (left : S → ℕ)
    (hkeep : ∀ s a s', inv s → step s a = some s' → inv s')
    (hgoes : ∀ s, inv s → ¬ done s → ∃ s', step s (choose s) = some s' ∧ left s' < left s)
    {s : S} (hinv : inv s) :
    ∃ labels s', runFrom step s labels = some s' ∧ done s' ∧ StepsMeet step (fun s a => a = choose s) s labels := by
  induction hn : left s using Nat.strong_induction_on generalizing s with
  | h n ih =>
    by_cases hdone : done s
    · exact ⟨[], s, rfl, hdone, trivial⟩
    · obtain ⟨mid, hstep, hless⟩ := hgoes s hinv hdone
      obtain ⟨labels, s', hrun, hend, hmeet⟩ := ih (left mid) (hn ▸ hless) (hkeep s _ mid hinv hstep) rfl
      refine ⟨choose s :: labels, s', (runFrom_cons_eq_some step).mpr ⟨mid, hstep, hrun⟩, hend, rfl, ?_⟩
      intro mid' hstep'
      obtain rfl := Option.some.inj (hstep.symm.trans hstep')
      exact hmeet

end Endings

section FirstChange

/-- A fact that holds at the end of a run but not at its start was made true by one of its steps. -/
theorem exists_step_of_change (fact : S → Prop) {s s' : S} {labels : List L}
    (hrun : runFrom step s labels = some s') (hstart : ¬ fact s) (hend : fact s') :
    ∃ before a after mid next, labels = before ++ a :: after ∧
      runFrom step s before = some mid ∧ step mid a = some next ∧
      runFrom step next after = some s' ∧ ¬ fact mid ∧ fact next := by
  induction labels generalizing s with
  | nil =>
    simp only [runFrom_nil, Option.some.injEq] at hrun
    exact absurd (hrun ▸ hend) hstart
  | cons a rest ih =>
    obtain ⟨mid, hmid, hrest⟩ := (runFrom_cons_eq_some step).mp hrun
    by_cases hfact : fact mid
    · exact ⟨[], a, rest, s, mid, rfl, rfl, hmid, hrest, hstart, hfact⟩
    · obtain ⟨before, b, after, t, next, rfl, hbefore, hstep, hafter, hnot, hyes⟩ := ih hrest hfact
      refine ⟨a :: before, b, after, t, next, rfl, ?_, hstep, hafter, hnot, hyes⟩
      exact (runFrom_cons_eq_some step).mpr ⟨mid, hmid, hbefore⟩

end FirstChange

end LabelledRun
