import Agentops.Foundations.LabelledRun

/-!
# Runs that follow other runs

A system follows another one along a relation of their states if every step of it can be matched by steps of the other.
Then every run of it is matched by a run. And steps that change nothing can be left out of a run.
-/

namespace LabelledRun

variable {S L T M : Type*}

/-- Every step of the first system is matched by some steps of the second, which keep the states related. -/
def Follows (step : S → L → Option S) (step' : T → M → Option T) (related : S → T → Prop) : Prop :=
  ∀ s t a s', related s t → step s a = some s' → ∃ labels t', runFrom step' t labels = some t' ∧ related s' t'

variable {step : S → L → Option S} {step' : T → M → Option T} {related : S → T → Prop}

/-- A run of a system that follows another one is matched by a run of the other. -/
theorem Follows.run (h : Follows step step' related) {s s' : S} {t : T} {labels : List L}
    (hrun : runFrom step s labels = some s') (hrelated : related s t) :
    ∃ labels' t', runFrom step' t labels' = some t' ∧ related s' t' := by
  induction labels generalizing s t with
  | nil =>
    obtain rfl := Option.some.inj hrun
    exact ⟨[], t, rfl, hrelated⟩
  | cons a rest ih =>
    obtain ⟨mid, hmid, hrest⟩ := (runFrom_cons_eq_some step).mp hrun
    obtain ⟨first, t', hfirst, hmatched⟩ := h s t a mid hrelated hmid
    obtain ⟨second, t'', hsecond, hend⟩ := ih hrest hmatched
    exact ⟨first ++ second, t'', (runFrom_append_eq_some step').mpr ⟨t', hfirst, hsecond⟩, hend⟩

/-- Labels whose steps change nothing can be left out of a run. -/
theorem runFrom_filter {condition : L → Prop} {inv : S → Prop} {idle : L → Bool}
    (hkeep : ∀ s a s', condition a → inv s → step s a = some s' → inv s')
    (hidle : ∀ s a s', inv s → idle a = true → step s a = some s' → s' = s) {s s' : S} {labels : List L}
    (hmeet : ∀ a ∈ labels, condition a) (hinv : inv s) (hrun : runFrom step s labels = some s') :
    runFrom step s (labels.filter fun a => !idle a) = some s' := by
  induction labels generalizing s with
  | nil => exact hrun
  | cons a rest ih =>
    obtain ⟨mid, hmid, hrest⟩ := (runFrom_cons_eq_some step).mp hrun
    have hlater := ih (fun b hb => hmeet b (List.mem_cons_of_mem _ hb))
      (hkeep s a mid (hmeet a List.mem_cons_self) hinv hmid) hrest
    cases ha : idle a with
    | true =>
      obtain rfl := hidle s a mid hinv ha hmid
      simpa [ha] using hlater
    | false =>
      rw [List.filter_cons_of_pos (by simp [ha])]
      exact (runFrom_cons_eq_some step).mpr ⟨mid, hmid, hlater⟩

end LabelledRun
