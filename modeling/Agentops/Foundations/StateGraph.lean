import Agentops.Foundations.LabelledRun
import Mathlib.Data.Nat.Notation

/-!
# State graphs

A state graph runs one node after another over a shared state. Running a node takes an outcome
that its surroundings choose (what a model answers, what a tool returns); the node updates the
state or raises. The edge out of a node is chosen on the updated state. When choosing the edge
raises, the update is lost with it. A run has a limited number of supersteps.
-/

/-- Nodes `N` over a state `S`, run with outcomes `O`. The outer `none` of `run` rejects an outcome
that the node cannot have, and its inner `none` raises. The outer `none` of `next` raises, and its
inner `none` is the end. -/
structure StateGraph (N S O : Type) where
  entry : N
  run : N → S → O → Option (Option S)
  next : N → S → Option (Option N)

namespace StateGraph

/-- Where a run of the graph stands. -/
inductive Place (N : Type)
  | node (n : N)
  | finished
  | raised
  | outOfSteps
  deriving DecidableEq, Repr

structure Position (N S : Type) where
  place : Place N
  state : S
  supersteps : ℕ

variable {N S O : Type} (G : StateGraph N S O) (limit : ℕ)

/-- A run that has not begun. -/
def start (s : S) : Position N S := ⟨.node G.entry, s, 0⟩

/-- One superstep. -/
def step (p : Position N S) (o : O) : Option (Position N S) :=
  match p.place with
  | .node n =>
    if limit ≤ p.supersteps then some { p with place := .outOfSteps }
    else match G.run n p.state o with
      | none => none
      | some none => some ⟨.raised, p.state, p.supersteps + 1⟩
      | some (some s) =>
        match G.next n s with
        | none => some ⟨.raised, p.state, p.supersteps + 1⟩
        | some none => some ⟨.finished, s, p.supersteps + 1⟩
        | some (some m) => some ⟨.node m, s, p.supersteps + 1⟩
  | _ => none

/-- What a superstep can come to. -/
inductive Takes (p : Position N S) (o : O) : Position N S → Prop
  | outOfSteps (n : N) (h : p.place = .node n) (hlimit : limit ≤ p.supersteps) :
      Takes p o { p with place := .outOfSteps }
  | raised (n : N) (h : p.place = .node n) (hlimit : p.supersteps < limit) :
      Takes p o ⟨.raised, p.state, p.supersteps + 1⟩
  | finished (n : N) (s : S) (h : p.place = .node n) (hlimit : p.supersteps < limit)
      (hrun : G.run n p.state o = some (some s)) (hnext : G.next n s = some none) :
      Takes p o ⟨.finished, s, p.supersteps + 1⟩
  | moved (n : N) (s : S) (m : N) (h : p.place = .node n) (hlimit : p.supersteps < limit)
      (hrun : G.run n p.state o = some (some s)) (hnext : G.next n s = some (some m)) :
      Takes p o ⟨.node m, s, p.supersteps + 1⟩

/-- Every superstep is one of these. -/
theorem step_takes {p p' : Position N S} {o : O} (h : G.step limit p o = some p') :
    G.Takes limit p o p' := by
  cases hplace : p.place with
  | node n =>
    simp only [step, hplace] at h
    by_cases hlimit : limit ≤ p.supersteps
    · rw [if_pos hlimit] at h
      exact Option.some.inj h ▸ .outOfSteps n hplace hlimit
    · rw [if_neg hlimit] at h
      have hbelow : p.supersteps < limit := Nat.lt_of_not_le hlimit
      cases hrun : G.run n p.state o with
      | none => simp [hrun] at h
      | some updated =>
        cases updated with
        | none =>
          simp only [hrun, Option.some.injEq] at h
          exact h ▸ .raised n hplace hbelow
        | some s =>
          cases hnext : G.next n s with
          | none =>
            simp only [hrun, hnext, Option.some.injEq] at h
            exact h ▸ .raised n hplace hbelow
          | some target =>
            cases target with
            | none =>
              simp only [hrun, hnext, Option.some.injEq] at h
              exact h ▸ .finished n s hplace hbelow hrun hnext
            | some m =>
              simp only [hrun, hnext, Option.some.injEq] at h
              exact h ▸ .moved n s m hplace hbelow hrun hnext
  | _ => simp [step, hplace] at h

/-- At a node that can have the outcome, a superstep is taken. -/
theorem exists_step {p : Position N S} {o : O} {n : N} (hplace : p.place = .node n) (hrun : G.run n p.state o ≠ none) :
    ∃ p', G.step limit p o = some p' := by
  simp only [step, hplace]
  by_cases hlimit : limit ≤ p.supersteps
  · exact ⟨_, if_pos hlimit⟩
  · rw [if_neg hlimit]
    cases hout : G.run n p.state o with
    | none => exact absurd hout hrun
    | some updated =>
      cases updated with
      | none => exact ⟨_, rfl⟩
      | some s =>
        cases hnext : G.next n s with
        | none => simp only [hnext, Option.some.injEq, exists_eq']
        | some next => cases next <;> simp only [hnext, Option.some.injEq, exists_eq']

/-- A superstep raises when its node does, or the choice of the edge out of it. -/
theorem exists_raise_of_step {p p' : Position N S} {o : O} (h : G.step limit p o = some p')
    (hraised : p'.place = .raised) :
    ∃ n, p.place = .node n ∧ (G.run n p.state o = some none ∨
      ∃ s, G.run n p.state o = some (some s) ∧ G.next n s = none) := by
  cases hplace : p.place with
  | node n =>
    refine ⟨n, rfl, ?_⟩
    simp only [step, hplace] at h
    by_cases hlimit : limit ≤ p.supersteps
    · rw [if_pos hlimit] at h
      exact absurd (Option.some.inj h ▸ hraised) (by simp)
    · rw [if_neg hlimit] at h
      cases hrun : G.run n p.state o with
      | none => simp [hrun] at h
      | some updated =>
        cases updated with
        | none => exact .inl rfl
        | some s =>
          cases hnext : G.next n s with
          | none => exact .inr ⟨s, rfl, hnext⟩
          | some target =>
            cases target <;> simp only [hrun, hnext, Option.some.injEq] at h <;> simp [← h] at hraised
  | _ => simp [step, hplace] at h

end StateGraph
