import Mathlib.Data.List.Perm.Basic
import Mathlib.Data.List.Nodup
import Mathlib.Data.List.Pairwise
import Mathlib.Data.Int.Basic
import Mathlib.Tactic.Common

/-!
# Numbers from a counter

A counter hands out numbers, and what it has handed out is never given back to it: a number is used by a
row, or held by a session that may still write one. As long as the counter is not behind any of them the next
number is new. Setting the counter keeps this if it is not set behind a number in use.
-/

namespace Numbering

/-- The numbers in use are different, and the counter is behind none of them. -/
structure Ahead (counter : ℤ) (used : List ℤ) : Prop where
  nodup : used.Nodup
  le : ∀ n ∈ used, n ≤ counter

variable {counter n : ℤ} {used used' : List ℤ}

/-- The order of the numbers does not matter. -/
theorem Ahead.perm (h : Ahead counter used) (hperm : used.Perm used') : Ahead counter used' :=
  ⟨hperm.nodup_iff.mp h.nodup, fun n hn => h.le n (hperm.mem_iff.mpr hn)⟩

/-- The next number of the counter is new. -/
theorem Ahead.draw (h : Ahead counter used) : Ahead (counter + 1) ((counter + 1) :: used) where
  nodup := by
    refine List.nodup_cons.mpr ⟨fun hmem => ?_, h.nodup⟩
    have hle := h.le _ hmem
    omega
  le n hn := by
    rcases List.mem_cons.mp hn with rfl | hold
    · exact Int.le_refl _
    · have hle := h.le n hold
      omega

/-- A number that is no longer used is not handed out again. -/
theorem Ahead.release (h : Ahead counter (n :: used)) : Ahead counter used :=
  ⟨(List.nodup_cons.mp h.nodup).2, fun m hm => h.le m (List.mem_cons_of_mem _ hm)⟩

/-- The counter may be set to anything that is not behind a number in use. -/
theorem Ahead.reset (h : Ahead counter used) {counter' : ℤ} (hle : ∀ n ∈ used, n ≤ counter') :
    Ahead counter' used := ⟨h.nodup, hle⟩

/-- The number that was used last was not used before. -/
theorem Ahead.notMem (h : Ahead counter (n :: used)) : n ∉ used := (List.nodup_cons.mp h.nodup).1

section Sessions

variable {S A : Type} {f : S → Option A} {sessions : List S} {i : ℕ} {session : S}

/-- What one session holds can be told from what the others hold, and only that changes with the session. -/
theorem exists_others (h : sessions[i]? = some session) :
    ∃ others, (sessions.filterMap f).Perm ((f session).toList ++ others) ∧
      ∀ session', ((sessions.set i session').filterMap f).Perm ((f session').toList ++ others) := by
  obtain ⟨hi, hsession⟩ := List.getElem?_eq_some_iff.mp h
  have hmiddle : ∀ (before after : List S) (x : S), ((before ++ x :: after).filterMap f).Perm
      ((f x).toList ++ (before.filterMap f ++ after.filterMap f)) := by
    intro before after x
    have hcons : (x :: after).filterMap f = (f x).toList ++ after.filterMap f := by
      cases hx : f x <;> simp [hx]
    rw [List.filterMap_append, hcons, ← List.append_assoc, ← List.append_assoc]
    exact List.perm_append_comm.append_right _
  refine ⟨(sessions.take i).filterMap f ++ (sessions.drop (i + 1)).filterMap f, ?_, fun session' => ?_⟩
  · have hsplit : sessions = sessions.take i ++ session :: sessions.drop (i + 1) := by
      rw [← hsession, List.getElem_cons_drop, List.take_append_drop]
    conv_lhs => rw [hsplit]
    exact hmiddle _ _ _
  · rw [List.set_eq_take_append_cons_drop, if_pos hi]
    exact hmiddle _ _ _

/-- Sessions that hold one number are one. -/
theorem eq_of_held (h : (sessions.filterMap f).Nodup) {session' : S} {n : A} (hs : session ∈ sessions)
    (hs' : session' ∈ sessions) (hn : f session = some n) (hn' : f session' = some n) : session = session' := by
  by_contra hne
  have hpairs := List.pairwise_filterMap.mp h
  have hsymm : Std.Symm fun a b : S => ∀ x, f a = some x → ∀ y, f b = some y → x ≠ y :=
    ⟨fun a b hab x hx y hy heq => hab y hy x hx heq.symm⟩
  exact hpairs.forall hs hs' hne n hn n hn' rfl

end Sessions

end Numbering
