import Mathlib.Data.List.Basic
import Mathlib.Data.List.TakeWhile

/-!
# Joining two words with a separator

Two words joined with a separator between them are read back by splitting at the first separator
exactly when the first word has none. When the second word has none, the joined word still
determines both.
-/

namespace Separated

variable {A : Type*} [DecidableEq A]

/-- Both words with the separator between them. -/
def join (separator : A) (first second : List A) : List A := first ++ separator :: second

/-- The parts before and after the first separator; without one there is nothing after it. -/
def splitFirst (separator : A) (word : List A) : List A × List A :=
  (word.takeWhile (· ≠ separator), (word.dropWhile (· ≠ separator)).drop 1)

variable {separator : A} {first second first' second' : List A}

/-- The part before the first separator has none. -/
theorem separator_notMem_splitFirst (separator : A) (word : List A) :
    separator ∉ (splitFirst separator word).1 := by
  intro hmem
  simpa using List.mem_takeWhile_imp hmem

/-- Splitting reads a joined word back exactly when the first word has no separator. -/
theorem splitFirst_join_iff :
    splitFirst separator (join separator first second) = (first, second) ↔ separator ∉ first := by
  constructor
  · intro h
    have hfirst := separator_notMem_splitFirst separator (join separator first second)
    rwa [h] at hfirst
  · intro h
    have hall : ∀ a ∈ first, decide (a ≠ separator) = true := by
      intro a ha
      simpa using fun heq : a = separator => h (heq ▸ ha)
    unfold splitFirst join
    rw [List.takeWhile_append_of_pos hall, List.dropWhile_append_of_pos hall]
    simp

/-- Without a separator nothing comes after it. -/
theorem splitFirst_of_notMem {word : List A} (h : separator ∉ word) :
    (splitFirst separator word).2 = [] := by
  have hall : word.dropWhile (· ≠ separator) = [] := by
    rw [List.dropWhile_eq_nil_iff]
    intro a ha
    simpa using fun heq : a = separator => h (heq ▸ ha)
  rw [splitFirst, hall, List.drop_nil]

/-- Joining the parts of a word that has the separator gives the word back. -/
theorem join_splitFirst {word : List A} (h : separator ∈ word) :
    join separator (splitFirst separator word).1 (splitFirst separator word).2 = word := by
  induction word with
  | nil => exact absurd h (by simp)
  | cons a rest ih =>
    by_cases ha : a = separator
    · subst ha
      simp [splitFirst, join]
    · have hrest : separator ∈ rest := (List.mem_cons.mp h).resolve_left fun heq => ha heq.symm
      simpa [splitFirst, join, ha] using ih hrest

omit [DecidableEq A] in
/-- A second word without separator is what follows the last one. -/
theorem join_injective_of_second (hsecond : separator ∉ second) (hsecond' : separator ∉ second')
    (h : join separator first second = join separator first' second') :
    first = first' ∧ second = second' := by
  induction first generalizing first' with
  | nil =>
    cases first' with
    | nil => exact ⟨rfl, (List.cons.inj h).2⟩
    | cons a rest =>
      obtain ⟨-, hrest⟩ := List.cons.inj h
      exact absurd (hrest ▸ List.mem_append_right rest List.mem_cons_self) hsecond
  | cons a rest ih =>
    cases first' with
    | nil =>
      obtain ⟨-, hrest⟩ := List.cons.inj h
      exact absurd (hrest ▸ List.mem_append_right rest List.mem_cons_self) hsecond'
    | cons b rest' =>
      obtain ⟨rfl, hrest⟩ := List.cons.inj h
      obtain ⟨rfl, rfl⟩ := ih hrest
      exact ⟨rfl, rfl⟩

/-- A first word without separator is what precedes the first one. -/
theorem join_injective_of_first (hfirst : separator ∉ first) (hfirst' : separator ∉ first')
    (h : join separator first second = join separator first' second') :
    first = first' ∧ second = second' := by
  have hsplit : (first, second) = (first', second') := by
    rw [← splitFirst_join_iff.mpr hfirst, h, splitFirst_join_iff.mpr hfirst']
  exact Prod.mk.inj hsplit

/-- No piece between separators has one. -/
theorem separator_notMem_of_mem_splitOn {word piece : List A} (h : piece ∈ word.splitOn separator) :
    separator ∉ piece := by
  induction word generalizing piece with
  | nil =>
    rw [List.splitOn_nil, List.mem_singleton] at h
    simp [h]
  | cons a rest ih =>
    rw [List.splitOn_cons_eq_if_modifyHead] at h
    by_cases hsame : (a == separator) = true
    · rw [if_pos hsame] at h
      rcases List.mem_cons.mp h with rfl | hmem
      · exact List.not_mem_nil
      · exact ih hmem
    · rw [if_neg hsame] at h
      obtain ⟨first, more, hpieces⟩ := List.exists_cons_of_ne_nil (List.splitOn_ne_nil separator rest)
      rw [hpieces, List.modifyHead_cons] at h
      rw [hpieces] at ih
      rcases List.mem_cons.mp h with rfl | hmem
      · have ha : separator ≠ a := by
          rintro rfl
          exact hsame (beq_self_eq_true separator)
        simp [ha, ih List.mem_cons_self]
      · exact ih (List.mem_cons_of_mem first hmem)

end Separated
