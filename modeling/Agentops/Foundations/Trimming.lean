import Agentops.Foundations.Blocks
import Mathlib.Data.List.DropRight

/-!
# Texts without the blanks around them

Trimming takes away the blanks at both ends of a text and nothing else: what is left begins and ends with
other symbols, and there is only one such part of the text. Words without blanks are found in the trimmed
text exactly if they are found in the text.
-/

namespace Trimming

variable {A : Type}

/-- The text without the blanks at its ends. -/
def trim (blank : A → Bool) (text : List A) : List A := (text.dropWhile blank).rdropWhile blank

/-- The text begins and ends with symbols that are no blanks, unless it is empty. -/
def Tight (blank : A → Bool) (text : List A) : Prop :=
  (∀ a ∈ text.head?, blank a = false) ∧ ∀ a ∈ text.getLast?, blank a = false

variable {blank : A → Bool} {text x y left middle right : List A}

/-- What is left of a text has no blank at its end. -/
theorem not_blank_of_mem_getLast?_rdropWhile (blank : A → Bool) (text : List A) :
    ∀ a ∈ (text.rdropWhile blank).getLast?, blank a = false := by
  intro a ha
  have hne : text.rdropWhile blank ≠ [] := by
    rintro hnil
    simp [hnil] at ha
  have hlast := List.rdropWhile_last_not blank _ hne
  rw [List.getLast?_eq_some_getLast hne, Option.mem_some_iff] at ha
  simpa [ha] using hlast

/-- Every text ends in blanks, perhaps none, behind what does not end with one. -/
theorem exists_end (blank : A → Bool) (text : List A) : ∃ front blanks, text = front ++ blanks ∧
    (∀ a ∈ front.getLast?, blank a = false) ∧ ∀ a ∈ blanks, blank a = true :=
  ⟨text.rdropWhile blank, text.rtakeWhile blank, (List.rdropWhile_append_rtakeWhile ..).symm,
    not_blank_of_mem_getLast?_rdropWhile blank text, fun _ ha => List.mem_rtakeWhile_imp ha⟩

/-- Trimming takes away blanks at both ends. -/
theorem exists_trim (blank : A → Bool) (text : List A) : ∃ left right, text = left ++ (trim blank text ++ right) ∧
    (∀ a ∈ left, blank a = true) ∧ (∀ a ∈ right, blank a = true) ∧ Tight blank (trim blank text) := by
  have hright : ∀ a ∈ (text.dropWhile blank).rtakeWhile blank, blank a = true := fun a ha =>
    List.mem_rtakeWhile_imp ha
  have hsplit : text.dropWhile blank = trim blank text ++ (text.dropWhile blank).rtakeWhile blank :=
    (List.rdropWhile_append_rtakeWhile ..).symm
  refine ⟨text.takeWhile blank, (text.dropWhile blank).rtakeWhile blank, ?_, fun a ha => ?_, hright, ?_,
    not_blank_of_mem_getLast?_rdropWhile blank _⟩
  · rw [← hsplit, List.takeWhile_append_dropWhile]
  · exact List.mem_takeWhile_imp ha
  · intro a ha
    have hhead : a ∈ (text.dropWhile blank).head? := by
      rw [hsplit, List.head?_append]
      simp [Option.mem_def.mp ha]
    have hnot := List.head?_dropWhile_not blank text
    rw [Option.mem_def.mp hhead] at hnot
    simpa using hnot

/-- Blanks behind a text that ends with no blank are what is taken from its end. -/
theorem rdropWhile_append_blank (hx : ∀ a ∈ x.getLast?, blank a = false) (hy : ∀ a ∈ y, blank a = true) :
    (x ++ y).rdropWhile blank = x := by
  have hreverse : (x ++ y).reverse.dropWhile blank = x.reverse.dropWhile blank := by
    rw [List.reverse_append]
    exact List.dropWhile_append_of_pos fun a ha => hy a (List.mem_reverse.mp ha)
  rw [List.rdropWhile, hreverse]
  change x.rdropWhile blank = x
  rw [List.rdropWhile_eq_self_iff]
  intro hne hblank
  rw [hx _ (List.getLast?_eq_some_getLast hne)] at hblank
  exact absurd hblank (by simp)

/-- What begins and ends with no blank is what trimming leaves. -/
theorem trim_eq_middle (hleft : ∀ a ∈ left, blank a = true) (hright : ∀ a ∈ right, blank a = true)
    (htight : Tight blank middle) : trim blank (left ++ (middle ++ right)) = middle := by
  have hstart : (middle ++ right).dropWhile blank = middle ++ right ∨ middle = [] := by
    cases middle with
    | nil => exact .inr rfl
    | cons a middle =>
      left
      rw [List.cons_append, List.dropWhile_cons_of_neg (by simp [htight.1 a rfl])]
  have hdrop : (left ++ (middle ++ right)).dropWhile blank = (middle ++ right).dropWhile blank :=
    List.dropWhile_append_of_pos hleft
  rw [trim, hdrop]
  rcases hstart with hstart | rfl
  · rw [hstart, rdropWhile_append_blank htight.2 hright]
  · rw [List.nil_append, List.dropWhile_eq_nil_iff.mpr hright]
    rfl

/-- What is trimmed is tight. -/
theorem tight_trim (blank : A → Bool) (text : List A) : Tight blank (trim blank text) := by
  obtain ⟨-, -, -, -, -, htight⟩ := exists_trim blank text
  exact htight

/-- It has nothing more to trim. -/
@[simp] theorem trim_trim (blank : A → Bool) (text : List A) : trim blank (trim blank text) = trim blank text := by
  have htwice := @trim_eq_middle A blank [] (trim blank text) [] (by simp) (by simp) (tight_trim blank text)
  simpa using htwice

/-- Blanks behind a text are taken away. -/
theorem trim_append_blank (hy : ∀ a ∈ y, blank a = true) (x : List A) : trim blank (x ++ y) = trim blank x := by
  obtain ⟨left, right, hx, hleft, hright, htight⟩ := exists_trim blank x
  have hbehind : ∀ a ∈ right ++ y, blank a = true := by
    intro a ha
    rcases List.mem_append.mp ha with hold | hnew
    · exact hright a hold
    · exact hy a hnew
  have hmiddle := trim_eq_middle hleft hbehind htight
  rw [← hmiddle]
  congr 1
  conv_lhs => rw [hx]
  simp

/-- Only blanks are taken away. -/
theorem mem_trim {a : A} (ha : a ∈ text) (hblank : blank a = false) : a ∈ trim blank text := by
  obtain ⟨left, right, htext, hleft, hright, -⟩ := exists_trim blank text
  rw [htext] at ha
  rcases List.mem_append.mp ha with ha | ha
  · exact absurd (hleft a ha) (by simp [hblank])
  · rcases List.mem_append.mp ha with ha | ha
    · exact ha
    · exact absurd (hright a ha) (by simp [hblank])

/-- Nothing is added. -/
theorem trim_subset (blank : A → Bool) (text : List A) : trim blank text ⊆ text := by
  obtain ⟨left, right, htext, -⟩ := exists_trim blank text
  intro a ha
  rw [htext]
  simp [ha]

/-- What is taken away does not depend on what else the symbols carry. -/
theorem map_trim {B : Type} (blank : A → Bool) (f : B → A) (text : List B) :
    (trim (blank ∘ f) text).map f = trim blank (text.map f) := by
  have hdrop : ∀ text : List B, (text.dropWhile (blank ∘ f)).map f = (text.map f).dropWhile blank := by
    intro text
    induction text with
    | nil => rfl
    | cons b text ih => by_cases hb : blank (f b) <;> simp [hb, ih]
  simp only [trim, List.rdropWhile, List.map_reverse, hdrop]

/-- Only blanks trim to nothing. -/
theorem trim_eq_nil_iff : trim blank text = [] ↔ ∀ a ∈ text, blank a = true := by
  obtain ⟨left, right, htext, hleft, hright, -⟩ := exists_trim blank text
  constructor
  · intro hnil a ha
    rw [htext, hnil, List.nil_append] at ha
    exact (List.mem_append.mp ha).elim (hleft a) (hright a)
  · intro hall
    simpa [trim] using trim_append_blank hall []

/-- As many symbols that are no blanks are left as there were. -/
theorem countP_trim (blank : A → Bool) (text : List A) :
    (trim blank text).countP (!blank ·) = text.countP (!blank ·) := by
  obtain ⟨left, right, htext, hleft, hright, -⟩ := exists_trim blank text
  have hnone : ∀ blanks : List A, (∀ a ∈ blanks, blank a = true) → blanks.countP (!blank ·) = 0 := by
    intro blanks hblanks
    exact List.countP_eq_zero.mpr fun a ha => by simp [hblanks a ha]
  conv_rhs => rw [htext]
  rw [List.countP_append, List.countP_append, hnone left hleft, hnone right hright]
  omega

/-- A text that is not blank keeps its end, whatever stands before it. -/
theorem trim_suffix_trim_append (hne : trim blank y ≠ []) (x : List A) : trim blank y <:+ trim blank (x ++ y) := by
  obtain ⟨left, right, hy, hleft, hright, htight⟩ := exists_trim blank y
  have hall : ∀ a ∈ (x ++ left).takeWhile blank, blank a = true := fun a ha => List.mem_takeWhile_imp ha
  have hwhole : x ++ y = (x ++ left).takeWhile blank ++
      (((x ++ left).dropWhile blank ++ trim blank y) ++ right) := by
    conv_lhs => rw [hy]
    rw [List.append_assoc, ← List.append_assoc ((x ++ left).takeWhile blank), List.takeWhile_append_dropWhile]
    simp
  have hlonger : Tight blank ((x ++ left).dropWhile blank ++ trim blank y) := by
    constructor
    · intro a ha
      cases hdrop : (x ++ left).dropWhile blank with
      | nil => exact htight.1 a (by simpa [hdrop] using ha)
      | cons b rest =>
        have hnot := List.head?_dropWhile_not blank (x ++ left)
        rw [hdrop] at hnot ha
        obtain rfl : b = a := by simpa using ha
        simpa using hnot
    · intro a ha
      rw [List.getLast?_append] at ha
      cases hlast : (trim blank y).getLast? with
      | none => exact absurd (List.getLast?_eq_none_iff.mp hlast) hne
      | some b =>
        rw [hlast] at ha
        exact htight.2 a (by simpa [hlast] using ha)
  rw [hwhole, trim_eq_middle hall hright hlonger]
  exact List.suffix_append _ _

/-- A text that is not blank, trimmed, is the end of another one, trimmed, if only blanks stand behind it there. -/
theorem trim_suffix_trim_iff (hne : trim blank x ≠ []) : trim blank x <:+ trim blank text ↔
    ∃ words blanks, text = words ++ (trim blank x ++ blanks) ∧ ∀ a ∈ blanks, blank a = true := by
  constructor
  · rintro ⟨words, hwords⟩
    obtain ⟨left, right, htext, -, hright, -⟩ := exists_trim blank text
    exact ⟨left ++ words, right, by rw [htext, ← hwords]; simp, hright⟩
  · rintro ⟨words, blanks, rfl, hblanks⟩
    rw [← List.append_assoc, trim_append_blank hblanks]
    have hend := trim_suffix_trim_append (y := trim blank x) (by rwa [trim_trim]) words
    rwa [trim_trim] at hend

/-- A word without blanks and what stands behind it end as the front of that does, or as the word if it is empty. -/
theorem getLast?_word_append {word front : List A} (hne : word ≠ []) (hword : ∀ a ∈ word, blank a = false)
    (hfront : ∀ a ∈ front.getLast?, blank a = false) (words : List A) :
    ∀ a ∈ (words ++ (word ++ front)).getLast?, blank a = false := by
  intro a ha
  cases hnil : front.getLast? with
  | none =>
    rw [List.getLast?_eq_none_iff.mp hnil, List.append_nil, List.getLast?_append_of_ne_nil _ hne] at ha
    exact hword a (List.mem_of_getLast? ha)
  | some b =>
    rw [List.getLast?_append, List.getLast?_append, hnil] at ha
    exact hfront a (by simpa [hnil] using ha)

/-- Behind a word without blanks only the blanks at the end are trimmed. -/
theorem trim_word_append {word front right : List A} (hne : word ≠ []) (hword : ∀ a ∈ word, blank a = false)
    (hfront : ∀ a ∈ front.getLast?, blank a = false) (hright : ∀ a ∈ right, blank a = true) :
    trim blank (word ++ (front ++ right)) = word ++ front := by
  have hhead : ∀ a ∈ (word ++ front).head?, blank a = false := by
    intro a ha
    rw [List.head?_append_of_ne_nil _ hne] at ha
    exact hword a (List.mem_of_mem_head? ha)
  have hmiddle := @trim_eq_middle A blank [] (word ++ front) right (by simp) hright
    ⟨hhead, getLast?_word_append hne hword hfront []⟩
  simpa using hmiddle

/-- A word without blanks, with something behind it, is the end of another text with the same behind it exactly if the
word is the end of that text; blanks may stand behind it there if nothing else comes. -/
theorem trim_suffix_append_iff {word rest : List A} (hne : word ≠ []) (hword : ∀ a ∈ word, blank a = false) :
    trim blank (word ++ rest) <:+ trim blank (text ++ rest) ↔ ∃ words blanks, text = words ++ (word ++ blanks) ∧
      (∀ a ∈ blanks, blank a = true) ∧ (blanks = [] ∨ ∀ a ∈ rest, blank a = true) := by
  obtain ⟨front, right, rfl, hfront, hright⟩ := exists_end blank rest
  have htrim := trim_word_append hne hword hfront hright
  have hsolid : trim blank (word ++ (front ++ right)) ≠ [] := by
    rw [htrim]
    simp [hne]
  rw [trim_suffix_trim_iff hsolid, htrim]
  constructor
  · rintro ⟨words, blanks, hsplit, hblanks⟩
    have hfrontEnd := congrArg (List.rdropWhile blank) hsplit
    rw [← List.append_assoc words, rdropWhile_append_blank (getLast?_word_append hne hword hfront words) hblanks]
      at hfrontEnd
    by_cases hnil : front = []
    · subst hnil
      obtain ⟨textFront, textRight, rfl, htextFront, htextRight⟩ := exists_end blank text
      rw [List.nil_append, List.append_assoc, rdropWhile_append_blank htextFront
        (List.forall_mem_append.mpr ⟨htextRight, hright⟩), List.append_nil] at hfrontEnd
      exact ⟨words, textRight, by rw [hfrontEnd, List.append_assoc], htextRight, .inr hright⟩
    · have hend : ∀ a ∈ (text ++ front).getLast?, blank a = false := by
        intro a ha
        rw [List.getLast?_append_of_ne_nil _ hnil] at ha
        exact hfront a ha
      rw [← List.append_assoc, rdropWhile_append_blank hend hright, ← List.append_assoc] at hfrontEnd
      exact ⟨words, [], by rw [List.append_nil, List.append_cancel_right hfrontEnd], by simp, .inl rfl⟩
  · rintro ⟨words, blanks, rfl, hblanks, rfl | hrest⟩
    · exact ⟨words, right, by simp, hright⟩
    · have hnil : front = [] := by
        by_contra hfrontNe
        have hin := List.getLast_mem hfrontNe
        have hsolidLast := hfront _ (List.getLast?_eq_some_getLast hfrontNe)
        rw [hrest _ (List.mem_append_left _ hin)] at hsolidLast
        cases hsolidLast
      subst hnil
      exact ⟨words, blanks ++ right, by simp, List.forall_mem_append.mpr ⟨hblanks, hright⟩⟩

section Words

open Backtracking Blocks

variable {word : List (A → Bool)}

/-- A word that has no blanks is found in the trimmed text exactly if it is found in the text. -/
theorem contains_trim (hne : word ≠ []) (hword : ∀ p ∈ word, ∀ a, blank a = true → p a = false) (text : List A) :
    contains word (trim blank text) = contains word text := by
  obtain ⟨left, right, htext, hleft, hright, -⟩ := exists_trim blank text
  obtain ⟨p, rest, rfl⟩ := List.exists_cons_of_ne_nil hne
  have hbefore : ∀ (blanks z : List A), (∀ a ∈ blanks, blank a = true) →
      contains (p :: rest) (blanks ++ z) = contains (p :: rest) z := by
    intro blanks z hblanks
    induction blanks with
    | nil => rfl
    | cons a blanks ih =>
      have ha := hword p List.mem_cons_self a (hblanks a List.mem_cons_self)
      have hhead : dropWord (p :: rest) (a :: (blanks ++ z)) = none := by simp [dropWord, ha]
      rw [List.cons_append, contains_cons, hhead, ih fun b hb => hblanks b (List.mem_cons_of_mem _ hb)]
      rfl
  have hbehind : ∀ z : List A, contains (p :: rest) (z ++ right) = contains (p :: rest) z := by
    intro z
    induction z with
    | nil => simpa using hbefore right [] hright
    | cons a z ih =>
      rw [List.cons_append, contains_cons, contains_cons, ih]
      congr 1
      rw [Bool.eq_iff_iff]
      constructor
      · intro h
        cases hr : right with
        | nil => simpa [hr] using h
        | cons b right =>
          rw [hr, ← List.cons_append] at h
          have hb : blank b = true := hright b (by simp [hr])
          exact isSome_dropWord_of_append (fun q hq => hword q hq b hb) h
      · intro h
        obtain ⟨after, hafter⟩ := Option.isSome_iff_exists.mp h
        rw [← List.cons_append, dropWord_append hafter]
        rfl
  conv_rhs => rw [htext]
  rw [hbefore left _ hleft, hbehind]

end Words

end Trimming
