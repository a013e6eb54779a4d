import Agentops.Foundations.Matching

/-!
# Scanning a text for words

A scanner tells of a place in a text which word it finds there. Scanning takes the words from the left: behind
a word it goes on at the end of the word, and behind a place without a word at the next symbol. So a word is
taken exactly if it is found at its place and no word that is taken further left reaches beyond the place. All
matches of a backtracking pattern are found in this way.
-/

namespace Backtracking

variable {A : Type}

/-- A word is taken at a place of a text, where words may be found, if it is found there and no word that is taken
further left reaches beyond the place. -/
def Taken (found : List A → List A → List A → Prop) (front word rest : List A) : Prop :=
  found front word rest ∧ ∀ u v w rest', front = u ++ v → v ≠ [] → v ++ (word ++ rest) = w ++ rest' →
    Taken found u w rest' → w.length ≤ v.length
  termination_by front.length
  decreasing_by
    subst front
    rw [List.length_append]
    exact Nat.lt_add_of_pos_right (List.length_pos_of_ne_nil ‹_›)

/-- No word that is taken in front of a place reaches beyond it. -/
def Clear (found : List A → List A → List A → Prop) (front text : List A) : Prop :=
  ∀ u v w rest, front = u ++ v → v ≠ [] → v ++ text = w ++ rest → Taken found u w rest → w.length ≤ v.length

section Taken

variable {found : List A → List A → List A → Prop} {front piece word rest : List A}

/-- A word is taken if it is found and nothing before it reaches into it. -/
theorem taken_iff : Taken found front word rest ↔ found front word rest ∧ Clear found front (word ++ rest) := by
  rw [Taken, Clear]

/-- Nothing is found before the front of the text. -/
theorem clear_nil {text : List A} : Clear found [] text := by
  intro u v w rest hsplit hv
  exact absurd (List.append_eq_nil_iff.mp hsplit.symm).2 hv

/-- Past a piece of the text a place is clear if no word that is taken in the piece reaches beyond it. -/
theorem Clear.past (h : Clear found front (piece ++ rest))
    (hpiece : ∀ u v w rest', piece = u ++ v → v ≠ [] → v ++ rest = w ++ rest' →
      Taken found (front ++ u) w rest' → w.length ≤ v.length) : Clear found (front ++ piece) rest := by
  intro u v w rest' hsplit hv hsame htaken
  rcases List.append_eq_append_iff.mp hsplit with ⟨x, rfl, hx⟩ | ⟨x, rfl, rfl⟩
  · exact hpiece x v w rest' hx hv hsame htaken
  · rw [List.append_assoc] at hsame
    by_cases hx : x = []
    · subst hx
      exact hpiece [] piece w rest' rfl hv hsame (by rwa [List.append_nil, List.append_nil])
    · rw [List.length_append]
      exact Nat.le_add_right_of_le (h u x w rest' rfl hx hsame htaken)

end Taken

/-- What is found at a place, between what is before it, last symbol first, and what is after it. -/
structure Scanner (A : Type) where
  next : List A → List A → Option (List A)
  ne_nil : ∀ before text word, next before text = some word → word ≠ []
  exists_rest : ∀ before text word, next before text = some word → ∃ rest, text = word ++ rest

/-- The place behind a word. -/
def Cursor.past (c : Cursor A) (word : List A) : Cursor A := ⟨word.reverse ++ c.before, c.after.drop word.length⟩

namespace Scanner

/-- The words of a text, after so many symbols of the last one. -/
def scanFrom (s : Scanner A) : ℕ → List A → List A → List (List A)
  | _, _, [] => []
  | skip + 1, before, a :: rest => s.scanFrom skip (a :: before) rest
  | 0, before, a :: rest =>
    match s.next before (a :: rest) with
    | some word => word :: s.scanFrom (word.length - 1) (a :: before) rest
    | none => s.scanFrom 0 (a :: before) rest

/-- The words that are found in a text. -/
def scan (s : Scanner A) (before text : List A) : List (List A) := s.scanFrom 0 before text

variable {s : Scanner A} {before text word rest : List A} {a : A}

/-- In an empty text nothing is found. -/
@[simp] theorem scan_nil : s.scan before [] = [] := rfl

/-- Behind a word that was found the scan goes on. -/
theorem scanFrom_append (before word rest : List A) :
    s.scanFrom word.length before (word ++ rest) = s.scan (word.reverse ++ before) rest := by
  induction word generalizing before with
  | nil => rfl
  | cons a word ih =>
    rw [List.length_cons, List.cons_append, scanFrom, ih, List.reverse_cons, List.append_assoc]
    rfl

/-- Where nothing is found the scan goes on with the next symbol. -/
theorem scan_cons_of_none (h : s.next before (a :: rest) = none) :
    s.scan before (a :: rest) = s.scan (a :: before) rest := by
  simp [scan, scanFrom, h]

/-- Behind a word the scan goes on at its end. -/
theorem scan_of_some (h : s.next before (word ++ rest) = some word) :
    s.scan before (word ++ rest) = word :: s.scan (word.reverse ++ before) rest := by
  obtain ⟨a, tail, rfl⟩ := List.exists_cons_of_ne_nil (s.ne_nil _ _ _ h)
  have hstep : s.scan before (a :: tail ++ rest) =
      (a :: tail) :: s.scanFrom tail.length (a :: before) (tail ++ rest) := by
    rw [List.cons_append] at h ⊢
    simp [scan, scanFrom, h]
  rw [hstep, scanFrom_append, List.reverse_cons, List.append_assoc]
  rfl

/-- The word is what the scanner finds at the place. -/
def Finds (s : Scanner A) (front word rest : List A) : Prop := s.next front.reverse (word ++ rest) = some word

/-- At one place one word is found. -/
theorem Finds.word_eq {front u x v y : List A} (hu : s.Finds front u x) (hv : s.Finds front v y)
    (h : u ++ x = v ++ y) : u = v := by
  rw [Finds, h] at hu
  exact Option.some.inj (hu.symm.trans hv)

/-- Past a symbol at which nothing is found the place is clear again. -/
theorem clear_past_symbol {front : List A} (h : Clear s.Finds front (a :: rest))
    (hnone : s.next front.reverse (a :: rest) = none) : Clear s.Finds (front ++ [a]) rest := by
  refine Clear.past h fun u v w rest' hsplit hv hsame htaken => ?_
  obtain ⟨rfl, rfl⟩ : u = [] ∧ v = [a] := by
    rcases List.append_eq_singleton_iff.mp hsplit.symm with hleft | ⟨-, hright⟩
    · exact hleft
    · exact absurd hright hv
  have hfound : s.next front.reverse (a :: rest) = some w := by
    have hword := (taken_iff.mp htaken).1
    rwa [List.append_nil, Finds, ← hsame] at hword
  rw [hnone] at hfound
  cases hfound

/-- Past a word that is taken the place is clear again. -/
theorem clear_past_word {front : List A} (h : Taken s.Finds front word rest) :
    Clear s.Finds (front ++ word) rest := by
  refine Clear.past (taken_iff.mp h).2 fun u v w rest' hsplit hv hsame htaken => ?_
  subst hsplit
  by_cases hu : u = []
  · subst hu
    have hword : v = w := (taken_iff.mp h).1.word_eq (List.append_nil front ▸ (taken_iff.mp htaken).1) hsame
    rw [hword]
  · -- the word begins in front of this one and reaches beyond its beginning
    have hreach := (taken_iff.mp htaken).2 front u (u ++ v) rest rfl hu
      (by rw [← hsame, List.append_assoc]) h
    rw [List.length_append] at hreach
    have hpos := List.length_pos_of_ne_nil hv
    omega

/-- The words of a scan from a clear place are those that are taken behind it. -/
theorem mem_scan_iff_of_clear {front : List A} (h : Clear s.Finds front text) : word ∈ s.scan front.reverse text ↔
    ∃ u rest, text = u ++ (word ++ rest) ∧ Taken s.Finds (front ++ u) word rest := by
  induction hlength : text.length using Nat.strong_induction_on generalizing front text with
  | _ length ih =>
    cases text with
    | nil =>
      refine ⟨fun hword => absurd hword List.not_mem_nil, ?_⟩
      rintro ⟨u, rest, hsplit, htaken⟩
      obtain ⟨-, hword⟩ := List.append_eq_nil_iff.mp hsplit.symm
      exact absurd (List.append_eq_nil_iff.mp hword).1 (s.ne_nil _ _ _ (taken_iff.mp htaken).1)
    | cons a tail =>
      cases hnext : s.next front.reverse (a :: tail) with
      | none =>
        have hback : a :: front.reverse = (front ++ [a]).reverse := by simp
        rw [scan_cons_of_none hnext, hback, ih tail.length (by simp [← hlength]) (clear_past_symbol h hnext) rfl]
        constructor
        · rintro ⟨u, rest, rfl, htaken⟩
          exact ⟨a :: u, rest, rfl, by rwa [List.append_assoc] at htaken⟩
        · rintro ⟨u, rest, hsplit, htaken⟩
          cases u with
          | nil =>
            have hfound := (taken_iff.mp htaken).1
            rw [List.append_nil, Finds, ← List.nil_append (word ++ rest), ← hsplit, hnext] at hfound
            cases hfound
          | cons b u =>
            obtain ⟨rfl, htail⟩ := List.cons.inj hsplit
            exact ⟨u, rest, htail, by rwa [List.append_assoc]⟩
      | some found =>
        obtain ⟨rest, hrest⟩ := s.exists_rest _ _ _ hnext
        have hpos := List.length_pos_of_ne_nil (s.ne_nil _ _ _ hnext)
        rw [hrest] at h hnext hlength ⊢
        have hfound : Taken s.Finds front found rest := taken_iff.mpr ⟨hnext, h⟩
        have hshort : rest.length < length := by
          rw [← hlength, List.length_append]
          omega
        rw [scan_of_some hnext, ← List.reverse_append, List.mem_cons,
          ih rest.length hshort (clear_past_word hfound) rfl]
        constructor
        · rintro (rfl | ⟨u, rest', rfl, htaken⟩)
          · exact ⟨[], rest, rfl, by rwa [List.append_nil]⟩
          · exact ⟨found ++ u, rest', (List.append_assoc ..).symm, by rwa [List.append_assoc] at htaken⟩
        · rintro ⟨u, rest', hsplit, htaken⟩
          by_cases hu : u = []
          · subst hu
            rw [List.append_nil] at htaken
            exact .inl ((taken_iff.mp htaken).1.word_eq hnext hsplit.symm)
          · have hreach := (taken_iff.mp htaken).2 front u found rest rfl hu hsplit.symm hfound
            obtain ⟨v, rfl⟩ := List.prefix_of_prefix_length_le ⟨rest, rfl⟩ ⟨word ++ rest', hsplit.symm⟩ hreach
            rw [List.append_assoc] at hsplit
            exact .inr ⟨v, rest', List.append_cancel_left hsplit, by rwa [List.append_assoc]⟩

/-- The words of a scan are those that are taken from the text. -/
theorem mem_scan_iff : word ∈ s.scan [] text ↔
    ∃ front rest, text = front ++ (word ++ rest) ∧ Taken s.Finds front word rest :=
  mem_scan_iff_of_clear clear_nil

end Scanner

/-- All matches of a pattern are the words of a scanner that finds at every place the same word. -/
theorem Pattern.findAll_eq_scan {p : Pattern A} {s : Scanner A}
    (hnext : ∀ c, p.firstEnd c = (s.next c.before c.after).map c.past) (text : List A) :
    p.findAll text = s.scan [] text := by
  have hpieces : ∀ {f : Piece A → Option (List A)}, (∀ word, f (.matched word) = some word) →
      (∀ a, f (.kept a) = none) → ∀ (steps : ℕ) (c : Cursor A), c.after.length ≤ steps →
        (p.piecesFrom steps c).filterMap f = s.scan c.before c.after := by
    intro f hmatched hkept steps
    induction steps with
    | zero =>
      intro c hc
      have hnil : c.after = [] := List.length_eq_zero_iff.mp (Nat.le_zero.mp hc)
      simp [piecesFrom, hnil]
    | succ steps ih =>
      rintro ⟨before, text⟩ hc
      cases text with
      | nil => rfl
      | cons a tail =>
        have hfirst := hnext ⟨before, a :: tail⟩
        have htail : tail.length ≤ steps := Nat.le_of_succ_le_succ hc
        cases hfound : s.next before (a :: tail) with
        | none =>
          have hnone : p.firstEnd ⟨before, a :: tail⟩ = none := by rw [hfirst, hfound, Option.map_none]
          rw [Scanner.scan_cons_of_none hfound]
          simpa [piecesFrom, hnone, hkept] using ih ⟨a :: before, tail⟩ htail
        | some word =>
          obtain ⟨rest, hrest⟩ := s.exists_rest _ _ _ hfound
          have hpos : 0 < word.length := List.length_pos_of_ne_nil (s.ne_nil _ _ _ hfound)
          have hsome : p.firstEnd ⟨before, a :: tail⟩ = some ⟨word.reverse ++ before, rest⟩ := by
            rw [hfirst, hfound, Option.map_some, Cursor.past, hrest, List.drop_left]
          have hlength : (a :: tail).length = word.length + rest.length := by rw [hrest, List.length_append]
          have htake : (a :: tail).take ((a :: tail).length - rest.length) = word := by
            rw [hlength, Nat.add_sub_cancel, hrest, List.take_left]
          have hshort : rest.length ≤ steps := by
            rw [List.length_cons] at hlength
            omega
          have hbehind := ih ⟨word.reverse ++ before, rest⟩ hshort
          rw [piecesFrom]
          simp only [hsome, htake, List.filterMap_cons, hmatched, hbehind]
          rw [hrest] at hfound ⊢
          exact (Scanner.scan_of_some hfound).symm
  exact hpieces (fun _ => rfl) (fun _ => rfl) text.length ⟨[], text⟩ le_rfl

end Backtracking
