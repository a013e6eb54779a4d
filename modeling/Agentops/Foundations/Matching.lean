import Agentops.Foundations.Backtracking
import Mathlib.Data.List.Forall2
import Mathlib.Data.List.Infix

/-!
# What backtracking patterns match

A pattern matches a word between what is before it and what is after it. Whether a search succeeds depends
on what can be matched alone, and one rule for each kind of pattern says that. Where a match ends depends on
the order in which the engine tries the ends: `firstWith` is the first end with which the rest of a pattern
succeeds, with one rule for each kind of pattern again. What `removeAll` leaves then depends on the text
alone, if the pattern looks at nothing before it.
-/

namespace Backtracking

variable {A B : Type}

/-- A later place in the same text. -/
def Cursor.Advances (c e : Cursor A) : Prop :=
  ∃ word, c.after = word ++ e.after ∧ e.before = word.reverse ++ c.before

/-- A match may be empty. -/
theorem Cursor.Advances.refl (c : Cursor A) : c.Advances c := ⟨[], rfl, rfl⟩

/-- What follows a match is a match further on. -/
theorem Cursor.Advances.trans {c d e : Cursor A} (h : c.Advances d) (h' : d.Advances e) : c.Advances e := by
  obtain ⟨word, hafter, hbefore⟩ := h
  obtain ⟨word', hafter', hbefore'⟩ := h'
  exact ⟨word ++ word', by rw [hafter, hafter', List.append_assoc], by simp [hbefore', hbefore]⟩

section Ends

variable {ends : Cursor A → List (Cursor A)} {greedy : Bool} {c e : Cursor A}

/-- More repetitions are none, or one and then more. -/
theorem mem_moreEnds_succ {more : ℕ} : e ∈ moreEnds ends greedy (more + 1) c ↔
    e = c ∨ ∃ d ∈ ends c, e ∈ moreEnds ends greedy more d := by
  cases greedy <;> simp [moreEnds, or_comm]

/-- Repetitions lead to later places. -/
theorem advances_of_mem_moreEnds (hends : ∀ c, ∀ e ∈ ends c, c.Advances e) {more : ℕ}
    (h : e ∈ moreEnds ends greedy more c) : c.Advances e := by
  induction more generalizing c with
  | zero =>
    obtain rfl : e = c := by simpa [moreEnds] using h
    exact .refl e
  | succ more ih =>
    rcases mem_moreEnds_succ.mp h with rfl | ⟨d, hd, he⟩
    · exact .refl e
    · exact (hends c d hd).trans (ih he)

/-- However often it is repeated, a pattern only moves on. -/
theorem advances_of_mem_repEnds (hends : ∀ c, ∀ e ∈ ends c, c.Advances e) {more least : ℕ}
    (h : e ∈ repEnds ends greedy more least c) : c.Advances e := by
  induction least generalizing c with
  | zero => exact advances_of_mem_moreEnds hends h
  | succ least ih =>
    obtain ⟨d, hd, he⟩ := List.mem_flatMap.mp h
    exact (hends c d hd).trans (ih he)

/-- A match ends at a later place. -/
theorem Pattern.advances_of_mem_ends {p : Pattern A} (h : e ∈ p.ends c) : c.Advances e := by
  induction p generalizing c e with
  | one p =>
    obtain ⟨before, after⟩ := c
    cases after with
    | nil => simp [ends] at h
    | cons a rest =>
      by_cases ha : p a
      · obtain rfl : e = ⟨a :: before, rest⟩ := by simpa [ends, ha] using h
        exact ⟨[a], rfl, rfl⟩
      · simp [ends, ha] at h
  | check p =>
    by_cases hp : p c.before c.after
    · obtain rfl : e = c := by simpa [ends, hp] using h
      exact .refl e
    · simp [ends, hp] at h
  | seq first second ihfirst ihsecond =>
    obtain ⟨d, hd, he⟩ := List.mem_flatMap.mp h
    exact (ihfirst hd).trans (ihsecond he)
  | alt first second ihfirst ihsecond =>
    rcases List.mem_append.mp h with hfirst | hsecond
    · exact ihfirst hfirst
    · exact ihsecond hsecond
  | rep greedy least most body ih => exact advances_of_mem_repEnds (fun _ _ he => ih he) h

end Ends

namespace Pattern

/-- The pattern matches the word between what is before it and what is after it. -/
def Matches (p : Pattern A) (before word after : List A) : Prop :=
  (⟨word.reverse ++ before, after⟩ : Cursor A) ∈ p.ends ⟨before, word ++ after⟩

/-- Every end of a match is the end of a word that is matched. -/
theorem exists_matches_of_mem_ends {p : Pattern A} {before text : List A} {e : Cursor A}
    (h : e ∈ p.ends ⟨before, text⟩) :
    ∃ word, text = word ++ e.after ∧ e.before = word.reverse ++ before ∧ p.Matches before word e.after := by
  obtain ⟨word, hafter, hbefore⟩ := advances_of_mem_ends h
  obtain ⟨ebefore, eafter⟩ := e
  simp only at hafter hbefore
  subst hafter hbefore
  exact ⟨word, rfl, rfl, h⟩

variable {p first second : Pattern A} {before word after : List A}

/-- One symbol is matched if it is one of the class. -/
theorem matches_one {p : A → Bool} :
    (one p).Matches before word after ↔ ∃ a, word = [a] ∧ p a = true := by
  constructor
  · intro h
    cases hcase : word ++ after with
    | nil => simp [Matches, ends, hcase] at h
    | cons a rest =>
      by_cases ha : p a
      · have hmem : (⟨word.reverse ++ before, after⟩ : Cursor A) = ⟨a :: before, rest⟩ := by
          simpa [Matches, ends, hcase, ha] using h
        obtain ⟨hreverse, rfl⟩ := Cursor.mk.inj hmem
        have hsingle : word ++ after = [a] ++ after := hcase
        exact ⟨a, List.append_cancel_right hsingle, ha⟩
      · simp [Matches, ends, hcase, ha] at h
  · rintro ⟨a, rfl, ha⟩
    simp [Matches, ends, ha]

/-- A check takes no symbols. -/
theorem matches_check {p : List A → List A → Bool} :
    (check p).Matches before word after ↔ word = [] ∧ p before after = true := by
  constructor
  · intro h
    by_cases hp : p before (word ++ after)
    · have hmem : (⟨word.reverse ++ before, after⟩ : Cursor A) = ⟨before, word ++ after⟩ := by
        simpa [Matches, ends, hp] using h
      obtain ⟨-, hafter⟩ := Cursor.mk.inj hmem
      obtain rfl : word = [] := List.self_eq_append_left.mp hafter
      exact ⟨rfl, hp⟩
    · simp [Matches, ends, hp] at h
  · rintro ⟨rfl, hp⟩
    simp [Matches, ends, hp]

/-- One pattern after the other matches the words put together. -/
theorem matches_seq : (seq first second).Matches before word after ↔
    ∃ u v, word = u ++ v ∧ first.Matches before u (v ++ after) ∧
      second.Matches (u.reverse ++ before) v after := by
  constructor
  · intro h
    obtain ⟨d, hd, he⟩ := List.mem_flatMap.mp h
    obtain ⟨u, hu, hdbefore, hfirst⟩ := exists_matches_of_mem_ends hd
    obtain ⟨dbefore, dafter⟩ := d
    simp only at hu hdbefore hfirst
    subst hdbefore
    obtain ⟨v, hv, -, hsecond⟩ := exists_matches_of_mem_ends he
    simp only at hv hsecond
    subst hv
    rw [← List.append_assoc] at hu
    exact ⟨u, v, List.append_cancel_right hu, hfirst, hsecond⟩
  · rintro ⟨u, v, rfl, hfirst, hsecond⟩
    refine List.mem_flatMap.mpr ⟨⟨u.reverse ++ before, v ++ after⟩, ?_, ?_⟩
    · simpa [Matches] using hfirst
    · simpa [Matches] using hsecond

/-- An alternative is one of the two. -/
theorem matches_alt : (alt first second).Matches before word after ↔
    first.Matches before word after ∨ second.Matches before word after := List.mem_append

/-- No patterns match nothing but the empty word. -/
theorem matches_all_nil : (all []).Matches before word after ↔ word = [] := by
  simp [all, matches_check]

/-- Patterns in a row match the pieces of a word one by one. -/
theorem matches_all_cons {rest : List (Pattern A)} : (all (p :: rest)).Matches before word after ↔
    ∃ u v, word = u ++ v ∧ p.Matches before u (v ++ after) ∧ (all rest).Matches (u.reverse ++ before) v after :=
  matches_seq

/-- One of the patterns is matched if any of them is. -/
theorem matches_any {patterns : List (Pattern A)} : (any patterns).Matches before word after ↔
    ∃ p ∈ patterns, p.Matches before word after := by
  induction patterns with
  | nil => simp [any, matches_check]
  | cons p rest ih =>
    have hcons : (any (p :: rest)).Matches before word after ↔
        p.Matches before word after ∨ (any rest).Matches before word after := matches_alt
    rw [hcons, ih]
    simp

/-- A word is matched symbol by symbol. -/
theorem matches_word {same : A → A → Bool} {symbols : List A} :
    (Pattern.word same symbols).Matches before word after ↔
      List.Forall₂ (fun s a => same s a = true) symbols word := by
  induction symbols generalizing before word with
  | nil => simp [Pattern.word, matches_check]
  | cons s rest ih =>
    have hcons : (Pattern.word same (s :: rest)).Matches before word after ↔
        ∃ u v, word = u ++ v ∧ (one (same s)).Matches before u (v ++ after) ∧
          (Pattern.word same rest).Matches (u.reverse ++ before) v after := matches_seq
    rw [hcons]
    constructor
    · rintro ⟨u, v, rfl, hone, hrest⟩
      obtain ⟨a, rfl, ha⟩ := matches_one.mp hone
      exact .cons ha (ih.mp hrest)
    · intro h
      obtain ⟨a, v, ha, hv, rfl⟩ := List.forall₂_cons_left_iff.mp h
      exact ⟨[a], v, rfl, matches_one.mpr ⟨a, rfl, ha⟩, ih.mpr hv⟩

/-- At most one repetition. -/
theorem matches_optional {greedy : Bool} : (rep greedy 0 (some 1) p).Matches before word after ↔
    word = [] ∨ p.Matches before word after := by
  have hends : (rep greedy 0 (some 1) p).ends ⟨before, word ++ after⟩ =
      moreEnds p.ends greedy 1 ⟨before, word ++ after⟩ := rfl
  rw [Matches, hends, mem_moreEnds_succ]
  constructor
  · rintro (hsame | ⟨d, hd, he⟩)
    · exact .inl (List.self_eq_append_left.mp (Cursor.mk.inj hsame).2)
    · obtain rfl : ⟨word.reverse ++ before, after⟩ = d := by simpa [moreEnds] using he
      exact .inr hd
  · rintro (rfl | h)
    · exact .inl rfl
    · exact .inr ⟨_, h, by simp [moreEnds]⟩

/-- So many symbols of a kind at most. -/
theorem mem_moreEnds_one {p : A → Bool} {greedy : Bool} {more : ℕ} {text : List A} {e : Cursor A} :
    e ∈ moreEnds (one p).ends greedy more ⟨before, text⟩ ↔
      ∃ word, text = word ++ e.after ∧ e.before = word.reverse ++ before ∧ word.length ≤ more ∧
        ∀ a ∈ word, p a = true := by
  induction more generalizing before text with
  | zero =>
    constructor
    · intro h
      obtain rfl : e = ⟨before, text⟩ := by simpa [moreEnds] using h
      exact ⟨[], rfl, rfl, le_rfl, by simp⟩
    · rintro ⟨word, rfl, hbefore, hlength, -⟩
      obtain rfl : word = [] := List.length_eq_zero_iff.mp (Nat.le_zero.mp hlength)
      cases e
      simpa [moreEnds] using hbefore
  | succ more ih =>
    rw [mem_moreEnds_succ]
    constructor
    · rintro (rfl | ⟨d, hd, he⟩)
      · exact ⟨[], rfl, rfl, Nat.zero_le _, by simp⟩
      · obtain ⟨u, rfl, hu, hmatches⟩ := exists_matches_of_mem_ends hd
        obtain ⟨a, rfl, ha⟩ := matches_one.mp hmatches
        obtain ⟨dbefore, dafter⟩ := d
        simp only at hu he
        subst hu
        obtain ⟨word, rfl, hbefore, hlength, hall⟩ := ih.mp he
        exact ⟨a :: word, rfl, by simpa using hbefore, Nat.succ_le_succ hlength, by simpa [ha] using hall⟩
    · rintro ⟨word, rfl, hbefore, hlength, hall⟩
      cases word with
      | nil =>
        cases e
        exact .inl (by simpa using hbefore)
      | cons a word =>
        have ha : p a = true := hall a List.mem_cons_self
        refine .inr ⟨⟨a :: before, word ++ e.after⟩, by simp [ends, ha], ih.mpr ⟨word, rfl, ?_, ?_, ?_⟩⟩
        · simpa using hbefore
        · exact Nat.le_of_succ_le_succ hlength
        · exact fun b hb => hall b (List.mem_cons_of_mem _ hb)

/-- Any number of symbols of a kind. -/
theorem matches_star {p : A → Bool} {greedy : Bool} :
    (rep greedy 0 none (one p)).Matches before word after ↔ ∀ a ∈ word, p a = true := by
  have hends : (rep greedy 0 none (one p)).ends ⟨before, word ++ after⟩ =
      moreEnds (one p).ends greedy (word ++ after).length ⟨before, word ++ after⟩ := rfl
  rw [Matches, hends, mem_moreEnds_one]
  constructor
  · rintro ⟨u, hu, -, -, hall⟩
    rwa [List.append_cancel_right hu]
  · intro hall
    exact ⟨word, rfl, rfl, by simp, hall⟩

/-- At least one symbol of a kind. -/
theorem matches_plus {p : A → Bool} {greedy : Bool} :
    (rep greedy 1 none (one p)).Matches before word after ↔ word ≠ [] ∧ ∀ a ∈ word, p a = true := by
  have hends : (rep greedy 1 none (one p)).ends ⟨before, word ++ after⟩ =
      ((one p).ends ⟨before, word ++ after⟩).flatMap
        (moreEnds (one p).ends greedy (word ++ after).length) := rfl
  rw [Matches, hends, List.mem_flatMap]
  constructor
  · rintro ⟨d, hd, he⟩
    obtain ⟨u, hu, hdbefore, hmatches⟩ := exists_matches_of_mem_ends hd
    obtain ⟨a, rfl, ha⟩ := matches_one.mp hmatches
    obtain ⟨dbefore, dafter⟩ := d
    simp only at hu hdbefore he
    subst hdbefore
    obtain ⟨v, rfl, -, -, hall⟩ := mem_moreEnds_one.mp he
    obtain rfl : word = a :: v := by
      rw [← List.append_assoc] at hu
      exact List.append_cancel_right hu
    exact ⟨by simp, by simpa [ha] using hall⟩
  · rintro ⟨hne, hall⟩
    obtain ⟨a, v, rfl⟩ := List.exists_cons_of_ne_nil hne
    have ha : p a = true := hall a List.mem_cons_self
    refine ⟨⟨a :: before, v ++ after⟩, by simp [ends, ha], mem_moreEnds_one.mpr ⟨v, rfl, by simp, ?_, ?_⟩⟩
    · simp
      omega
    · exact fun b hb => hall b (List.mem_cons_of_mem _ hb)

/-- A search from a place succeeds when some word after it is matched. -/
theorem searchFrom_iff {text : List A} : p.searchFrom before text = true ↔
    ∃ u word after, text = u ++ word ++ after ∧ p.Matches (u.reverse ++ before) word after := by
  have hfirst : ∀ before text : List A, (p.firstEnd ⟨before, text⟩).isSome = true ↔
      ∃ word after, text = word ++ after ∧ p.Matches before word after := by
    intro before text
    have hmem : (p.firstEnd ⟨before, text⟩).isSome = true ↔ ∃ e, e ∈ p.ends ⟨before, text⟩ := by
      simp [firstEnd, List.isSome_head?, List.eq_nil_iff_forall_not_mem]
    rw [hmem]
    constructor
    · rintro ⟨e, he⟩
      obtain ⟨word, hword, -, hmatches⟩ := exists_matches_of_mem_ends he
      exact ⟨word, e.after, hword, hmatches⟩
    · rintro ⟨word, after, rfl, hmatches⟩
      exact ⟨_, hmatches⟩
  induction text generalizing before with
  | nil =>
    rw [searchFrom, hfirst]
    constructor
    · rintro ⟨word, after, hnil, hmatches⟩
      exact ⟨[], word, after, hnil, hmatches⟩
    · rintro ⟨u, word, after, hnil, hmatches⟩
      obtain ⟨rfl, rfl, rfl⟩ : u = [] ∧ word = [] ∧ after = [] := by simpa using hnil.symm
      exact ⟨[], [], rfl, hmatches⟩
  | cons a rest ih =>
    rw [searchFrom, Bool.or_eq_true, hfirst]
    refine (or_congr_right ih).trans ?_
    constructor
    · rintro (⟨word, after, htext, hmatches⟩ | ⟨u, word, after, rfl, hmatches⟩)
      · exact ⟨[], word, after, htext, hmatches⟩
      · exact ⟨a :: u, word, after, rfl, by simpa using hmatches⟩
    · rintro ⟨u, word, after, htext, hmatches⟩
      cases u with
      | nil => exact .inl ⟨word, after, htext, hmatches⟩
      | cons b u =>
        obtain ⟨rfl, rfl⟩ := List.cons.inj htext
        exact .inr ⟨u, word, after, rfl, by simpa using hmatches⟩

/-- A search succeeds when some word of the text is matched. -/
theorem search_iff {text : List A} : p.search text = true ↔
    ∃ before word after, text = before ++ word ++ after ∧ p.Matches before.reverse word after := by
  simp [search, searchFrom_iff]

section First

/-- At the end there is no symbol. -/
theorem ends_one_nil (p : A → Bool) (before : List A) : (one p).ends ⟨before, []⟩ = [] := rfl

/-- A symbol of the class is taken, any other is not. -/
theorem ends_one_cons (p : A → Bool) (before : List A) (a : A) (rest : List A) :
    (one p).ends ⟨before, a :: rest⟩ = if p a then [⟨a :: before, rest⟩] else [] := rfl

/-- The first end with which the rest of a pattern succeeds, and what that gives. -/
def firstWith (p : Pattern A) (c : Cursor A) (rest : Cursor A → Option B) : Option B :=
  (p.ends c).findSome? rest

variable {c : Cursor A} {rest : Cursor A → Option B}

/-- The first end is the first from which anything goes on. -/
theorem firstEnd_eq_firstWith (p : Pattern A) (c : Cursor A) : p.firstEnd c = p.firstWith c some := by
  unfold firstEnd firstWith
  cases p.ends c <;> rfl

/-- One symbol is taken if the text goes on with one of the class. -/
theorem firstWith_one (p : A → Bool) : (one p).firstWith c rest =
    match c.after with
    | a :: text => if p a then rest ⟨a :: c.before, text⟩ else none
    | [] => none := by
  obtain ⟨before, after⟩ := c
  cases after with
  | nil => rfl
  | cons a text => by_cases ha : p a <;> simp [firstWith, ends, ha]

/-- A check is passed or not. -/
theorem firstWith_check (p : List A → List A → Bool) :
    (check p).firstWith c rest = if p c.before c.after then rest c else none := by
  by_cases hp : p c.before c.after <;> simp [firstWith, ends, hp]

/-- What is tried after any of several ends is tried after one end after the other. -/
theorem findSome?_flatMap (ends : Cursor A → List (Cursor A)) (places : List (Cursor A)) :
    (places.flatMap ends).findSome? rest = places.findSome? fun d => (ends d).findSome? rest := by
  induction places with
  | nil => rfl
  | cons d places ih => cases hd : (ends d).findSome? rest <;> simp [hd, ih]

/-- The second pattern goes on where the first has ended. -/
theorem firstWith_seq : (seq first second).firstWith c rest =
    first.firstWith c fun d => second.firstWith d rest := findSome?_flatMap _ _

/-- Without patterns the match goes on at once. -/
theorem firstWith_all_nil : (all []).firstWith c rest = rest c := by simp [all, firstWith_check]

/-- The first of the patterns is followed by the others. -/
theorem firstWith_all_cons {patterns : List (Pattern A)} : (all (p :: patterns)).firstWith c rest =
    p.firstWith c fun d => (all patterns).firstWith d rest := firstWith_seq

/-- A repetition tries one more and no more, in the order of its greed. -/
theorem firstWith_moreEnds_succ (ends : Cursor A → List (Cursor A)) (greedy : Bool) (more : ℕ) :
    (moreEnds ends greedy (more + 1) c).findSome? rest =
      let longer := (ends c).findSome? fun d => (moreEnds ends greedy more d).findSome? rest
      if greedy then longer.or (rest c) else (rest c).or longer := by
  cases greedy with
  | true => cases hrest : rest c <;> simp [moreEnds, findSome?_flatMap, List.findSome?_append, hrest]
  | false => cases hrest : rest c <;> simp [moreEnds, findSome?_flatMap, hrest]

/-- At most one repetition, and one if the rest succeeds with it. -/
theorem firstWith_optional : (rep true 0 (some 1) p).firstWith c rest = (p.firstWith c rest).or (rest c) := by
  have hends : (rep true 0 (some 1) p).firstWith c rest = (moreEnds p.ends true 1 c).findSome? rest := rfl
  rw [hends, firstWith_moreEnds_succ]
  simp [moreEnds, firstWith]

/-- Any symbols, as few as possible: the rest is tried on one suffix after the other. -/
theorem firstWith_lazy_star (next : List A → Option B) :
    (rep false 0 none (one fun _ => true)).firstWith c (fun d => next d.after) =
      c.after.tails.findSome? next := by
  have hmore : ∀ (more : ℕ) (c : Cursor A), c.after.length ≤ more →
      (moreEnds (one fun _ => true).ends false more c).findSome? (fun d => next d.after) =
        c.after.tails.findSome? next := by
    intro more
    induction more with
    | zero =>
      intro c hc
      have hnil : c.after = [] := List.length_eq_zero_iff.mp (Nat.le_zero.mp hc)
      simp [moreEnds, hnil]
    | succ more ih =>
      rintro ⟨before, after⟩ hc
      rw [firstWith_moreEnds_succ]
      cases after with
      | nil => cases hnext : next [] <;> simp [ends_one_nil, hnext]
      | cons a text =>
        have hrest := ih ⟨a :: before, text⟩ (Nat.le_of_succ_le_succ hc)
        cases hnext : next (a :: text) <;> simp [ends_one_cons, hnext, hrest]
  exact hmore c.after.length c le_rfl

/-- Any symbols, as many as possible: the rest is tried at the end first. -/
theorem firstWith_greedy_star {next : List A → Option B} {b : B} (hend : next [] = some b) :
    (rep true 0 none (one fun _ => true)).firstWith c (fun d => next d.after) = some b := by
  have hmore : ∀ (more : ℕ) (c : Cursor A), c.after.length ≤ more →
      (moreEnds (one fun _ => true).ends true more c).findSome? (fun d => next d.after) = some b := by
    intro more
    induction more with
    | zero =>
      intro c hc
      have hnil : c.after = [] := List.length_eq_zero_iff.mp (Nat.le_zero.mp hc)
      simp [moreEnds, hnil, hend]
    | succ more ih =>
      rintro ⟨before, after⟩ hc
      rw [firstWith_moreEnds_succ]
      cases after with
      | nil => simp [ends_one_nil, hend]
      | cons a text =>
        have hrest := ih ⟨a :: before, text⟩ (Nat.le_of_succ_le_succ hc)
        simp [ends_one_cons, hrest]
  exact hmore c.after.length c le_rfl

end First

end Pattern

section Words

/-- What follows the word that a text starts with. A word is given by a test for each of its symbols. -/
def dropWord : List (A → Bool) → List A → Option (List A)
  | [], text => some text
  | p :: word, a :: text => if p a then dropWord word text else none
  | _ :: _, [] => none

/-- What follows the first such word of a text. -/
def afterFirst (word : List (A → Bool)) (text : List A) : Option (List A) := text.tails.findSome? (dropWord word)

/-- The pattern of a word. -/
def Pattern.spelled (word : List (A → Bool)) : Pattern A :=
  word.foldr (fun p rest => .seq (.one p) rest) (.check fun _ _ => true)

/-- A word is spelled by its symbols. -/
theorem Pattern.word_eq_spelled (same : A → A → Bool) (symbols : List A) :
    Pattern.word same symbols = spelled (symbols.map same) := by
  simp [Pattern.word, spelled, List.foldr_map]

/-- A word is tried symbol by symbol. -/
theorem Pattern.firstWith_spelled (word : List (A → Bool)) (c : Cursor A) (next : List A → Option B) :
    (spelled word).firstWith c (fun d => next d.after) = (dropWord word c.after).bind next := by
  induction word generalizing c with
  | nil => simp [spelled, firstWith_check, dropWord]
  | cons p rest ih =>
    have hcons : (spelled (p :: rest)).firstWith c (fun d => next d.after) =
        (one p).firstWith c fun d => (spelled rest).firstWith d fun d => next d.after := firstWith_seq
    rw [hcons, firstWith_one]
    obtain ⟨before, after⟩ := c
    cases after with
    | nil => rfl
    | cons a text => by_cases ha : p a <;> simp [dropWord, ha, ih]

end Words

section Removal

/-- What is left of a text, after so many symbols of a match, when matches are cut out from the left. The
first argument tells of a text what follows the match that it starts with. -/
def removeFrom (next : List A → Option (List A)) : ℕ → List A → List A
  | _, [] => []
  | skip + 1, _ :: rest => removeFrom next skip rest
  | 0, a :: rest =>
    match next (a :: rest) with
    | some after => removeFrom next (rest.length - after.length) rest
    | none => a :: removeFrom next 0 rest

/-- What is left of a text when matches are cut out from the left. -/
def remove (next : List A → Option (List A)) (text : List A) : List A := removeFrom next 0 text

variable {next : List A → Option (List A)} {a : A} {text rest after : List A}

/-- Nothing is removed from nothing. -/
@[simp] theorem remove_nil : remove next [] = [] := rfl

/-- What is skipped does not matter. -/
theorem removeFrom_eq_remove_drop (skip : ℕ) (text : List A) :
    removeFrom next skip text = remove next (text.drop skip) := by
  induction text generalizing skip with
  | nil => cases skip <;> rfl
  | cons a rest ih =>
    cases skip with
    | zero => rfl
    | succ skip => exact ih skip

/-- Where nothing matches, the symbol stays. -/
theorem remove_cons_of_none (h : next (a :: rest) = none) : remove next (a :: rest) = a :: remove next rest := by
  simp [remove, removeFrom, h]

/-- Where something matches, removing goes on behind it. -/
theorem remove_of_some (h : next (a :: rest) = some after) (hafter : after <:+ rest) :
    remove next (a :: rest) = remove next after := by
  obtain ⟨word, rfl⟩ := hafter
  have hdrop : (word ++ after).drop ((word ++ after).length - after.length) = after := by
    rw [List.length_append, Nat.add_sub_cancel, List.drop_left]
  rw [remove, removeFrom, h]
  simp only
  rw [removeFrom_eq_remove_drop, hdrop]

/-- A pattern that looks at nothing before it leaves what is left when its matches are cut out. -/
theorem Pattern.removeAll_eq_remove {p : Pattern A}
    (hnext : ∀ c, (p.firstEnd c).map Cursor.after = next c.after)
    (hafter : ∀ a rest after, next (a :: rest) = some after → after <:+ rest) (text : List A) :
    p.removeAll text = remove next text := by
  have hpieces : ∀ {f : Piece A → Option A}, (∀ word, f (.matched word) = none) → (∀ a, f (.kept a) = some a) →
      ∀ (steps : ℕ) (c : Cursor A), c.after.length ≤ steps →
        (p.piecesFrom steps c).filterMap f = remove next c.after := by
    intro f hmatched hkept steps
    induction steps with
    | zero =>
      intro c hc
      have hnil : c.after = [] := List.length_eq_zero_iff.mp (Nat.le_zero.mp hc)
      simp [piecesFrom, hnil]
    | succ steps ih =>
      rintro ⟨before, text⟩ hc
      cases text with
      | nil => rfl
      | cons a rest =>
        have hfirst := hnext ⟨before, a :: rest⟩
        have hrest : rest.length ≤ steps := Nat.le_of_succ_le_succ hc
        cases hend : p.firstEnd ⟨before, a :: rest⟩ with
        | none =>
          have hnone : next (a :: rest) = none := by simpa [hend] using hfirst.symm
          simpa [piecesFrom, hend, remove_cons_of_none hnone, hkept] using ih ⟨a :: before, rest⟩ hrest
        | some e =>
          have hsome : next (a :: rest) = some e.after := by simpa [hend] using hfirst.symm
          have hsuffix := hafter a rest e.after hsome
          simpa [piecesFrom, hend, remove_of_some hsome hsuffix, hmatched] using ih e (hsuffix.length_le.trans hrest)
  exact hpieces (fun _ => rfl) (fun _ => rfl) text.length ⟨[], text⟩ le_rfl

end Removal

end Backtracking
