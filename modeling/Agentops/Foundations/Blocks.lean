import Agentops.Foundations.Matching

/-!
# Blocks between tags

A text with an opening and a closing tag, from which a first pass removes every stretch from an opening tag
to the next closing tag, and a second pass everything from the first opening tag that is then left. Tags
begin with a symbol that they do not have again, so that they do not overlap. A layout of a text names the
stretches that the first pass removes; every text has one.
-/

namespace Blocks

open Backtracking

variable {A B : Type}

section Words

/-- The text has the word somewhere. -/
def contains (word : List (A → Bool)) (text : List A) : Bool := text.tails.any fun rest => (dropWord word rest).isSome

variable {word : List (A → Bool)} {text rest after x y u : List A} {a : A}

/-- A text contains a word at its front or further on. -/
theorem contains_cons : contains word (a :: rest) = ((dropWord word (a :: rest)).isSome || contains word rest) := by
  simp [contains]

/-- What follows the first occurrence follows it at the front or further on. -/
theorem afterFirst_cons : afterFirst word (a :: rest) =
    (dropWord word (a :: rest)).or (afterFirst word rest) := by
  cases h : dropWord word (a :: rest) <;> simp [afterFirst, h]

/-- A word at the start of a text is there whatever follows. -/
theorem dropWord_append (h : dropWord word x = some after) (y : List A) :
    dropWord word (x ++ y) = some (after ++ y) := by
  induction word generalizing x with
  | nil =>
    obtain rfl : x = after := Option.some.inj h
    rfl
  | cons p word ih =>
    cases x with
    | nil => simp [dropWord] at h
    | cons a x =>
      by_cases ha : p a
      · simp only [dropWord, ha, if_true, List.cons_append] at h ⊢
        exact ih h
      · simp [dropWord, ha] at h

/-- The symbols of the word stand before what follows it. -/
theorem exists_of_dropWord (h : dropWord word text = some after) :
    ∃ u, text = u ++ after ∧ dropWord word u = some [] := by
  induction word generalizing text with
  | nil =>
    obtain rfl : text = after := Option.some.inj h
    exact ⟨[], rfl, rfl⟩
  | cons p word ih =>
    cases text with
    | nil => simp [dropWord] at h
    | cons a text =>
      by_cases ha : p a
      · obtain ⟨u, rfl, hu⟩ := ih (by simpa [dropWord, ha] using h)
        exact ⟨a :: u, rfl, by simpa [dropWord, ha] using hu⟩
      · simp [dropWord, ha] at h

/-- What follows a word is an end of the text. -/
theorem suffix_of_dropWord (h : dropWord word text = some after) : after <:+ text := by
  obtain ⟨u, rfl, -⟩ := exists_of_dropWord h
  exact List.suffix_append u after

/-- It is shorter by one symbol at least. -/
theorem suffix_of_dropWord_cons {p : A → Bool} (h : dropWord (p :: word) (a :: rest) = some after) :
    after <:+ rest := by
  by_cases ha : p a
  · exact suffix_of_dropWord (by simpa [dropWord, ha] using h)
  · simp [dropWord, ha] at h

/-- A word that reaches into what begins with a symbol that the word does not have ends before it. -/
theorem isSome_dropWord_of_append {b : A} (hword : ∀ q ∈ word, q b = false)
    (h : (dropWord word (x ++ b :: y)).isSome) : (dropWord word x).isSome := by
  induction word generalizing x with
  | nil => rfl
  | cons q word ih =>
    cases x with
    | nil => simp [dropWord, hword q List.mem_cons_self] at h
    | cons a x =>
      by_cases ha : q a
      · simp only [dropWord, ha, if_true, List.cons_append] at h ⊢
        exact ih (fun q hq => hword q (List.mem_cons_of_mem _ hq)) h
      · simp [dropWord, ha] at h

/-- A word is spelled symbol by symbol. -/
theorem dropWord_eq_nil_iff : dropWord word u = some [] ↔ List.Forall₂ (fun p a => p a = true) word u := by
  induction word generalizing u with
  | nil => simp [dropWord]
  | cons p word ih =>
    cases u with
    | nil => simp [dropWord]
    | cons a u => by_cases ha : p a <;> simp [dropWord, ha, ih]

/-- A text contains a word if the word is spelled somewhere in it. -/
theorem contains_iff : contains word text = true ↔
    ∃ x u y, text = x ++ (u ++ y) ∧ dropWord word u = some [] := by
  constructor
  · intro h
    obtain ⟨rest, hrest, hword⟩ := List.any_eq_true.mp h
    obtain ⟨x, rfl⟩ := (List.mem_tails _ _).mp hrest
    obtain ⟨after, hafter⟩ := Option.isSome_iff_exists.mp hword
    obtain ⟨u, rfl, hu⟩ := exists_of_dropWord hafter
    exact ⟨x, u, after, rfl, hu⟩
  · rintro ⟨x, u, y, rfl, hu⟩
    refine List.any_eq_true.mpr ⟨u ++ y, (List.mem_tails _ _).mpr ⟨x, rfl⟩, ?_⟩
    rw [dropWord_append hu]
    rfl

/-- A part of a text has no tags that the text does not have. -/
theorem contains_append_eq_false (h : contains word (x ++ y) = false) :
    contains word x = false ∧ contains word y = false := by
  constructor
  · by_contra hx
    obtain ⟨p, u, q, rfl, hu⟩ := contains_iff.mp (by simpa using hx)
    rw [contains_iff.mpr ⟨p, u, q ++ y, by simp, hu⟩] at h
    exact absurd h (by simp)
  · by_contra hy
    obtain ⟨p, u, q, rfl, hu⟩ := contains_iff.mp (by simpa using hy)
    rw [contains_iff.mpr ⟨x ++ p, u, q, by simp, hu⟩] at h
    exact absurd h (by simp)

/-- Searching for a word finds it if the text contains it. -/
theorem search_word (same : A → A → Bool) (symbols text : List A) :
    (Pattern.word same symbols).search text = contains (symbols.map same) text := by
  rw [Bool.eq_iff_iff, Pattern.search_iff, contains_iff]
  simp only [Pattern.matches_word, dropWord_eq_nil_iff, List.forall₂_map_left_iff, List.append_assoc]

end Words

/-- An opening and a closing tag that begin with the same symbol. Neither has it again, and no text starts
with both. -/
structure TagPair (A : Type) where
  first : A → Bool
  openingRest : List (A → Bool)
  closingRest : List (A → Bool)
  apart : ∀ q ∈ openingRest ++ closingRest, ∀ a, first a = true → q a = false
  exclusive : ∀ text, (dropWord openingRest text).isSome → dropWord closingRest text = none

namespace TagPair

variable (tags : TagPair A)

/-- The opening tag. -/
def opening : List (A → Bool) := tags.first :: tags.openingRest

/-- The closing tag. -/
def closing : List (A → Bool) := tags.first :: tags.closingRest

/-- What follows the block that a text starts with. -/
def afterBlock (text : List A) : Option (List A) := (dropWord tags.opening text).bind (afterFirst tags.closing)

/-- What follows an opening tag is all part of it, if it is removed with everything behind it. -/
def afterOpenEnd (text : List A) : Option (List A) := (dropWord tags.opening text).map fun _ => []

/-- The text before its first opening tag. -/
def cut (text : List A) : List A := remove tags.afterOpenEnd text

/-- The tag is one of the two. -/
def IsTag (word : List (A → Bool)) : Prop := word = tags.opening ∨ word = tags.closing

/-- The text is empty or begins with the symbol that tags begin with. -/
def BeginsTag (text : List A) : Prop := ∀ a rest, text = a :: rest → tags.first a = true

variable {tags} {word : List (A → Bool)} {text x y u z : List A}

/-- A tag has the first symbol, and no other like it. -/
theorem IsTag.exists_rest (h : tags.IsTag word) :
    ∃ rest, word = tags.first :: rest ∧ ∀ q ∈ rest, ∀ a, tags.first a = true → q a = false := by
  rcases h with rfl | rfl
  · exact ⟨tags.openingRest, rfl, fun q hq => tags.apart q (List.mem_append_left _ hq)⟩
  · exact ⟨tags.closingRest, rfl, fun q hq => tags.apart q (List.mem_append_right _ hq)⟩

/-- The opening tag is one of the two. -/
theorem isTag_opening (tags : TagPair A) : tags.IsTag tags.opening := .inl rfl

/-- The closing tag is the other. -/
theorem isTag_closing (tags : TagPair A) : tags.IsTag tags.closing := .inr rfl

/-- What is spelled like a tag begins like one, and so does what follows it then. -/
theorem beginsTag_append (hword : tags.IsTag word) (hu : dropWord word u = some []) (z : List A) :
    tags.BeginsTag (u ++ z) := by
  obtain ⟨rest, rfl, -⟩ := hword.exists_rest
  cases u with
  | nil => simp [dropWord] at hu
  | cons a u =>
    intro b text hcons
    obtain ⟨rfl, -⟩ := List.cons.inj hcons
    by_contra hfirst
    simp [dropWord, hfirst] at hu

/-- A tag does not reach into the next one. -/
theorem isSome_dropWord_of_append (hword : tags.IsTag word) {a : A} (hy : tags.BeginsTag y)
    (h : (dropWord word (a :: x ++ y)).isSome) : (dropWord word (a :: x)).isSome := by
  obtain ⟨rest, rfl, hrest⟩ := hword.exists_rest
  by_cases ha : tags.first a
  · simp only [dropWord, ha, if_true, List.cons_append] at h ⊢
    cases y with
    | nil => simpa using h
    | cons b y => exact Blocks.isSome_dropWord_of_append (fun q hq => hrest q hq b (hy b y rfl)) h
  · simp [dropWord, ha] at h

/-- What stands before a tag is passed over when there is none in it. -/
theorem dropWord_append_eq_none (hword : tags.IsTag word) (hy : tags.BeginsTag y) {a : A}
    (hclear : contains word (a :: x) = false) : dropWord word (a :: (x ++ y)) = none := by
  rw [contains_cons, Bool.or_eq_false_iff] at hclear
  by_contra hsome
  have hhead := isSome_dropWord_of_append hword hy (Option.isSome_iff_ne_none.mpr hsome)
  rw [hclear.1] at hhead
  exact absurd hhead (by simp)

/-- A text that contains a tag can be split at the first one. -/
theorem exists_first_of_contains (hword : tags.IsTag word) (h : contains word text = true) :
    ∃ x u y, text = x ++ (u ++ y) ∧ dropWord word u = some [] ∧ contains word x = false := by
  obtain ⟨rest, hrest, -⟩ := hword.exists_rest
  induction text with
  | nil => simp [contains, hrest, dropWord] at h
  | cons a text ih =>
    cases hhead : dropWord word (a :: text) with
    | some after =>
      obtain ⟨u, hu, hword⟩ := exists_of_dropWord hhead
      exact ⟨[], u, after, hu, hword, by simp [contains, hrest, dropWord]⟩
    | none =>
      obtain ⟨x, u, y, rfl, hu, hx⟩ := ih (by simpa [contains_cons, hhead] using h)
      refine ⟨a :: x, u, y, rfl, hu, ?_⟩
      rw [contains_cons, hx, Bool.or_false, Option.isSome_eq_false_iff, Option.isNone_iff_eq_none]
      by_contra hsome
      obtain ⟨after, hafter⟩ := Option.ne_none_iff_exists'.mp hsome
      rw [← List.cons_append, dropWord_append hafter] at hhead
      exact absurd hhead (by simp)

/-- The first tag is found behind what has none. -/
theorem afterFirst_append (hword : tags.IsTag word) (hu : dropWord word u = some [])
    (hclear : contains word x = false) : afterFirst word (x ++ (u ++ y)) = some y := by
  have hy := beginsTag_append hword hu y
  induction x with
  | nil =>
    obtain ⟨a, u, rfl⟩ : ∃ a v, u = a :: v := by
      obtain ⟨rest, rfl, -⟩ := hword.exists_rest
      cases u with
      | nil => simp [dropWord] at hu
      | cons a u => exact ⟨a, u, rfl⟩
    rw [List.nil_append, List.cons_append, afterFirst_cons, ← List.cons_append, dropWord_append hu]
    rfl
  | cons a x ih =>
    rw [List.cons_append, afterFirst_cons, dropWord_append_eq_none hword hy hclear, Option.none_or]
    rw [contains_cons, Bool.or_eq_false_iff] at hclear
    exact ih hclear.2

/-- Without a tag none is found. -/
theorem afterFirst_eq_none (h : contains word text = false) : afterFirst word text = none := by
  unfold afterFirst
  rw [List.findSome?_eq_none_iff]
  intro rest hrest
  have hnot := List.any_eq_false.mp h rest hrest
  simpa using hnot

section Cut

/-- A text is left as it is up to a place where a tag begins, if no removed stretch starts before. -/
theorem remove_append (next : List A → Option (List A)) (hclear : contains tags.opening x = false)
    (hnext : ∀ text, dropWord tags.opening text = none → next text = none) (hy : tags.BeginsTag y) :
    remove next (x ++ y) = x ++ remove next y := by
  induction x with
  | nil => rfl
  | cons a x ih =>
    have hnone := hnext _ (dropWord_append_eq_none tags.isTag_opening hy hclear)
    rw [contains_cons, Bool.or_eq_false_iff] at hclear
    rw [List.cons_append, remove_cons_of_none hnone, ih hclear.2]
    rfl

/-- The empty text need not begin with anything. -/
theorem beginsTag_nil : tags.BeginsTag [] := fun _ _ h => absurd h (by simp)

/-- A text without an opening tag is left as it is. -/
theorem cut_of_clear (h : contains tags.opening text = false) : tags.cut text = text := by
  have happend := remove_append tags.afterOpenEnd h (fun text hnone => by simp [afterOpenEnd, hnone])
    beginsTag_nil
  simpa [cut] using happend

/-- From the first opening tag on everything is cut. -/
theorem cut_append_of_clear (h : contains tags.opening x = false) (hu : dropWord tags.opening u = some [])
    (y : List A) : tags.cut (x ++ (u ++ y)) = x := by
  have hy := beginsTag_append tags.isTag_opening hu y
  have hcut : tags.cut (u ++ y) = [] := by
    cases u with
    | nil => simp [opening, dropWord] at hu
    | cons a u =>
      have hend : tags.afterOpenEnd (a :: u ++ y) = some [] := by
        rw [afterOpenEnd, dropWord_append hu y]
        rfl
      exact remove_of_some hend (List.nil_suffix)
  have happend := remove_append tags.afterOpenEnd h (fun text hnone => by simp [afterOpenEnd, hnone]) hy
  rw [cut, happend]
  change x ++ tags.cut (u ++ y) = x
  rw [hcut, List.append_nil]

/-- What is left has no opening tag, and the text goes on with one if anything was cut. -/
theorem cut_cases (tags : TagPair A) (text : List A) : contains tags.opening (tags.cut text) = false ∧
    (tags.cut text = text ∨ ∃ u y, text = tags.cut text ++ (u ++ y) ∧ dropWord tags.opening u = some []) := by
  by_cases h : contains tags.opening text
  · obtain ⟨x, u, y, rfl, hu, hx⟩ := exists_first_of_contains tags.isTag_opening h
    rw [cut_append_of_clear hx hu]
    exact ⟨hx, .inr ⟨u, y, rfl, hu⟩⟩
  · have hclear : contains tags.opening text = false := by simpa using h
    rw [cut_of_clear hclear]
    exact ⟨hclear, .inl rfl⟩

/-- An opening tag behind a text cuts nothing more than the text's own first one. -/
theorem cut_append_opening (hu : dropWord tags.opening u = some []) (x y : List A) :
    tags.cut (x ++ (u ++ y)) = tags.cut x := by
  obtain ⟨hclear, hsame | ⟨v, z, hx, hv⟩⟩ := tags.cut_cases x
  · rw [hsame] at hclear
    rw [cut_append_of_clear hclear hu, hsame]
  · have hsplit : x ++ (u ++ y) = tags.cut x ++ (v ++ (z ++ (u ++ y))) := by
      conv_lhs => rw [hx]
      simp
    rw [hsplit, cut_append_of_clear hclear hv]

end Cut

section Patterns

/-- The pattern of a block: an opening tag and as little as possible up to a closing tag. -/
def block (tags : TagPair A) : Pattern A :=
  .all [.spelled tags.opening, .rep false 0 none (.one fun _ => true), .spelled tags.closing]

/-- The pattern of an opening tag with everything behind it. -/
def openEnd (tags : TagPair A) (atEnd : List A → Bool) : Pattern A :=
  .all [.spelled tags.opening, .rep true 0 none (.one fun _ => true), .check fun _ after => atEnd after]

/-- What the rest makes of an end may be changed afterwards. -/
theorem map_firstWith {C : Type} (p : Pattern A) (c : Cursor A) (rest : Cursor A → Option B) (f : B → C) :
    (p.firstWith c rest).map f = p.firstWith c fun d => (rest d).map f := by
  unfold Pattern.firstWith
  induction p.ends c with
  | nil => rfl
  | cons d places ih => cases hd : rest d <;> simp [hd, ih]

/-- The block that a search finds first is the one that is removed. -/
theorem firstEnd_block (tags : TagPair A) (c : Cursor A) :
    (tags.block.firstEnd c).map Cursor.after = tags.afterBlock c.after := by
  have hclosing : ∀ d : Cursor A, (Pattern.all [.spelled tags.closing]).firstWith d
      (fun e => (some e).map Cursor.after) = dropWord tags.closing d.after := by
    intro d
    rw [Pattern.firstWith_all_cons]
    simp only [Pattern.firstWith_all_nil]
    exact (Pattern.firstWith_spelled tags.closing d some).trans (by simp)
  have hinside : ∀ d : Cursor A, (Pattern.all [.rep false 0 none (.one fun _ => true),
      .spelled tags.closing]).firstWith d (fun e => (some e).map Cursor.after) =
        afterFirst tags.closing d.after := by
    intro d
    rw [Pattern.firstWith_all_cons]
    simp only [hclosing]
    exact Pattern.firstWith_lazy_star _
  rw [Pattern.firstEnd_eq_firstWith, map_firstWith, block, Pattern.firstWith_all_cons]
  simp only [hinside]
  exact Pattern.firstWith_spelled _ _ _

/-- And so it is with a tag that is left open. -/
theorem firstEnd_openEnd (tags : TagPair A) {atEnd : List A → Bool} (hend : atEnd [] = true) (c : Cursor A) :
    ((tags.openEnd atEnd).firstEnd c).map Cursor.after = tags.afterOpenEnd c.after := by
  have hcheck : ∀ d : Cursor A, (Pattern.all [.check fun _ after => atEnd after]).firstWith d
      (fun e => (some e).map Cursor.after) = if atEnd d.after then some d.after else none := by
    intro d
    rw [Pattern.firstWith_all_cons]
    simp only [Pattern.firstWith_all_nil, Pattern.firstWith_check, Option.map_some]
  have hrest : ∀ d : Cursor A, (Pattern.all [.rep true 0 none (.one fun _ => true),
      .check fun _ after => atEnd after]).firstWith d (fun e => (some e).map Cursor.after) = some [] := by
    intro d
    rw [Pattern.firstWith_all_cons]
    simp only [hcheck]
    let next : List A → Option (List A) := fun text => if atEnd text then some text else none
    have hnext : next [] = some [] := by simp [next, hend]
    exact Pattern.firstWith_greedy_star hnext
  rw [Pattern.firstEnd_eq_firstWith, map_firstWith, openEnd, Pattern.firstWith_all_cons]
  simp only [hrest]
  refine (Pattern.firstWith_spelled _ _ fun _ => some []).trans ?_
  rw [afterOpenEnd]
  cases dropWord tags.opening c.after <;> rfl

/-- Cutting out blocks leaves what the pattern leaves. -/
theorem removeAll_block (tags : TagPair A) (text : List A) :
    tags.block.removeAll text = remove tags.afterBlock text := by
  refine Pattern.removeAll_eq_remove tags.firstEnd_block (fun a rest after h => ?_) text
  obtain ⟨inside, hinside, hafter⟩ := Option.bind_eq_some_iff.mp h
  obtain ⟨tail, htail, hclosing⟩ := List.exists_of_findSome?_eq_some hafter
  have hsuffix := (suffix_of_dropWord hclosing).trans ((List.mem_tails _ _).mp htail)
  exact hsuffix.trans (suffix_of_dropWord_cons hinside)

/-- Cutting off open ends leaves what the pattern leaves. -/
theorem removeAll_openEnd (tags : TagPair A) {atEnd : List A → Bool} (hend : atEnd [] = true) (text : List A) :
    (tags.openEnd atEnd).removeAll text = tags.cut text := by
  refine Pattern.removeAll_eq_remove (tags.firstEnd_openEnd hend) (fun a rest after h => ?_) text
  obtain ⟨inside, -, rfl⟩ := Option.map_eq_some_iff.mp h
  exact List.nil_suffix

end Patterns

end TagPair

end Blocks
