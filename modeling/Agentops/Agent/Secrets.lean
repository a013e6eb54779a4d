import Agentops.Agent.Guardrails
import Agentops.Foundations.Matching

/-!
# Assignments of secrets

What the pattern for secrets finds: one of three keywords at the start of a word, directly followed by a sign and
a value. Assignments whose keyword is the end of a longer name, or stands in quotes, are none of these.
-/

namespace Agentops

open Backtracking

/-- The characters write the word, in any letter case. -/
def Spells (word : String) (written : List Char) : Prop :=
  List.Forall₂ (fun letter c => sameIgnoringCase letter c = true) word.toList written

/-- Nothing, or a character that may stand between two words. -/
def IsSeparator (sep : List Char) : Prop := sep = [] ∨ ∃ c ∈ "_ -".toList, sep = [c]

/-- `api key`, `access token` or `password`: two words are joined, or one character stands between them. -/
inductive IsKeyword : List Char → Prop
  | pair (first second : String) (u sep v : List Char)
      (hwords : (first, second) = ("api", "key") ∨ (first, second) = ("access", "token"))
      (hu : Spells first u) (hsep : IsSeparator sep) (hv : Spells second v) :
      IsKeyword (u ++ (sep ++ v))
  | password (u : List Char) (hu : Spells "password" u) : IsKeyword u

/-- A sign with blanks around it, and the first character of a value. -/
def IsAssignment (text : List Char) : Prop :=
  ∃ blanks sign blanks' value, text = blanks ++ sign :: (blanks' ++ [value]) ∧ (∀ c ∈ blanks, isSpace c = true) ∧
    sign ∈ [':', '='] ∧ (∀ c ∈ blanks', isSpace c = true) ∧ isSpace value = false

/-- A character of a word. -/
def isWordChar (isAlnum : Char → Bool) (c : Char) : Bool := isAlnum c || c = '_'

/-- An assignment that stands in a text: a keyword, perhaps a quote behind it, a sign and a value. -/
structure AssignmentIn (text : List Char) where
  before : List Char
  key : List Char
  quote : List Char
  assignment : List Char
  after : List Char
  text_eq : text = before ++ (key ++ (quote ++ (assignment ++ after)))
  keyword : IsKeyword key
  quoted : quote = [] ∨ ∃ c ∈ ['"', '\''], quote = [c]
  assigned : IsAssignment assignment

/-- The keyword begins a word, and no quote stands behind it. -/
def AssignmentIn.Bare {text : List Char} (isAlnum : Char → Bool) (a : AssignmentIn text) : Prop :=
  a.quote = [] ∧ a.before.getLast?.any (isWordChar isAlnum) = false

section Patterns

variable {before word after : List Char} {first second : String} {isAlnum : Char → Bool}

/-- A literal is spelled. -/
theorem matches_literal {text : String} : (literal text).Matches before word after ↔ Spells text word :=
  Pattern.matches_word

/-- One of the characters. -/
theorem matches_oneOf {characters : String} :
    (oneOf characters).Matches before word after ↔ ∃ c ∈ characters.toList, word = [c] := by
  rw [oneOf, Pattern.matches_one]
  simp [and_comm]

/-- There may be a separator. -/
theorem matches_separator : (optional (oneOf "_ -")).Matches before word after ↔ IsSeparator word := by
  rw [optional, Pattern.matches_optional, matches_oneOf]
  rfl

/-- Two words that are joined, or have one character between them. -/
theorem matches_pair :
    (Pattern.all [literal first, optional (oneOf "_ -"), literal second]).Matches before word after ↔
      ∃ u sep v, word = u ++ (sep ++ v) ∧ Spells first u ∧ IsSeparator sep ∧ Spells second v := by
  simp only [Pattern.matches_all_cons, Pattern.matches_all_nil, matches_separator, matches_literal]
  constructor
  · rintro ⟨u, _, rfl, hu, sep, _, rfl, hsep, v, _, rfl, hv, rfl⟩
    exact ⟨u, sep, v, by simp, hu, hsep, hv⟩
  · rintro ⟨u, sep, v, rfl, hu, hsep, hv⟩
    exact ⟨u, _, rfl, hu, sep, _, rfl, hsep, v, [], by simp, hv, rfl⟩

/-- One of the keywords. -/
theorem matches_keyword :
    (Pattern.any [.all [literal "api", optional (oneOf "_ -"), literal "key"],
      .all [literal "access", optional (oneOf "_ -"), literal "token"], literal "password"]).Matches
        before word after ↔ IsKeyword word := by
  simp only [Pattern.matches_any, List.mem_cons, List.not_mem_nil, or_false, exists_eq_or_imp, exists_eq_left,
    matches_pair, matches_literal]
  constructor
  · rintro (⟨u, sep, v, rfl, hu, hsep, hv⟩ | ⟨u, sep, v, rfl, hu, hsep, hv⟩ | hu)
    · exact .pair "api" "key" u sep v (.inl rfl) hu hsep hv
    · exact .pair "access" "token" u sep v (.inr rfl) hu hsep hv
    · exact .password word hu
  · intro h
    cases h with
    | pair first second u sep v hwords hu hsep hv =>
      rcases hwords with hwords | hwords
      · obtain ⟨rfl, rfl⟩ := Prod.mk.inj hwords
        exact .inl ⟨u, sep, v, rfl, hu, hsep, hv⟩
      · obtain ⟨rfl, rfl⟩ := Prod.mk.inj hwords
        exact .inr (.inl ⟨u, sep, v, rfl, hu, hsep, hv⟩)
    | password _ hu => exact .inr (.inr hu)

/-- A sign and a value: whatever the value is, it begins with its first character. -/
theorem matches_assignment {rest : List Char} :
    (∃ word after, rest = word ++ after ∧ (Pattern.all [blanks, oneOf ":=", blanks,
      .rep true 1 none (.one fun c => !isSpace c)]).Matches before word after) ↔
      ∃ assignment after, rest = assignment ++ after ∧ IsAssignment assignment := by
  simp only [Pattern.matches_all_cons, Pattern.matches_all_nil, blanks, Pattern.matches_star, matches_oneOf,
    Pattern.matches_plus]
  constructor
  · rintro ⟨_, after, rfl, blanks, _, rfl, hblanks, _, _, rfl, ⟨sign, hsign, rfl⟩, blanks', _, rfl, hblanks', v, _,
      rfl, ⟨hne, hall⟩, rfl⟩
    obtain ⟨value, v, rfl⟩ := List.exists_cons_of_ne_nil hne
    refine ⟨blanks ++ sign :: (blanks' ++ [value]), v ++ after, by simp, blanks, sign, blanks', value, rfl, hblanks,
      hsign, hblanks', ?_⟩
    simpa using hall value List.mem_cons_self
  · rintro ⟨_, after, rfl, blanks, sign, blanks', value, rfl, hblanks, hsign, hblanks', hvalue⟩
    refine ⟨_, after, rfl, blanks, _, rfl, hblanks, [sign], _, rfl, ⟨sign, hsign, rfl⟩, blanks', _, rfl, hblanks',
      [value], [], by simp, ⟨by simp, ?_⟩, rfl⟩
    simpa using hvalue

/-- A keyword begins with a character of a word. -/
theorem IsKeyword.headIs {key : List Char} (h : IsKeyword key)
    (hletters : ∀ c : Char, c.isAlpha = true → isAlnum c = true) (rest : List Char) :
    headIs (isWordChar isAlnum) (key ++ rest) = true := by
  have hword : ∀ (letter : Char) (letters written rest : List Char), letter.isAlpha = true →
      letter.toUpper.isAlpha = true → letter ≠ 'i' → letter ≠ 'k' → letter ≠ 's' →
      List.Forall₂ (fun letter c => sameIgnoringCase letter c = true) (letter :: letters) written →
      Agentops.headIs (isWordChar isAlnum) (written ++ rest) = true := by
    intro letter letters written rest hsmall hcapital hi hk hs hspells
    obtain ⟨c, written, hc, -, rfl⟩ := List.forall₂_cons_left_iff.mp hspells
    have hcase : c = letter ∨ c = letter.toUpper := by
      simpa [sameIgnoringCase, hi, hk, hs] using hc
    have halpha : c.isAlpha = true := by rcases hcase with rfl | rfl <;> assumption
    simp [Agentops.headIs, isWordChar, hletters c halpha]
  cases h with
  | pair first second u sep v hwords hu hsep hv =>
    rw [List.append_assoc]
    rcases hwords with hwords | hwords
    · obtain ⟨rfl, rfl⟩ := Prod.mk.inj hwords
      exact hword 'a' "pi".toList u _ (by decide) (by decide) (by decide) (by decide) (by decide) hu
    · obtain ⟨rfl, rfl⟩ := Prod.mk.inj hwords
      exact hword 'a' "ccess".toList u _ (by decide) (by decide) (by decide) (by decide) (by decide) hu
  | password _ hu =>
    exact hword 'p' "assword".toList key _ (by decide) (by decide) (by decide) (by decide) (by decide) hu

/-- A word is spelled by one front of a text at most. -/
theorem Spells.append_inj {text : String} {u v x y : List Char} (hu : Spells text u) (hv : Spells text v)
    (h : u ++ x = v ++ y) : u = v ∧ x = y := List.append_inj h (hu.length_eq.symm.trans hv.length_eq)

/-- Letters that are both spelled at one place of a text are spelled alike, and the next letters behind them. -/
theorem alike_of_append_eq {s t : Char} {ss ts u v x y : List Char}
    (hu : List.Forall₂ (fun letter c => sameIgnoringCase letter c = true) (s :: ss) u)
    (hv : List.Forall₂ (fun letter c => sameIgnoringCase letter c = true) (t :: ts) v) (h : u ++ x = v ++ y) :
    (∃ c, sameIgnoringCase s c = true ∧ sameIgnoringCase t c = true) ∧
      ∃ u' v', List.Forall₂ (fun letter c => sameIgnoringCase letter c = true) ss u' ∧
        List.Forall₂ (fun letter c => sameIgnoringCase letter c = true) ts v' ∧ u' ++ x = v' ++ y := by
  obtain ⟨c, u', hc, hu', rfl⟩ := List.forall₂_cons_left_iff.mp hu
  obtain ⟨d, v', hd, hv', rfl⟩ := List.forall₂_cons_left_iff.mp hv
  obtain ⟨rfl, htail⟩ := List.cons.inj h
  exact ⟨⟨c, hc, hd⟩, u', v', hu', hv', htail⟩

/-- The keywords begin in different ways. -/
theorem not_alike {s t : Char} (hne : (s, t) ∈ [('a', 'p'), ('p', 'a'), ('p', 'c'), ('c', 'p')]) :
    ¬ ∃ c, sameIgnoringCase s c = true ∧ sameIgnoringCase t c = true := by
  have hall : [('a', 'p'), ('p', 'a'), ('p', 'c'), ('c', 'p')].all fun p =>
      (p.1 ≠ 'i' ∧ p.1 ≠ 'k' ∧ p.1 ≠ 's') && !sameIgnoringCase p.2 p.1 && !sameIgnoringCase p.2 p.1.toUpper := by
    decide +kernel
  obtain ⟨⟨⟨hi, hk, hs⟩, hsmall⟩, hcapital⟩ :
      ((s ≠ 'i' ∧ s ≠ 'k' ∧ s ≠ 's') ∧ sameIgnoringCase t s = false) ∧ sameIgnoringCase t s.toUpper = false := by
    simpa only [Bool.and_eq_true, decide_eq_true_eq, Bool.not_eq_true'] using List.all_eq_true.mp hall _ hne
  rintro ⟨c, hfirst, hsecond⟩
  have hcase : c = s ∨ c = s.toUpper := by simpa [sameIgnoringCase, hi, hk, hs] using hfirst
  rcases hcase with rfl | rfl
  · rw [hsmall] at hsecond
    cases hsecond
  · rw [hcapital] at hsecond
    cases hsecond

/-- The second word of a pair does not begin like a separator. -/
theorem Spells.not_separator {second : String} {c : Char} {v x rest : List Char}
    (hsecond : second = "key" ∨ second = "token") (hv : Spells second v) (hc : c ∈ "_ -".toList) :
    v ++ x ≠ c :: rest := by
  have hall : ['k', 't'].all fun s => "_ -".toList.all fun c => !sameIgnoringCase s c := by decide +kernel
  have hmiss : ∀ s ∈ ['k', 't'], ∀ c ∈ "_ -".toList, sameIgnoringCase s c = false := by
    simpa only [List.all_eq_true, Bool.not_eq_true'] using hall
  obtain ⟨s, hs, ss, hspells⟩ : ∃ s ∈ ['k', 't'], ∃ ss,
      List.Forall₂ (fun letter c => sameIgnoringCase letter c = true) (s :: ss) v := by
    rcases hsecond with rfl | rfl
    · exact ⟨'k', by decide, "ey".toList, hv⟩
    · exact ⟨'t', by decide, "oken".toList, hv⟩
  intro hsame
  obtain ⟨d, w, hd, -, rfl⟩ := List.forall₂_cons_left_iff.mp hspells
  obtain ⟨rfl, -⟩ := List.cons.inj hsame
  rw [hmiss s hs d hc] at hd
  cases hd

/-- At one place of a text two words are written in one way at most, as a pair. -/
theorem pair_append_inj {u sep v u' sep' v' x y : List Char} (hsecond : second = "key" ∨ second = "token")
    (hu : Spells first u) (hsep : IsSeparator sep) (hv : Spells second v) (hu' : Spells first u')
    (hsep' : IsSeparator sep') (hv' : Spells second v') (h : u ++ (sep ++ (v ++ x)) = u' ++ (sep' ++ (v' ++ y))) :
    u ++ (sep ++ v) = u' ++ (sep' ++ v') ∧ x = y := by
  obtain ⟨rfl, hbehind⟩ := hu.append_inj hu' h
  rcases hsep with rfl | ⟨c, hc, rfl⟩ <;> rcases hsep' with rfl | ⟨d, hd, rfl⟩
  · obtain ⟨rfl, rfl⟩ := hv.append_inj hv' hbehind
    exact ⟨rfl, rfl⟩
  · have hsame : v ++ x = d :: (v' ++ y) := hbehind
    exact absurd hsame (hv.not_separator hsecond hd)
  · have hsame : v' ++ y = c :: (v ++ x) := hbehind.symm
    exact absurd hsame (hv'.not_separator hsecond hc)
  · obtain ⟨rfl, htail⟩ := List.cons.inj hbehind
    obtain ⟨rfl, rfl⟩ := hv.append_inj hv' htail
    exact ⟨rfl, rfl⟩

/-- At one place of a text begins one keyword at most. -/
theorem IsKeyword.append_inj {u v x y : List Char} (hu : IsKeyword u) (hv : IsKeyword v) (h : u ++ x = v ++ y) :
    u = v ∧ x = y := by
  cases hu with
  | pair first second u sep w hwords hu hsep hw =>
    have hstart : ∃ letters, List.Forall₂ (fun letter c => sameIgnoringCase letter c = true) ('a' :: letters) u := by
      rcases hwords with hwords | hwords <;> obtain ⟨rfl, rfl⟩ := Prod.mk.inj hwords
      exacts [⟨_, hu⟩, ⟨_, hu⟩]
    cases hv with
    | pair first' second' u' sep' w' hwords' hu' hsep' hw' =>
      simp only [List.append_assoc] at h
      rcases hwords with hwords | hwords <;> obtain ⟨rfl, rfl⟩ := Prod.mk.inj hwords <;>
        rcases hwords' with hwords' | hwords' <;> obtain ⟨rfl, rfl⟩ := Prod.mk.inj hwords'
      · exact pair_append_inj (.inl rfl) hu hsep hw hu' hsep' hw' h
      · obtain ⟨-, v, v', hv, hv', htail⟩ := alike_of_append_eq (s := 'a') (t := 'a') hu hu' h
        exact absurd (alike_of_append_eq (s := 'p') (t := 'c') hv hv' htail).1 (not_alike (by decide))
      · obtain ⟨-, v, v', hv, hv', htail⟩ := alike_of_append_eq (s := 'a') (t := 'a') hu hu' h
        exact absurd (alike_of_append_eq (s := 'c') (t := 'p') hv hv' htail).1 (not_alike (by decide))
      · exact pair_append_inj (.inr rfl) hu hsep hw hu' hsep' hw' h
    | password v hv =>
      obtain ⟨letters, hletters⟩ := hstart
      rw [List.append_assoc] at h
      exact absurd (alike_of_append_eq (t := 'p') hletters hv h).1 (not_alike (by decide))
  | password u hu =>
    cases hv with
    | pair first second v sep w hwords hv hsep hw =>
      have hstart : ∃ letters,
          List.Forall₂ (fun letter c => sameIgnoringCase letter c = true) ('a' :: letters) v := by
        rcases hwords with hwords | hwords <;> obtain ⟨rfl, rfl⟩ := Prod.mk.inj hwords
        exacts [⟨_, hv⟩, ⟨_, hv⟩]
      obtain ⟨letters, hletters⟩ := hstart
      rw [List.append_assoc] at h
      exact absurd (alike_of_append_eq (s := 'p') hu hletters h).1 (not_alike (by decide))
    | password v hv => exact hu.append_inj hv h

/-- The pattern finds bare assignments. -/
theorem search_secretPattern (hletters : ∀ c : Char, c.isAlpha = true → isAlnum c = true) (text : List Char) :
    (secretPattern isAlnum).search text = true ↔ ∃ a : AssignmentIn text, a.Bare isAlnum := by
  have hboundary : ∀ before rest : List Char, headIs (isWordChar isAlnum) rest = true →
      ((headIs (fun c => isAlnum c || c = '_') before.reverse !=
        headIs (fun c => isAlnum c || c = '_') rest) = true ↔
          before.getLast?.any (isWordChar isAlnum) = false) := by
    intro before rest hrest
    have hlast : headIs (isWordChar isAlnum) before.reverse = before.getLast?.any (isWordChar isAlnum) := by
      rw [headIs, List.head?_reverse]
    have hsame : (fun c => isAlnum c || decide (c = '_')) = isWordChar isAlnum := rfl
    rw [hsame, hrest, hlast]
    cases before.getLast?.any (isWordChar isAlnum) <;> simp
  rw [Pattern.search_iff]
  constructor
  · rintro ⟨before, word, after, rfl, hmatches⟩
    rw [secretPattern, Pattern.matches_all_cons] at hmatches
    obtain ⟨u, tail, rfl, hedge, htail⟩ := hmatches
    obtain ⟨rfl, hcheck⟩ := Pattern.matches_check.mp hedge
    rw [Pattern.matches_all_cons] at htail
    obtain ⟨key, rest, rfl, hword, hrest⟩ := htail
    have hkey := matches_keyword.mp hword
    obtain ⟨assignment, after', hsplit, hassignment⟩ := matches_assignment.mp ⟨rest, after, rfl, hrest⟩
    rw [List.append_assoc, hboundary _ _ (hkey.headIs hletters _)] at hcheck
    refine ⟨⟨before, key, [], assignment, after', ?_, hkey, .inl rfl, hassignment⟩, rfl, hcheck⟩
    simp only [List.nil_append, List.append_assoc, hsplit]
  · rintro ⟨⟨before, key, quote, assignment, after, rfl, hkey, _, hassignment⟩, hquote, hbefore⟩
    obtain rfl : quote = [] := hquote
    obtain ⟨rest, after', hsplit, hrest⟩ := matches_assignment.mpr ⟨assignment, after, rfl, hassignment⟩
    refine ⟨before, key ++ rest, after', by simp [hsplit], ?_⟩
    rw [secretPattern, Pattern.matches_all_cons]
    refine ⟨[], key ++ rest, rfl, Pattern.matches_check.mpr ⟨rfl, ?_⟩, ?_⟩
    · rw [List.append_assoc, hboundary _ _ (hkey.headIs hletters _)]
      exact hbefore
    · rw [Pattern.matches_all_cons]
      exact ⟨key, rest, rfl, matches_keyword.mpr hkey, hrest⟩

end Patterns

end Agentops
