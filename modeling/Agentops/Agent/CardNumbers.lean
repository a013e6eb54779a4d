import Agentops.Agent.Secrets
import Agentops.Foundations.Scanning

/-!
# Payment cards in a text

The numbers that the pattern for cards takes from a text: at a digit behind no digit the longest row of 13 to
19 digits, with at most one blank or hyphen between two of them and no digit behind. A card with other digits
behind a separator is read together with them where the row may be so long, and is not seen then.
-/

namespace Agentops

open Backtracking

/-- A character that may stand between two digits. -/
def isDigitSeparator (c : Char) : Bool := c ∈ " -".toList

/-- So many digits, with at most one separator between two of them. -/
inductive WritesDigits : ℕ → List Char → Prop
  | last (c : Char) (hc : isDecimal c = true) : WritesDigits 1 [c]
  | digit (n : ℕ) (c : Char) (word : List Char) (hc : isDecimal c = true) (hword : WritesDigits n word) :
      WritesDigits (n + 1) (c :: word)
  | separated (n : ℕ) (c sep : Char) (word : List Char) (hc : isDecimal c = true)
      (hsep : isDigitSeparator sep = true) (hword : WritesDigits n word) : WritesDigits (n + 1) (c :: sep :: word)

/-- A digit with no digit behind it. -/
def lastDigit : List Char → Option (List Char)
  | [] => none
  | c :: rest => if isDecimal c && !headIs isDecimal rest then some [c] else none

/-- A digit, and what is found behind it and behind a separator, if there is one. -/
def digitThen (next : List Char → Option (List Char)) : List Char → Option (List Char)
  | c :: sep :: rest =>
    if isDecimal c then
      if isDigitSeparator sep then (next rest).map fun word => c :: sep :: word
      else (next (sep :: rest)).map fun word => c :: word
    else none
  | _ => none

/-- The number of so many digits that a text starts with, if no digit is behind it. -/
def numberOf : ℕ → List Char → Option (List Char)
  | 0 => fun _ => none
  | 1 => lastDigit
  | n + 2 => digitThen (numberOf (n + 1))

/-- The number that is read at a place: the longest of at most 19 and at least 13 digits. -/
def readAt (before text : List Char) : Option (List Char) :=
  if headIs isDecimal before then none
  else [19, 18, 17, 16, 15, 14, 13].findSome? fun n => numberOf n text

/-- A separator is no digit. -/
theorem isDecimal_of_isDigitSeparator {c : Char} (h : isDigitSeparator c = true) : isDecimal c = false := by
  have hc : c = ' ' ∨ c = '-' := by simpa [isDigitSeparator] using h
  rcases hc with rfl | rfl <;> decide +kernel

/-- What writes digits begins with one. -/
theorem WritesDigits.head {n : ℕ} {word : List Char} (h : WritesDigits n word) (rest : List Char) :
    headIs isDecimal (word ++ rest) = true := by
  cases h <;> assumption

/-- It is not empty. -/
theorem WritesDigits.ne_nil {n : ℕ} {word : List Char} (h : WritesDigits n word) : word ≠ [] := by
  cases h <;> simp

/-- The last digit of a number has no digit behind it. -/
theorem lastDigit_eq_some_iff {text word : List Char} : lastDigit text = some word ↔
    ∃ c rest, text = c :: rest ∧ word = [c] ∧ isDecimal c = true ∧ headIs isDecimal rest = false := by
  constructor
  · intro h
    cases text with
    | nil => cases h
    | cons c rest =>
      by_cases hc : (isDecimal c && !headIs isDecimal rest) = true
      · obtain rfl : [c] = word := by simpa [lastDigit, hc] using h
        rw [Bool.and_eq_true, Bool.not_eq_true'] at hc
        exact ⟨c, rest, rfl, rfl, hc⟩
      · simp [lastDigit, hc] at h
  · rintro ⟨c, rest, rfl, rfl, hc, hrest⟩
    simp [lastDigit, hc, hrest]

/-- Behind a digit comes what is found there, or behind a separator. -/
theorem digitThen_eq_some_iff {next : List Char → Option (List Char)} {text word : List Char} :
    digitThen next text = some word ↔ ∃ c sep rest, text = c :: sep :: rest ∧ isDecimal c = true ∧
      if isDigitSeparator sep then ∃ tail, next rest = some tail ∧ word = c :: sep :: tail
      else ∃ tail, next (sep :: rest) = some tail ∧ word = c :: tail := by
  constructor
  · intro h
    match text, h with
    | c :: sep :: rest, h =>
      by_cases hc : isDecimal c = true
      · refine ⟨c, sep, rest, rfl, hc, ?_⟩
        by_cases hsep : isDigitSeparator sep = true
        · simp only [digitThen, hc, hsep, if_true, Option.map_eq_some_iff] at h
          obtain ⟨tail, htail, rfl⟩ := h
          exact (if_pos hsep).mpr ⟨tail, htail, rfl⟩
        · simp only [digitThen, hc, if_true, if_neg hsep, Option.map_eq_some_iff] at h
          obtain ⟨tail, htail, rfl⟩ := h
          exact (if_neg hsep).mpr ⟨tail, htail, rfl⟩
      · simp [digitThen, hc] at h
  · rintro ⟨c, sep, rest, rfl, hc, h⟩
    by_cases hsep : isDigitSeparator sep = true
    · obtain ⟨tail, htail, rfl⟩ := (if_pos hsep).mp h
      simp [digitThen, hc, hsep, htail]
    · obtain ⟨tail, htail, rfl⟩ := (if_neg hsep).mp h
      simp [digitThen, hc, hsep, htail]

/-- What writes digits does not begin with a separator. -/
theorem WritesDigits.exists_head {n : ℕ} {word : List Char} (h : WritesDigits n word) :
    ∃ d tail, word = d :: tail ∧ ¬ isDigitSeparator d = true := by
  obtain ⟨d, tail, rfl⟩ := List.exists_cons_of_ne_nil h.ne_nil
  refine ⟨d, tail, rfl, fun hsep => ?_⟩
  have hhead := h.head []
  rw [List.append_nil, headIs, List.head?_cons, Option.any_some, isDecimal_of_isDigitSeparator hsep] at hhead
  cases hhead

/-- The first so many digits of a text are a number if no digit is behind them. -/
theorem numberOf_eq_some_iff {n : ℕ} {text word : List Char} : numberOf n text = some word ↔
    WritesDigits n word ∧ ∃ rest, text = word ++ rest ∧ headIs isDecimal rest = false := by
  induction n generalizing text word with
  | zero =>
    constructor
    · intro h
      cases h
    · rintro ⟨h, -⟩
      cases h
  | succ n ih =>
    cases n with
    | zero =>
      rw [numberOf, lastDigit_eq_some_iff]
      constructor
      · rintro ⟨c, rest, rfl, rfl, hc, hrest⟩
        exact ⟨.last c hc, rest, rfl, hrest⟩
      · rintro ⟨h, rest, rfl, hrest⟩
        cases h with
        | last c hc => exact ⟨c, rest, rfl, rfl, hc, hrest⟩
        | digit n c word hc hword => cases hword
        | separated n c sep word hc hsep hword => cases hword
    | succ n =>
      rw [numberOf, digitThen_eq_some_iff]
      constructor
      · rintro ⟨c, sep, rest, rfl, hc, h⟩
        by_cases hsep : isDigitSeparator sep = true
        · obtain ⟨tail, htail, rfl⟩ := (if_pos hsep).mp h
          obtain ⟨hwrites, rest', rfl, hrest⟩ := ih.mp htail
          exact ⟨.separated _ c sep tail hc hsep hwrites, rest', rfl, hrest⟩
        · obtain ⟨tail, htail, rfl⟩ := (if_neg hsep).mp h
          obtain ⟨hwrites, rest', hsplit, hrest⟩ := ih.mp htail
          exact ⟨.digit _ c tail hc hwrites, rest', by rw [hsplit, List.cons_append], hrest⟩
      · rintro ⟨h, rest, rfl, hrest⟩
        cases h with
        | digit _ c word hc hword =>
          obtain ⟨d, tail, rfl, hsep⟩ := hword.exists_head
          exact ⟨c, d, tail ++ rest, rfl, hc, (if_neg hsep).mpr ⟨d :: tail, ih.mpr ⟨hword, rest, rfl, hrest⟩, rfl⟩⟩
        | separated _ c sep word hc hsep hword =>
          exact ⟨c, sep, word ++ rest, rfl, hc, (if_pos hsep).mpr ⟨word, ih.mpr ⟨hword, rest, rfl, hrest⟩, rfl⟩⟩

/-- What is read at a place is a number of 13 to 19 digits behind none. -/
theorem readAt_eq_some {before text word : List Char} (h : readAt before text = some word) :
    headIs isDecimal before = false ∧ ∃ n, 13 ≤ n ∧ n ≤ 19 ∧ numberOf n text = some word := by
  by_cases hbefore : headIs isDecimal before = true
  · rw [readAt, if_pos hbefore] at h
    cases h
  · rw [readAt, if_neg hbefore] at h
    obtain ⟨n, hn, hword⟩ := List.exists_of_findSome?_eq_some h
    refine ⟨Bool.not_eq_true _ ▸ hbefore, n, ?_, ?_, hword⟩ <;>
    · simp only [List.mem_cons, List.not_mem_nil, or_false] at hn
      omega

/-- The scanner that reads numbers. -/
def numberScanner : Scanner Char where
  next := readAt
  ne_nil before text word h := by
    obtain ⟨-, n, -, -, hword⟩ := readAt_eq_some h
    exact (numberOf_eq_some_iff.mp hword).1.ne_nil
  exists_rest before text word h := by
    obtain ⟨-, n, -, -, hword⟩ := readAt_eq_some h
    obtain ⟨-, rest, hrest, -⟩ := numberOf_eq_some_iff.mp hword
    exact ⟨rest, hrest⟩

/-- The numbers that are read from a text, one behind the other. -/
def readNumbers (text : List Char) : List (List Char) := numberScanner.scan [] text

section Pattern

/-- `\d[ -]?` -/
def digitPattern : Pattern Char := .seq (.one isDecimal) (optional (oneOf " -"))

/-- Without a digit there is no number. -/
theorem numberOf_eq_none {n : ℕ} {text : List Char} (h : headIs isDecimal text = false) :
    numberOf n text = none := by
  rw [Option.eq_none_iff_forall_ne_some]
  intro word hword
  obtain ⟨hwrites, rest, rfl, -⟩ := numberOf_eq_some_iff.mp hword
  rw [hwrites.head] at h
  cases h

/-- A number of one digit more is a digit and a number. -/
theorem numberOf_succ {n : ℕ} (h : 0 < n) : numberOf (n + 1) = digitThen (numberOf n) := by
  cases n with
  | zero => cases h
  | succ n => rfl

/-- What is first found behind a digit is first found with the digit. -/
theorem digitThen_findSome? (counts : List ℕ) (next : ℕ → List Char → Option (List Char)) (text : List Char) :
    digitThen (fun rest => counts.findSome? fun n => next n rest) text =
      counts.findSome? fun n => digitThen (next n) text := by
  have hnone : counts.findSome? (fun _ => (none : Option (List Char))) = none :=
    List.findSome?_eq_none_iff.mpr fun _ _ => rfl
  rcases text with _ | ⟨c, _ | ⟨sep, rest⟩⟩
  · exact hnone.symm
  · exact hnone.symm
  · by_cases hc : isDecimal c = true
    · by_cases hsep : isDigitSeparator sep = true <;>
        simp [digitThen, hc, hsep, List.map_findSome?, Function.comp_def]
    · simpa [digitThen, hc] using hnone.symm

/-- The pattern of a digit with a separator behind it: after the digit alone a number can only go on where no
separator is. -/
theorem findSome?_digit {next : List Char → Option (List Char)}
    (hnext : ∀ text, headIs isDecimal text = false → next text = none) (c : Cursor Char) :
    (digitPattern.ends c).findSome? (fun d => (next d.after).map d.past) = (digitThen next c.after).map c.past := by
  have hends : ∀ rest : Cursor Char → Option (Cursor Char), (digitPattern.ends c).findSome? rest =
      (Pattern.one isDecimal).firstWith c fun d => ((oneOf " -").firstWith d rest).or (rest d) := by
    intro rest
    exact Pattern.firstWith_seq.trans (by simp only [optional, Pattern.firstWith_optional])
  rw [hends, Pattern.firstWith_one]
  obtain ⟨before, after⟩ := c
  rcases after with _ | ⟨a, _ | ⟨sep, rest⟩⟩
  · rfl
  · by_cases ha : isDecimal a = true
    · have hlast : next [] = none := hnext [] rfl
      simp [ha, oneOf, Pattern.firstWith_one, hlast, digitThen]
    · simp [ha, digitThen]
  · have hoptional : (oneOf " -").firstWith ⟨a :: before, sep :: rest⟩ (fun d => (next d.after).map d.past) =
        if isDigitSeparator sep then (next rest).map (Cursor.past ⟨sep :: a :: before, rest⟩) else none :=
      Pattern.firstWith_one _
    simp only [hoptional]
    by_cases ha : isDecimal a = true
    · rw [if_pos ha, digitThen, if_pos ha]
      by_cases hsep : isDigitSeparator sep = true
      · have hlast : next (sep :: rest) = none := hnext _ (isDecimal_of_isDigitSeparator hsep)
        rw [if_pos hsep, if_pos hsep, hlast, Option.map_none, Option.or_none, Option.map_map]
        congr 1
        funext word
        simp [Cursor.past]
      · rw [if_neg hsep, if_neg hsep, Option.none_or, Option.map_map]
        congr 1
        funext word
        simp [Cursor.past]
    · rw [if_neg ha, digitThen, if_neg ha]
      rfl

/-- The longest number of so many digits and up to so many more. -/
def longestOf (least more : ℕ) (text : List Char) : Option (List Char) :=
  (List.range (more + 1)).reverse.findSome? fun i => numberOf (least + i) text

/-- Without a digit there is no longest one either. -/
theorem longestOf_eq_none {least more : ℕ} (text : List Char) (h : headIs isDecimal text = false) :
    longestOf least more text = none := List.findSome?_eq_none_iff.mpr fun _ _ => numberOf_eq_none h

/-- Of the numbers that start with a digit the shortest is tried last. -/
theorem longestOf_succ (least more : ℕ) (text : List Char) :
    longestOf least (more + 1) text = (longestOf (least + 1) more text).or (numberOf least text) := by
  have hshift : (fun i => numberOf (least + 1 + i) text) = (fun i => numberOf (least + i) text) ∘ Nat.succ := by
    funext i
    simp only [Function.comp_apply, Nat.succ_eq_add_one]
    rw [Nat.add_assoc, Nat.add_comm 1 i]
  rw [longestOf, List.range_succ_eq_map, List.reverse_cons, List.findSome?_append, ← List.map_reverse,
    List.findSome?_map, ← hshift]
  simp [longestOf]

/-- A digit and the longest number behind it are the longest number. -/
theorem digitThen_longestOf {least : ℕ} (hleast : 0 < least) (more : ℕ) (text : List Char) :
    digitThen (longestOf least more) text = longestOf (least + 1) more text := by
  have hnext : ∀ i, digitThen (numberOf (least + i)) text = numberOf (least + 1 + i) text := by
    intro i
    rw [← numberOf_succ (by omega), Nat.add_right_comm]
  exact (digitThen_findSome? _ (fun i => numberOf (least + i)) text).trans (by simp only [hnext]; rfl)

/-- A repetition of a digit pattern before the last digit takes as many digits as it can. -/
theorem findSome?_moreEnds_digit (more : ℕ) (c : Cursor Char) :
    (moreEnds digitPattern.ends true more c).findSome? (fun d => (lastDigit d.after).map d.past) =
      (longestOf 1 more c.after).map c.past := by
  induction more generalizing c with
  | zero =>
    have hone : longestOf 1 0 c.after = lastDigit c.after := by simp [longestOf, numberOf]
    rw [hone, moreEnds]
    simp
  | succ more ih =>
    rw [Pattern.firstWith_moreEnds_succ]
    simp only [if_true, ih]
    rw [findSome?_digit longestOf_eq_none, digitThen_longestOf Nat.zero_lt_one, longestOf_succ, numberOf]
    cases longestOf (1 + 1) more c.after <;> rfl

/-- The digits are repeated as often as the number is long, the longest first. -/
theorem findSome?_repEnds_digit (least more : ℕ) (c : Cursor Char) :
    (repEnds digitPattern.ends true more least c).findSome? (fun d => (lastDigit d.after).map d.past) =
      (longestOf (least + 1) more c.after).map c.past := by
  induction least generalizing c with
  | zero => exact findSome?_moreEnds_digit more c
  | succ least ih =>
    rw [repEnds, Pattern.findSome?_flatMap]
    simp only [ih]
    rw [findSome?_digit longestOf_eq_none, digitThen_longestOf (Nat.succ_pos least)]

/-- The card pattern takes the number that is read at a place. -/
theorem firstEnd_cardPattern (c : Cursor Char) :
    cardPattern.firstEnd c = (readAt c.before c.after).map c.past := by
  have hlast : ∀ d : Cursor Char, ((Pattern.one isDecimal).firstWith d fun e =>
      (Pattern.check fun _ after => !headIs isDecimal after).firstWith e some) = (lastDigit d.after).map d.past := by
    rintro ⟨before, after⟩
    rw [Pattern.firstWith_one]
    cases after with
    | nil => rfl
    | cons a rest =>
      simp only [Pattern.firstWith_check, lastDigit]
      by_cases ha : isDecimal a = true <;> by_cases hrest : headIs isDecimal rest = true <;>
        simp [ha, hrest, Cursor.past]
  have hrep : (Pattern.rep true 12 (some 18) digitPattern).firstWith c
      (fun d => (lastDigit d.after).map d.past) = (longestOf 13 6 c.after).map c.past :=
    findSome?_repEnds_digit 12 6 c
  rw [Pattern.firstEnd_eq_firstWith, cardPattern, Pattern.firstWith_all_cons, Pattern.firstWith_check]
  simp only [Pattern.firstWith_all_cons, Pattern.firstWith_all_nil, hlast]
  by_cases hbefore : headIs isDecimal c.before = true
  · simp [readAt, hbefore]
  · have hread : readAt c.before c.after = longestOf 13 6 c.after := if_neg hbefore
    rw [hread, ← hrep, if_pos (by simpa using hbefore)]
    rfl

/-- The matches of the card pattern are the numbers that are read. -/
theorem findAll_cardPattern (text : List Char) : cardPattern.findAll text = readNumbers text :=
  Pattern.findAll_eq_scan (s := numberScanner) firstEnd_cardPattern text

end Pattern

/-- Behind so many digits are no separator and digits for which the row has room. -/
def NoRoomBehind (n : ℕ) (after : List Char) : Prop :=
  ∀ sep count word rest, after = sep :: (word ++ rest) → isDigitSeparator sep = true →
    WritesDigits count word → headIs isDecimal rest = false → 19 < n + count

/-- A number that may be read at a place of a text: 13 to 19 digits with no digit beside them, and no longer row of
up to 19 digits begins there. -/
structure NumberAt (before number after : List Char) : Prop where
  writes : ∃ n, 13 ≤ n ∧ n ≤ 19 ∧ WritesDigits n number ∧ NoRoomBehind n after
  front : before.getLast?.any isDecimal = false
  behind : headIs isDecimal after = false

section Alone

variable {n m : ℕ} {before after number word rest : List Char}

/-- The front of a row of digits ends in a digit, or in a digit and a separator. -/
theorem WritesDigits.front_ends {u v : List Char} (h : WritesDigits n (u ++ v)) (hu : u ≠ []) (hv : v ≠ []) :
    u.getLast?.any isDecimal = true ∨
      ∃ rest digit sep, u = rest ++ [digit, sep] ∧ isDecimal digit = true ∧ isDigitSeparator sep = true := by
  generalize hword : u ++ v = word at h
  induction h generalizing u with
  | last c hc =>
    obtain ⟨d, u, rfl⟩ := List.exists_cons_of_ne_nil hu
    have hnil : u ++ v = [] := (List.cons.inj hword).2
    exact absurd (List.append_eq_nil_iff.mp hnil).2 hv
  | digit n c word hc hrow ih =>
    obtain ⟨d, u, rfl⟩ := List.exists_cons_of_ne_nil hu
    obtain ⟨rfl, htail⟩ := List.cons.inj hword
    by_cases hnil : u = []
    · subst hnil
      exact .inl hc
    · rcases ih hnil htail with hlast | ⟨rest, digit, sep, rfl, hdigit, hsep⟩
      · exact .inl (by rwa [List.getLast?_cons_of_ne_nil hnil])
      · exact .inr ⟨d :: rest, digit, sep, rfl, hdigit, hsep⟩
  | separated n c sep word hc hsep hrow ih =>
    match u, hu, hword with
    | [d], _, hword =>
      obtain ⟨rfl, -⟩ := List.cons.inj hword
      exact .inl hc
    | d :: e :: u, _, hword =>
      obtain ⟨rfl, hbehind⟩ := List.cons.inj hword
      obtain ⟨rfl, htail⟩ := List.cons.inj hbehind
      by_cases hnil : u = []
      · subst hnil
        exact .inr ⟨[], d, e, rfl, hc, hsep⟩
      · rcases ih hnil htail with hlast | ⟨rest, digit, sep, rfl, hdigit, hsep⟩
        · exact .inl (by rwa [List.getLast?_cons_of_ne_nil (List.cons_ne_nil _ _), List.getLast?_cons_of_ne_nil hnil])
        · exact .inr ⟨d :: e :: rest, digit, sep, rfl, hdigit, hsep⟩

/-- A row with more digits goes on with a separator behind the shorter one. -/
theorem WritesDigits.exists_behind (h : WritesDigits n number) (hlonger : WritesDigits m word) (hlt : n < m)
    (hsame : number ++ after = word ++ rest) (hafter : headIs isDecimal after = false) :
    ∃ sep count row, after = sep :: (row ++ rest) ∧ isDigitSeparator sep = true ∧ WritesDigits count row ∧
      m = n + count := by
  have hdigit : ∀ {k : ℕ} {row end' tail : List Char} {sep : Char}, WritesDigits k row →
      row ++ end' = sep :: tail → isDigitSeparator sep = true → False := by
    intro k row end' tail sep hrow htail hsep
    have hhead := hrow.head end'
    rw [htail, headIs, List.head?_cons, Option.any_some, isDecimal_of_isDigitSeparator hsep] at hhead
    cases hhead
  induction h generalizing m word with
  | last c hc =>
    cases hlonger with
    | last => exact absurd hlt (lt_irrefl 1)
    | digit k d row hd hrow =>
      have hbehind : after = row ++ rest := (List.cons.inj hsame).2
      rw [hbehind, hrow.head] at hafter
      cases hafter
    | separated k d sep row hd hsep hrow =>
      exact ⟨sep, k, row, (List.cons.inj hsame).2, hsep, hrow, Nat.add_comm k 1⟩
  | digit n c number hc hnumber ih =>
    cases hlonger with
    | last => omega
    | digit k d row hd hrow =>
      obtain ⟨sep, count, tail, hbehind, hsep, htail, hcount⟩ :=
        ih hrow (Nat.lt_of_succ_lt_succ hlt) (List.cons.inj hsame).2
      exact ⟨sep, count, tail, hbehind, hsep, htail, by omega⟩
    | separated k d sep row hd hsep hrow =>
      exact (hdigit hnumber (List.cons.inj hsame).2 hsep).elim
  | separated n c sep number hc hsep hnumber ih =>
    cases hlonger with
    | last => omega
    | digit k d row hd hrow =>
      exact (hdigit hrow (List.cons.inj hsame).2.symm hsep).elim
    | separated k d sep' row hd hsep' hrow =>
      obtain ⟨sep, count, tail, hbehind, hsep, htail, hcount⟩ :=
        ih hrow (Nat.lt_of_succ_lt_succ hlt) (List.cons.inj (List.cons.inj hsame).2).2
      exact ⟨sep, count, tail, hbehind, hsep, htail, by omega⟩

/-- Two rows with a separator between them are one. -/
theorem WritesDigits.append {sep : Char} (h : WritesDigits n number) (hsep : isDigitSeparator sep = true)
    (hword : WritesDigits m word) : WritesDigits (n + m) (number ++ sep :: word) := by
  induction h with
  | last c hc => exact Nat.add_comm 1 m ▸ .separated m c sep word hc hsep hword
  | digit n c number hc hnumber ih => exact Nat.add_right_comm n 1 m ▸ .digit (n + m) c _ hc ih
  | separated n c sep' number hc hsep' hnumber ih =>
    exact Nat.add_right_comm n 1 m ▸ .separated (n + m) c sep' _ hc hsep' ih

/-- The longest number is one of so many digits, and none has more. -/
theorem longestOf_eq_some_iff {least more : ℕ} {text : List Char} : longestOf least more text = some word ↔
    ∃ n, least ≤ n ∧ n ≤ least + more ∧ numberOf n text = some word ∧
      ∀ m, n < m → m ≤ least + more → numberOf m text = none := by
  induction more with
  | zero =>
    have hone : longestOf least 0 text = numberOf least text := by simp [longestOf]
    rw [hone]
    constructor
    · intro h
      exact ⟨least, le_rfl, le_rfl, h, fun m hm hle => absurd hm (by omega)⟩
    · rintro ⟨n, hleast, hmost, h, -⟩
      obtain rfl : n = least := by omega
      exact h
  | succ more ih =>
    have hstep : longestOf least (more + 1) text =
        (numberOf (least + (more + 1)) text).or (longestOf least more text) := by
      rw [longestOf, List.range_succ, List.reverse_append, List.reverse_singleton, List.findSome?_append]
      simp [longestOf]
    rw [hstep, Option.or_eq_some_iff, ih]
    constructor
    · rintro (h | ⟨hnone, n, hleast, hmost, h, hlonger⟩)
      · exact ⟨least + (more + 1), by omega, le_rfl, h, fun m hm hle => absurd hm (by omega)⟩
      · refine ⟨n, hleast, by omega, h, fun m hm hle => ?_⟩
        by_cases hlast : m = least + (more + 1)
        · rw [hlast, hnone]
        · exact hlonger m hm (by omega)
    · rintro ⟨n, hleast, hmost, h, hlonger⟩
      by_cases hlast : n = least + (more + 1)
      · exact .inl (hlast ▸ h)
      · exact .inr ⟨hlonger _ (by omega) le_rfl, n, hleast, by omega, h, fun m hm hle => hlonger m hm (by omega)⟩

/-- A row of so many digits is the longest that begins at its place if it has no room for what is behind it. -/
theorem noRoomBehind_iff (h : WritesDigits n number) (hafter : headIs isDecimal after = false) :
    NoRoomBehind n after ↔ ∀ m, n < m → m ≤ 19 → numberOf m (number ++ after) = none := by
  constructor
  · intro hroom m hm hle
    rw [Option.eq_none_iff_forall_ne_some]
    intro word hword
    obtain ⟨hlonger, rest, hsame, hrest⟩ := numberOf_eq_some_iff.mp hword
    obtain ⟨sep, count, row, hbehind, hsep, hrow, hcount⟩ := h.exists_behind hlonger hm hsame hafter
    have hfull := hroom sep count row rest hbehind hsep hrow hrest
    omega
  · rintro hnone sep count row rest rfl hsep hrow hrest
    by_contra hroom
    have hpos : 0 < count := by cases hrow <;> omega
    have hword : numberOf (n + count) (number ++ sep :: (row ++ rest)) = some (number ++ sep :: row) :=
      numberOf_eq_some_iff.mpr ⟨h.append hsep hrow, rest, by simp, hrest⟩
    rw [hnone (n + count) (by omega) (by omega)] at hword
    cases hword

/-- The scanner finds the numbers that may be read at a place. -/
theorem finds_number_iff : numberScanner.Finds before number after ↔ NumberAt before number after := by
  have hlast : headIs isDecimal before.reverse = before.getLast?.any isDecimal := by
    rw [headIs, List.head?_reverse]
  have hread : numberScanner.Finds before number after ↔
      before.getLast?.any isDecimal = false ∧ longestOf 13 6 (number ++ after) = some number := by
    change readAt before.reverse (number ++ after) = some number ↔ _
    rw [readAt, hlast]
    by_cases hfront : before.getLast?.any isDecimal = true
    · simp [hfront]
    · rw [if_neg hfront]
      exact ⟨fun h => ⟨Bool.not_eq_true _ ▸ hfront, h⟩, And.right⟩
  rw [hread, longestOf_eq_some_iff]
  constructor
  · rintro ⟨hfront, n, hleast, hmost, hnumber, hlonger⟩
    obtain ⟨hwrites, rest, hsame, hafter⟩ := numberOf_eq_some_iff.mp hnumber
    rw [← List.append_cancel_left hsame] at hafter
    exact ⟨⟨n, hleast, hmost, hwrites, (noRoomBehind_iff hwrites hafter).mpr hlonger⟩, hfront, hafter⟩
  · rintro ⟨⟨n, hleast, hmost, hwrites, hroom⟩, hfront, hafter⟩
    exact ⟨hfront, n, hleast, hmost, numberOf_eq_some_iff.mpr ⟨hwrites, after, rfl, hafter⟩,
      (noRoomBehind_iff hwrites hafter).mp hroom⟩

/-- The numbers that are read from a text are those that may be read at their place and into which no number
reaches that is read further left. -/
theorem mem_readNumbers_iff {text : List Char} : number ∈ readNumbers text ↔
    ∃ before after, text = before ++ (number ++ after) ∧ Taken NumberAt before number after := by
  have hfinds : numberScanner.Finds = NumberAt := by
    funext before number after
    exact propext finds_number_iff
  rw [readNumbers, Scanner.mem_scan_iff, hfinds]

/-- Nothing is read beyond a text that does not end in a digit with a separator behind it, or in a digit. -/
theorem clear_of_no_digit (hlast : before.getLast?.any isDecimal = false)
    (hfront : ∀ rest digit sep, before = rest ++ [digit, sep] → isDecimal digit = true → isDigitSeparator sep = false) :
    Clear NumberAt before after := by
  intro u v word rest hsplit hv hsame htaken
  by_contra hlong
  obtain ⟨n, -, -, hwrites, -⟩ := (taken_iff.mp htaken).1.writes
  obtain ⟨x, rfl⟩ := List.prefix_of_prefix_length_le ⟨after, rfl⟩ ⟨rest, hsame.symm⟩ (Nat.le_of_not_le hlong)
  have hx : x ≠ [] := by
    rintro rfl
    simp at hlong
  rcases hwrites.front_ends hv hx with hdigit | ⟨tail, digit, sep, rfl, hdigit, hsep⟩
  · rw [hsplit, List.getLast?_append_of_ne_nil _ hv, hdigit] at hlast
    cases hlast
  · rw [hfront (u ++ tail) digit sep (by rw [hsplit, List.append_assoc]) hdigit] at hsep
    cases hsep

end Alone

end Agentops
