import Agentops.Agent.CardNumbers

/-!
# What the guardrails find

`contains_sensitive_data` finds the assignments of secrets whose keyword begins a word and has no quote behind it,
and the payment cards that stand alone. A card does not stand alone when there is room in its row of digits for
more that stand behind it, or when a number that is read in front of it reaches into it.
-/

namespace Agentops

open Backtracking

/-- A digit doubled, and the digits of that added up. -/
def doubledDigit (digit : ℕ) : ℕ := if 9 < 2 * digit then 2 * digit - 9 else 2 * digit

/-- Luhn's sum of digits, least significant first; every other digit is doubled. -/
def luhn : Bool → List ℕ → ℕ
  | _, [] => 0
  | false, digit :: rest => digit + luhn true rest
  | true, digit :: rest => doubledDigit digit + luhn false rest

/-- The last digit of the number is the right check digit. -/
def LuhnValid (word : List Char) : Prop := luhn false (word.filterMap decimalDigit?).reverse % 10 = 0

/-- Decided by the sum. -/
instance : DecidablePred LuhnValid := fun _ => inferInstanceAs (Decidable (_ = _))

/-- One more digit at the end is doubled or not by how many stand before it. -/
theorem luhn_append_singleton (double : Bool) (digits : List ℕ) (digit : ℕ) :
    luhn double (digits ++ [digit]) = luhn double digits +
      if digits.length % 2 = 1 ↔ double = false then doubledDigit digit else digit := by
  induction digits generalizing double with
  | nil => cases double <;> simp [luhn]
  | cons d rest ih =>
    have hparity : (rest.length + 1) % 2 = 1 ↔ ¬ rest.length % 2 = 1 := by omega
    cases double <;> simp [luhn, ih, hparity, Nat.add_assoc]

/-- The sum from the left is Luhn's sum from the right. -/
theorem cardChecksum_eq_luhn (digits : List ℕ) : cardChecksum digits = luhn false digits.reverse := by
  have hfold : ∀ (summands : List ℕ) (start : ℕ),
      summands.foldl (fun checksum digit => checksum + digit) start = start + summands.sum := by
    intro summands
    induction summands with
    | nil => simp
    | cons d rest ih =>
      intro start
      rw [List.foldl_cons, ih, List.sum_cons, Nat.add_assoc]
  induction digits with
  | nil => rfl
  | cons digit rest ih =>
    -- the parity of the length changes with the first digit, and so do the places of the others
    have hplaces : ∀ index, (index + 1) % 2 = (rest.length + 1) % 2 ↔ index % 2 = rest.length % 2 := by omega
    have hfirst : 0 = (rest.length + 1) % 2 ↔ rest.length % 2 = 1 := by omega
    rw [List.reverse_cons, luhn_append_singleton, ← ih]
    simp only [cardChecksum, List.length_cons, List.mapIdx_cons, hfold, List.sum_cons, hplaces, hfirst,
      List.length_reverse, Nat.zero_add, Nat.zero_mod, doubledDigit, iff_true]
    exact Nat.add_comm _ _

section Numbers

variable {n : ℕ} {word : List Char}

/-- A number is made of decimal digits and separators. -/
theorem WritesDigits.all (h : WritesDigits n word) :
    ∀ c ∈ word, isDecimal c = true ∨ isDigitSeparator c = true := by
  induction h with
  | last c hc => simp [hc]
  | digit n c word hc hword ih => simpa [hc] using ih
  | separated n c sep word hc hsep hword ih => simpa [hc, hsep] using ih

/-- A row of digits with separators has as many values. -/
theorem length_filterMap_of_writesDigits (h : WritesDigits n word) : (word.filterMap decimalDigit?).length = n := by
  have hdigit : ∀ c, isDecimal c = true → ∃ d, decimalDigit? c = some d := fun c hc => Option.isSome_iff_exists.mp hc
  have hnone : ∀ c, isDigitSeparator c = true → decimalDigit? c = none := fun c hc =>
    Option.not_isSome_iff_eq_none.mp (by simpa [isDecimal] using isDecimal_of_isDigitSeparator hc)
  induction h with
  | last c hc =>
    obtain ⟨d, hd⟩ := hdigit c hc
    simp [hd]
  | digit n c word hc hword ih =>
    obtain ⟨d, hd⟩ := hdigit c hc
    simp [hd, ih]
  | separated n c sep word hc hsep hword ih =>
    obtain ⟨d, hd⟩ := hdigit c hc
    simp [hd, hnone sep hsep, ih]

/-- The digits of a number are read without an error. -/
theorem mapM_decimalDigit?_of_all {word : List Char}
    (h : ∀ c ∈ word, isDecimal c = true ∨ isDigitSeparator c = true) :
    (word.filter isDigit).mapM decimalDigit? = some (word.filterMap decimalDigit?) := by
  induction word with
  | nil => rfl
  | cons c rest ih =>
    have hrest := ih fun d hd => h d (List.mem_cons_of_mem _ hd)
    rcases h c List.mem_cons_self with hc | hc
    · obtain ⟨d, hd⟩ := Option.isSome_iff_exists.mp hc
      have hdigit : isDigit c = true := by simp [isDigit, hc]
      simp [hdigit, hd, hrest]
    · have hnone : decimalDigit? c = none :=
        Option.not_isSome_iff_eq_none.mp (by simpa [isDecimal] using isDecimal_of_isDigitSeparator hc)
      have hdigit : isDigit c = false := by
        have hcases : c = ' ' ∨ c = '-' := by simpa [isDigitSeparator] using hc
        rcases hcases with rfl | rfl <;> decide +kernel
      simp [hdigit, hnone, hrest]

/-- A number that was read is valid by its check digit alone. -/
theorem isValidCardNumber_of_writesDigits (h : WritesDigits n word) (hleast : 13 ≤ n) (hmost : n ≤ 19) :
    isValidCardNumber word = .ok (decide (LuhnValid word)) := by
  have hlength : 13 ≤ (word.filterMap decimalDigit?).length ∧ (word.filterMap decimalDigit?).length ≤ 19 := by
    rw [length_filterMap_of_writesDigits h]
    exact ⟨hleast, hmost⟩
  rw [isValidCardNumber, mapM_decimalDigit?_of_all h.all]
  simp only [hlength, cardChecksum_eq_luhn, and_self, decide_true, Bool.true_and]
  rfl

/-- What the card pattern matches has 13 to 19 digits and is checked without an error. -/
theorem isValidCardNumber_of_mem_findAll {text : List Char} (h : word ∈ cardPattern.findAll text) :
    (13 ≤ (word.filterMap decimalDigit?).length ∧ (word.filterMap decimalDigit?).length ≤ 19) ∧
      isValidCardNumber word = .ok (decide (LuhnValid word)) := by
  rw [findAll_cardPattern] at h
  obtain ⟨before, after, -, htaken⟩ := mem_readNumbers_iff.mp h
  obtain ⟨n, hleast, hmost, hwrites, -⟩ := (taken_iff.mp htaken).1.writes
  rw [length_filterMap_of_writesDigits hwrites]
  exact ⟨⟨hleast, hmost⟩, isValidCardNumber_of_writesDigits hwrites hleast hmost⟩

/-- The check of whatever the card pattern matches raises no error, and is passed exactly by numbers of 13 to 19
digits whose sum is divisible by 10 when it is taken from the right with every second digit doubled. -/
theorem card_check_is_luhn {text : String} {number : List Char} (h : number ∈ cardPattern.findAll text.toList) :
    ∃ valid, isValidCardNumber number = .ok valid ∧
      (valid = true ↔ 13 ≤ (number.filterMap decimalDigit?).length ∧ (number.filterMap decimalDigit?).length ≤ 19 ∧
        luhn false (number.filterMap decimalDigit?).reverse % 10 = 0) := by
  obtain ⟨hlength, hvalid⟩ := isValidCardNumber_of_mem_findAll h
  refine ⟨_, hvalid, ?_⟩
  rw [decide_eq_true_eq, LuhnValid]
  exact ⟨fun hsum => ⟨hlength.1, hlength.2, hsum⟩, fun hall => hall.2.2⟩

/-- A card in Arabic digits with hyphens. -/
theorem card_check_is_luhn_arabic : ∃ valid, isValidCardNumber "٤١١١-١١١١-١١١١-١١١١".toList = .ok valid ∧
    (valid = true ↔ 13 ≤ ("٤١١١-١١١١-١١١١-١١١١".toList.filterMap decimalDigit?).length ∧
      ("٤١١١-١١١١-١١١١-١١١١".toList.filterMap decimalDigit?).length ≤ 19 ∧
      luhn false ("٤١١١-١١١١-١١١١-١١١١".toList.filterMap decimalDigit?).reverse % 10 = 0) := by
  have hmatch : "٤١١١-١١١١-١١١١-١١١١".toList ∈ cardPattern.findAll "Card ٤١١١-١١١١-١١١١-١١١١!".toList := by
    decide +kernel
  exact card_check_is_luhn hmatch

/-- One of the numbers is valid if its check digit is right. -/
theorem anyValidCardNumber_eq_ok {words : List (List Char)}
    (h : ∀ word ∈ words, isValidCardNumber word = .ok (decide (LuhnValid word))) :
    anyValidCardNumber words = .ok (decide (∃ word ∈ words, LuhnValid word)) := by
  induction words with
  | nil => simp [anyValidCardNumber]
  | cons word rest ih =>
    have hrest := ih fun w hw => h w (List.mem_cons_of_mem _ hw)
    rw [anyValidCardNumber, h word List.mem_cons_self]
    by_cases hvalid : LuhnValid word
    · simp [bind, Except.bind, pure, Except.pure, hvalid]
    · simp [bind, Except.bind, hvalid, hrest]

end Numbers

/-- A payment card that stands in a text: 13 to 19 digits with the right check digit and no digit beside them. -/
structure CardIn (text : List Char) where
  before : List Char
  number : List Char
  after : List Char
  digits : ℕ
  text_eq : text = before ++ (number ++ after)
  writes : WritesDigits digits number
  least : 13 ≤ digits
  most : digits ≤ 19
  valid : LuhnValid number
  front : before.getLast?.any isDecimal = false
  behind : headIs isDecimal after = false

/-- The card is read for itself: there is no room for digits behind it, and no number that is read further left
reaches into it. -/
structure CardIn.StandsAlone {text : List Char} (card : CardIn text) : Prop where
  room : NoRoomBehind card.digits card.after
  clear : Clear NumberAt card.before (card.number ++ card.after)

/-- A card that stands alone is one of the numbers that are read. -/
theorem CardIn.standsAlone_iff {text : List Char} {card : CardIn text} :
    card.StandsAlone ↔ Taken NumberAt card.before card.number card.after := by
  rw [taken_iff]
  constructor
  · rintro ⟨hroom, hclear⟩
    exact ⟨⟨⟨card.digits, card.least, card.most, card.writes, hroom⟩, card.front, card.behind⟩, hclear⟩
  · rintro ⟨⟨⟨n, -, -, hwrites, hroom⟩, -, -⟩, hclear⟩
    have hdigits : n = card.digits :=
      (length_filterMap_of_writesDigits hwrites).symm.trans (length_filterMap_of_writesDigits card.writes)
    exact ⟨hdigits ▸ hroom, hclear⟩

/-- The numbers with the right check digit that are read are the cards that stand alone. -/
theorem exists_read_iff {text : List Char} :
    (∃ number ∈ readNumbers text, LuhnValid number) ↔ ∃ card : CardIn text, card.StandsAlone := by
  constructor
  · rintro ⟨number, hread, hvalid⟩
    obtain ⟨before, after, htext, htaken⟩ := mem_readNumbers_iff.mp hread
    obtain ⟨⟨n, hleast, hmost, hwrites, -⟩, hfront, hbehind⟩ := (taken_iff.mp htaken).1
    exact ⟨⟨before, number, after, n, htext, hwrites, hleast, hmost, hvalid, hfront, hbehind⟩,
      CardIn.standsAlone_iff.mpr htaken⟩
  · rintro ⟨card, hcard⟩
    exact ⟨card.number, mem_readNumbers_iff.mpr ⟨card.before, card.after, card.text_eq,
      CardIn.standsAlone_iff.mp hcard⟩, card.valid⟩

variable {isAlnum : Char → Bool}

/-- Bare assignments are found, and cards that stand alone. -/
theorem containsSensitiveData_eq_ok (hletters : ∀ c : Char, c.isAlpha = true → isAlnum c = true) (text : String) :
    containsSensitiveData isAlnum text = .ok true ↔
      (∃ a : AssignmentIn text.toList, a.Bare isAlnum) ∨ ∃ card : CardIn text.toList, card.StandsAlone := by
  rw [containsSensitiveData, ← search_secretPattern hletters, ← exists_read_iff]
  by_cases hsecret : (secretPattern isAlnum).search text.toList = true
  · simp [hsecret]
  · rw [if_neg hsecret, anyValidCardNumber_eq_ok fun word hword => (isValidCardNumber_of_mem_findAll hword).2,
      findAll_cardPattern]
    simp [hsecret]

/-- A text with sensitive data is refused on its way in, unless it is refused before. -/
theorem validateInput_of_sensitive {text : String} (h : containsSensitiveData isAlnum text = .ok true) :
    ∃ reason, validateInput isAlnum text = .error (.violation reason) := by
  unfold validateInput
  by_cases hinjection : ((promptInjectionPatterns isAlnum).any fun pattern => pattern.search text.toList) = true
  · exact ⟨"prompt_injection", by rw [if_pos hinjection]; rfl⟩
  · exact ⟨"sensitive_data", by rw [if_neg hinjection, h]; rfl⟩

/-- A text with sensitive data is refused on its way out, unless it is refused before. -/
theorem validateOutput_of_sensitive {text : String} (h : containsSensitiveData isAlnum text = .ok true) :
    ∃ reason, validateOutput isAlnum text = .error (.violation reason) := by
  unfold validateOutput
  by_cases hlong : maxOutputLength < text.length
  · exact ⟨"output_too_long", by rw [if_pos hlong]; rfl⟩
  · exact ⟨"sensitive_data", by rw [if_neg hlong, h]; rfl⟩

section Cards

variable {text : String}

/-- A text with a payment card is refused exactly if the card stands alone, or something else in the text gives it
away: another card that stands alone, or a bare assignment. -/
theorem card_refused_iff (hletters : ∀ c : Char, c.isAlpha = true → isAlnum c = true) (card : CardIn text.toList) :
    (containsSensitiveData isAlnum text = .ok true ∧
      (∃ reason, validateInput isAlnum text = .error (.violation reason)) ∧
      ∃ reason, validateOutput isAlnum text = .error (.violation reason)) ↔
    card.StandsAlone ∨
      (∃ other : CardIn text.toList, (other.before, other.number) ≠ (card.before, card.number) ∧ other.StandsAlone) ∨
      ∃ a : AssignmentIn text.toList, a.Bare isAlnum := by
  have hfound := containsSensitiveData_eq_ok hletters text
  constructor
  · rintro ⟨hsensitive, -⟩
    rcases hfound.mp hsensitive with hassignment | ⟨other, hother⟩
    · exact .inr (.inr hassignment)
    · by_cases hsame : (other.before, other.number) = (card.before, card.number)
      · obtain ⟨hbefore, hnumber⟩ := Prod.mk.inj hsame
        have hafter : other.after = card.after := by
          have htext := other.text_eq.symm.trans card.text_eq
          rw [hbefore, hnumber] at htext
          exact List.append_cancel_left (List.append_cancel_left htext)
        have htaken := CardIn.standsAlone_iff.mp hother
        rw [hbefore, hnumber, hafter] at htaken
        exact .inl (CardIn.standsAlone_iff.mpr htaken)
      · exact .inr (.inl ⟨other, hsame, hother⟩)
  · intro h
    have hsensitive : containsSensitiveData isAlnum text = .ok true := by
      rcases h with halone | ⟨other, -, hother⟩ | hassignment
      · exact hfound.mpr (.inr ⟨card, halone⟩)
      · exact hfound.mpr (.inr ⟨other, hother⟩)
      · exact hfound.mpr (.inl hassignment)
    exact ⟨hsensitive, validateInput_of_sensitive hsensitive, validateOutput_of_sensitive hsensitive⟩

/-- The letters of ASCII are alphanumeric. -/
theorem alphanum_of_alpha (c : Char) (h : c.isAlpha = true) : c.isAlphanum = true := by simp [Char.isAlphanum, h]

/-- A card at the end of a sentence. -/
theorem card_refused_at_end :
    containsSensitiveData Char.isAlphanum "My card is 4111 1111 1111 1111" = .ok true ∧
      (∃ reason, validateInput Char.isAlphanum "My card is 4111 1111 1111 1111" = .error (.violation reason)) ∧
      ∃ reason, validateOutput Char.isAlphanum "My card is 4111 1111 1111 1111" = .error (.violation reason) := by
  have hnumber : WritesDigits 16 "4111 1111 1111 1111".toList :=
    (numberOf_eq_some_iff.mp (by decide +kernel : numberOf 16 "4111 1111 1111 1111".toList = some _)).1
  have hbefore : ("My card is ".toList).getLast?.any isDecimal = false := by decide +kernel
  let card : CardIn "My card is 4111 1111 1111 1111".toList :=
    ⟨"My card is ".toList, "4111 1111 1111 1111".toList, [], 16, by decide +kernel, hnumber, by decide, by decide,
      by decide +kernel, hbefore, rfl⟩
  have hclear : Clear NumberAt "My card is ".toList ("4111 1111 1111 1111".toList ++ []) := by
    refine clear_of_no_digit hbefore fun rest digit sep hsplit hdigit => ?_
    have hreverse := congrArg List.reverse hsplit
    obtain ⟨-, rfl, -⟩ : ' ' = sep ∧ 's' = digit ∧ _ := by simpa using hreverse
    exact absurd hdigit (by decide +kernel)
  have hroom : NoRoomBehind 16 [] := by
    intro sep count word rest hsplit
    cases hsplit
  exact (card_refused_iff alphanum_of_alpha card).mpr (.inl ⟨hroom, hclear⟩)

/-- A card is not found when its expiry date stands behind it: the row of digits is read to its end. -/
theorem card_before_expiry_missed :
    (∃ card : CardIn "4111 1111 1111 1111 12/27".toList, card.number = "4111 1111 1111 1111".toList) ∧
      containsSensitiveData Char.isAlphanum "4111 1111 1111 1111 12/27" = .ok false ∧
      validateInput Char.isAlphanum "4111 1111 1111 1111 12/27" = .ok () ∧
      validateOutput Char.isAlphanum "4111 1111 1111 1111 12/27" = .ok () := by
  have hnumber : WritesDigits 16 "4111 1111 1111 1111".toList :=
    (numberOf_eq_some_iff.mp (by decide +kernel : numberOf 16 "4111 1111 1111 1111".toList = some _)).1
  refine ⟨⟨⟨[], "4111 1111 1111 1111".toList, " 12/27".toList, 16, by decide +kernel, hnumber, by decide, by decide,
    by decide +kernel, rfl, by decide +kernel⟩, rfl⟩, ?_, ?_, ?_⟩ <;> decide +kernel

end Cards

section Assignments

variable {text : List Char}

/-- An assignment begins with no quote. -/
theorem IsAssignment.not_quote {assignment after : List Char} (h : IsAssignment assignment) {c : Char}
    (hc : c ∈ ['"', '\'']) {rest : List Char} : assignment ++ after ≠ c :: rest := by
  have hquote : isSpace c = false ∧ c ∉ [':', '='] := by
    simp only [List.mem_cons, List.not_mem_nil, or_false] at hc
    rcases hc with rfl | rfl <;> decide
  obtain ⟨blanks, sign, blanks', value, rfl, hblanks, hsign, -⟩ := h
  intro hsame
  cases blanks with
  | nil =>
    obtain ⟨rfl, -⟩ := List.cons.inj hsame
    exact hquote.2 hsign
  | cons blank blanks =>
    obtain ⟨rfl, -⟩ := List.cons.inj hsame
    rw [hblanks _ List.mem_cons_self] at hquote
    exact absurd hquote.1 (by simp)

/-- Of two assignments with one keyword both are bare or none is. -/
theorem AssignmentIn.Bare.of_before_eq {isAlnum : Char → Bool} {a b : AssignmentIn text} (h : b.Bare isAlnum)
    (hsame : b.before = a.before) : a.Bare isAlnum := by
  have htext := b.text_eq.symm.trans a.text_eq
  rw [hsame, h.1] at htext
  obtain ⟨-, hbehind⟩ := b.keyword.append_inj a.keyword (List.append_cancel_left htext)
  refine ⟨?_, hsame ▸ h.2⟩
  rcases a.quoted with hnone | ⟨c, hc, hquote⟩
  · exact hnone
  · rw [hquote] at hbehind
    exact absurd hbehind (b.assigned.not_quote hc)

/-- A text with an assignment is refused exactly if its keyword begins a word and no quote stands behind it, or
something else in the text gives it away: another assignment of this kind with its keyword elsewhere, or a payment
card that stands alone. -/
theorem assignment_refused_iff (hletters : ∀ c : Char, c.isAlpha = true → isAlnum c = true) {text : String}
    (a : AssignmentIn text.toList) :
    (containsSensitiveData isAlnum text = .ok true ∧
      ∃ reason, validateOutput isAlnum text = .error (.violation reason)) ↔
    a.Bare isAlnum ∨ (∃ other : AssignmentIn text.toList, other.before ≠ a.before ∧ other.Bare isAlnum) ∨
      ∃ card : CardIn text.toList, card.StandsAlone := by
  have hfound := containsSensitiveData_eq_ok hletters text
  constructor
  · rintro ⟨hsensitive, -⟩
    rcases hfound.mp hsensitive with ⟨other, hother⟩ | hcard
    · by_cases hsame : other.before = a.before
      · exact .inl (hother.of_before_eq hsame)
      · exact .inr (.inl ⟨other, hsame, hother⟩)
    · exact .inr (.inr hcard)
  · intro h
    have hsensitive : containsSensitiveData isAlnum text = .ok true := by
      rcases h with hbare | ⟨other, -, hother⟩ | hcard
      · exact hfound.mpr (.inl ⟨a, hbare⟩)
      · exact hfound.mpr (.inl ⟨other, hother⟩)
      · exact hfound.mpr (.inr hcard)
    exact ⟨hsensitive, validateOutput_of_sensitive hsensitive⟩

/-- A keyword at the beginning of a text. -/
theorem assignment_refused_at_start :
    containsSensitiveData Char.isAlphanum "api_key=do-not-return-this" = .ok true ∧
      ∃ reason, validateOutput Char.isAlphanum "api_key=do-not-return-this" = .error (.violation reason) := by
  have hkey : IsKeyword ("api".toList ++ (['_'] ++ "key".toList)) :=
    .pair "api" "key" _ _ _ (.inl rfl) (by simp [Spells, sameIgnoringCase]) (.inr ⟨'_', by decide, rfl⟩)
      (by simp [Spells, sameIgnoringCase])
  have hassignment : IsAssignment ['=', 'd'] := ⟨[], '=', [], 'd', rfl, by simp, by decide, by simp, by decide⟩
  let a : AssignmentIn "api_key=do-not-return-this".toList :=
    ⟨[], "api".toList ++ (['_'] ++ "key".toList), [], ['=', 'd'], "o-not-return-this".toList, by decide +kernel, hkey,
      .inl rfl, hassignment⟩
  exact (assignment_refused_iff alphanum_of_alpha a).mpr (.inl ⟨rfl, rfl⟩)

/-- A keyword at the end of a longer name is not found, nor one in quotes. -/
theorem assignment_missed :
    ((∃ a : AssignmentIn "LLM_API_KEY=x".toList, a.key = "API_KEY".toList) ∧
      containsSensitiveData Char.isAlphanum "LLM_API_KEY=x" = .ok false ∧
      validateOutput Char.isAlphanum "LLM_API_KEY=x" = .ok ()) ∧
    ((∃ a : AssignmentIn "\"password\": \"x\"".toList, a.key = "password".toList ∧ a.quote = ['"']) ∧
      containsSensitiveData Char.isAlphanum "\"password\": \"x\"" = .ok false ∧
      validateOutput Char.isAlphanum "\"password\": \"x\"" = .ok ()) := by
  have hapi : IsKeyword ("API".toList ++ (['_'] ++ "KEY".toList)) :=
    .pair "api" "key" _ _ _ (.inl rfl) (by simp [Spells, sameIgnoringCase]) (.inr ⟨'_', by decide, rfl⟩)
      (by simp [Spells, sameIgnoringCase])
  have hpassword : IsKeyword "password".toList := .password _ (by simp [Spells, sameIgnoringCase])
  have hvalue : IsAssignment "=x".toList := ⟨[], '=', [], 'x', rfl, by simp, by decide, by simp, by decide⟩
  have hquoted : IsAssignment ": \"".toList :=
    ⟨[], ':', [' '], '"', rfl, by simp, by decide, by simp [isSpace], by decide⟩
  refine ⟨⟨?_, by decide +kernel, by decide +kernel⟩, ?_, by decide +kernel, by decide +kernel⟩
  · exact ⟨⟨"LLM_".toList, _, [], _, [], by decide +kernel, hapi, .inl rfl, hvalue⟩, rfl⟩
  · exact ⟨⟨['"'], _, ['"'], _, "x\"".toList, by decide +kernel, hpassword, .inr ⟨'"', by decide, rfl⟩, hquoted⟩,
      rfl, rfl⟩

end Assignments

end Agentops
