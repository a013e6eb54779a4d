import Agentops.Foundations.TextDecoder

/-!
# JSON texts

`JSON.parse` on strings of 16-bit units, and the texts that `json.dumps` writes for an object with one text
in it. What is written is read back, whatever characters the text has.
-/

namespace JsonText

open TextDecoder (utf16Units utf16)

/-- What a JSON text stands for. A number is kept as it is written. -/
inductive Value
  | null
  | bool (value : Bool)
  | number (text : List UInt16)
  | string (text : List UInt16)
  | array (items : List Value)
  | object (fields : List (List UInt16 × Value))

/-- The value of a field of an object; of a repeated field the last value counts. -/
def Value.field? (name : List UInt16) : Value → Option Value
  | .object fields => (fields.reverse.find? (·.1 = name)).map Prod.snd
  | _ => none

/-- The unit of a character. -/
def unit (c : Char) : UInt16 := UInt16.ofNat c.toNat

/-! ### Reading -/

/-- White space of JSON. -/
def isBlank (u : UInt16) : Bool := u = unit ' ' ∨ u = unit '\t' ∨ u = unit '\n' ∨ u = unit '\r'

/-- What follows a character of the syntax, with blanks before it. -/
def token (c : Char) (text : List UInt16) : Option (List UInt16) :=
  match text.dropWhile isBlank with
  | u :: rest => if u = unit c then some rest else none
  | [] => none

/-- The value of a hexadecimal digit. -/
def hexDigit? (u : UInt16) : Option ℕ :=
  let n := u.toNat
  if 0x30 ≤ n ∧ n ≤ 0x39 then some (n - 0x30)
  else if 0x41 ≤ n ∧ n ≤ 0x46 then some (n - 0x37)
  else if 0x61 ≤ n ∧ n ≤ 0x66 then some (n - 0x57)
  else none

/-- The unit that four hexadecimal digits write. -/
def hexUnit? (a b c d : UInt16) : Option UInt16 := do
  let a ← hexDigit? a
  let b ← hexDigit? b
  let c ← hexDigit? c
  let d ← hexDigit? d
  return UInt16.ofNat (((a * 16 + b) * 16 + c) * 16 + d)

/-- The unit that a character after a backslash stands for. -/
def escaped? (u : UInt16) : Option UInt16 :=
  [(unit '"', unit '"'), (unit '\\', unit '\\'), (unit '/', unit '/'), (unit 'b', 8), (unit 'f', 12),
    (unit 'n', unit '\n'), (unit 'r', unit '\r'), (unit 't', unit '\t')].lookup u

/-- The rest of a string up to its closing quote, and what follows. -/
def readString : List UInt16 → Option (List UInt16 × List UInt16)
  | [] => none
  | u :: rest =>
    if u = unit '"' then some ([], rest)
    else if u = unit '\\' then
      match rest with
      | [] => none
      | e :: rest =>
        if e = unit 'u' then
          match rest with
          | a :: b :: c :: d :: rest => do
            let first ← hexUnit? a b c d
            let (more, after) ← readString rest
            return (first :: more, after)
          | _ => none
        else do
          let first ← escaped? e
          let (more, after) ← readString rest
          return (first :: more, after)
    else if u.toNat < 0x20 then none
    else do
      let (more, after) ← readString rest
      return (u :: more, after)

/-- A decimal digit. -/
def isDigit (u : UInt16) : Bool := 0x30 ≤ u.toNat ∧ u.toNat ≤ 0x39

/-- What follows one or more digits. -/
def skipDigits (text : List UInt16) : Option (List UInt16) :=
  if text.head?.any isDigit then some (text.dropWhile isDigit) else none

/-- What follows one of the characters, if the text starts with one. -/
def skipOneOf (characters : List Char) : List UInt16 → List UInt16
  | [] => []
  | u :: rest => if u ∈ characters.map unit then rest else u :: rest

/-- What follows the digits before the point. -/
def skipInteger (text : List UInt16) : Option (List UInt16) :=
  match text with
  | [] => none
  | u :: rest => if u = unit '0' then some rest else skipDigits text

/-- What follows the digits after a mark, which need not be there. -/
def skipPart (marks signs : List Char) (text : List UInt16) : Option (List UInt16) :=
  match text with
  | [] => some []
  | u :: rest => if u ∈ marks.map unit then skipDigits (skipOneOf signs rest) else some text

/-- A number, and what follows. -/
def readNumber (text : List UInt16) : Option (Value × List UInt16) := do
  let after ← skipInteger (skipOneOf ['-'] text)
  let after ← skipPart ['.'] [] after
  let after ← skipPart ['e', 'E'] ['+', '-'] after
  return (.number (text.take (text.length - after.length)), after)

/-- A word for a value, and what follows. -/
def readWord (word : String) (value : Value) (text : List UInt16) : Option (Value × List UInt16) :=
  if (utf16 word).isPrefixOf text then some (value, text.drop word.length) else none

/-- The values of an array up to its end, so many at most. -/
def readItems (value : List UInt16 → Option (Value × List UInt16)) :
    ℕ → List UInt16 → Option (List Value × List UInt16)
  | 0, _ => none
  | count + 1, text => do
    let (first, rest) ← value text
    match token ',' rest with
    | some rest =>
      let (more, after) ← readItems value count rest
      return (first :: more, after)
    | none =>
      let after ← token ']' rest
      return ([first], after)

/-- The fields of an object up to its end, so many at most. -/
def readFields (value : List UInt16 → Option (Value × List UInt16)) :
    ℕ → List UInt16 → Option (List (List UInt16 × Value) × List UInt16)
  | 0, _ => none
  | count + 1, text => do
    let rest ← token '"' text
    let (name, rest) ← readString rest
    let rest ← token ':' rest
    let (first, rest) ← value rest
    match token ',' rest with
    | some rest =>
      let (more, after) ← readFields value count rest
      return ((name, first) :: more, after)
    | none =>
      let after ← token '}' rest
      return ([(name, first)], after)

/-- A value in which values are nested so deep at most, and what follows. -/
def readValue : ℕ → List UInt16 → Option (Value × List UInt16)
  | 0, _ => none
  | depth + 1, text =>
    match token '"' text, token '{' text, token '[' text with
    | some rest, _, _ => do
      let (string, after) ← readString rest
      return (.string string, after)
    | _, some rest, _ =>
      match token '}' rest with
      | some after => some (.object [], after)
      | none => do
        let (fields, after) ← readFields (readValue depth) rest.length rest
        return (.object fields, after)
    | _, _, some rest =>
      match token ']' rest with
      | some after => some (.array [], after)
      | none => do
        let (items, after) ← readItems (readValue depth) rest.length rest
        return (.array items, after)
    | none, none, none =>
      let text := text.dropWhile isBlank
      (readWord "null" .null text).or <| (readWord "true" (.bool true) text).or <|
        (readWord "false" (.bool false) text).or (readNumber text)

/-- `JSON.parse`. No value is nested deeper than its text is long. -/
def parse (text : List UInt16) : Option Value :=
  match readValue text.length text with
  | some (value, after) => if after.all isBlank then some value else none
  | none => none

/-! ### Writing -/

/-- `"\\u{0:04x}"`. -/
def unicodeEscape (u : UInt16) : List Char :=
  let n := u.toNat
  ['\\', 'u', Nat.digitChar (n / 0x1000), Nat.digitChar (n / 0x100 % 0x10),
    Nat.digitChar (n / 0x10 % 0x10), Nat.digitChar (n % 0x10)]

/-- A character in a string that is written in ASCII. -/
def escape (c : Char) : List Char :=
  if c = '"' then ['\\', '"']
  else if c = '\\' then ['\\', '\\']
  else if c = '\n' then ['\\', 'n']
  else if c = '\r' then ['\\', 'r']
  else if c = '\t' then ['\\', 't']
  else if c.toNat = 8 then ['\\', 'b']
  else if c.toNat = 12 then ['\\', 'f']
  else if 0x20 ≤ c.toNat ∧ c.toNat ≤ 0x7e then [c]
  else (utf16Units c.toNat).flatMap unicodeEscape

/-- `json.dumps(text)`. -/
def dumpsText (text : String) : String := String.ofList ('"' :: (text.toList.flatMap escape ++ ['"']))

/-- `json.dumps({name: text})`. -/
def dumpsField (name text : String) : String :=
  "\x7b" ++ dumpsText name ++ ": " ++ dumpsText text ++ "\x7d"

/-! ### Reading what was written -/

/-- What is read of a string when units come before what is read of the rest. -/
def before (units : List UInt16) (read : Option (List UInt16 × List UInt16)) :
    Option (List UInt16 × List UInt16) :=
  read.map fun (more, after) => (units ++ more, after)

variable {rest : List UInt16}

/-- A unit that needs no escape is read as it is. -/
theorem readString_plain {u : UInt16} (hquote : u ≠ unit '"') (hbackslash : u ≠ unit '\\')
    (hprintable : ¬ u.toNat < 0x20) : readString (u :: rest) = before [u] (readString rest) := by
  rw [readString.eq_def]
  simp only [if_neg hquote, if_neg hbackslash, if_neg hprintable]
  cases readString rest <;> rfl

/-- A unit after a backslash stands for what it abbreviates. -/
theorem readString_escaped {e u : UInt16} (he : e ≠ unit 'u') (hescaped : escaped? e = some u) :
    readString (unit '\\' :: e :: rest) = before [u] (readString rest) := by
  have hquote : unit '\\' ≠ unit '"' := by decide
  rw [readString.eq_def]
  simp only [if_neg hquote, if_true, if_neg he, hescaped]
  cases readString rest <;> rfl

/-- The digit of a number below sixteen is read as that number. -/
theorem hexDigit_digitChar {n : ℕ} (hn : n < 0x10) : hexDigit? (unit (Nat.digitChar n)) = some n := by
  have hall : ∀ m < 0x10, hexDigit? (unit (Nat.digitChar m)) = some m := by decide
  exact hall n hn

/-- The four digits of a unit are read as that unit. -/
theorem hexUnit_digits (u : UInt16) :
    hexUnit? (unit (Nat.digitChar (u.toNat / 0x1000))) (unit (Nat.digitChar (u.toNat / 0x100 % 0x10)))
      (unit (Nat.digitChar (u.toNat / 0x10 % 0x10))) (unit (Nat.digitChar (u.toNat % 0x10))) = some u := by
  have hlt : u.toNat < 0x10000 := u.toNat_lt
  have hvalue : ((u.toNat / 0x1000 * 16 + u.toNat / 0x100 % 0x10) * 16 + u.toNat / 0x10 % 0x10) * 16 +
      u.toNat % 0x10 = u.toNat := by omega
  rw [hexUnit?, hexDigit_digitChar (by omega), hexDigit_digitChar (by omega),
    hexDigit_digitChar (by omega), hexDigit_digitChar (by omega)]
  exact congrArg some ((congrArg UInt16.ofNat hvalue).trans UInt16.ofNat_toNat)

/-- The units of characters. -/
def charUnits (characters : List Char) : List UInt16 := characters.flatMap fun c => utf16Units c.toNat

/-- A hexadecimal digit is one unit. -/
theorem utf16Units_digitChar {n : ℕ} (hn : n < 0x10) :
    utf16Units (Nat.digitChar n).toNat = [unit (Nat.digitChar n)] := by
  have hall : ∀ m < 0x10, utf16Units (Nat.digitChar m).toNat = [unit (Nat.digitChar m)] := by decide
  exact hall n hn

/-- A unit that is written with four digits is read as that unit. -/
theorem readString_unicodeEscape (u : UInt16) :
    readString (charUnits (unicodeEscape u) ++ rest) = before [u] (readString rest) := by
  have hlt : u.toNat < 0x10000 := u.toNat_lt
  have hunits : charUnits (unicodeEscape u) =
      [unit '\\', unit 'u', unit (Nat.digitChar (u.toNat / 0x1000)),
        unit (Nat.digitChar (u.toNat / 0x100 % 0x10)), unit (Nat.digitChar (u.toNat / 0x10 % 0x10)),
        unit (Nat.digitChar (u.toNat % 0x10))] := by
    simp only [charUnits, unicodeEscape, List.flatMap_cons, List.flatMap_nil,
      utf16Units_digitChar (show u.toNat / 0x1000 < 0x10 by omega),
      utf16Units_digitChar (show u.toNat / 0x100 % 0x10 < 0x10 by omega),
      utf16Units_digitChar (show u.toNat / 0x10 % 0x10 < 0x10 by omega),
      utf16Units_digitChar (show u.toNat % 0x10 < 0x10 by omega)]
    rfl
  rw [hunits]
  simp only [List.cons_append, List.nil_append]
  have hquote : unit '\\' ≠ unit '"' := by decide
  rw [readString.eq_def]
  simp only [if_neg hquote, if_true, hexUnit_digits]
  cases readString rest <;> rfl

/-- Units before units. -/
theorem before_before (first second : List UInt16) (read : Option (List UInt16 × List UInt16)) :
    before first (before second read) = before (first ++ second) read := by
  cases read <;> simp [before]

/-- Units that are written with four digits each are read as those units. -/
theorem readString_unicodeEscapes (units : List UInt16) :
    readString (charUnits (units.flatMap unicodeEscape) ++ rest) = before units (readString rest) := by
  induction units with
  | nil =>
    simp only [List.flatMap_nil, charUnits, List.nil_append]
    cases readString rest <;> rfl
  | cons u units ih =>
    have hsplit : charUnits ((u :: units).flatMap unicodeEscape) ++ rest =
        charUnits (unicodeEscape u) ++ (charUnits (units.flatMap unicodeEscape) ++ rest) := by
      simp [charUnits]
    rw [hsplit, readString_unicodeEscape, ih, before_before]
    rfl

/-- Which characters are written as they are. -/
theorem readString_printable {c : Char} (hquote : c ≠ '"') (hbackslash : c ≠ '\\')
    (hlow : 0x20 ≤ c.toNat) (hhigh : c.toNat ≤ 0x7e) :
    readString (charUnits [c] ++ rest) = before (utf16Units c.toNat) (readString rest) := by
  have hunits : utf16Units c.toNat = [unit c] := if_pos (by omega)
  have hvalue : (unit c).toNat = c.toNat := UInt16.toNat_ofNat_of_lt' (by simp [UInt16.size]; omega)
  have hne {d : Char} (hd : d.toNat < 0x10000) (hcd : c ≠ d) : unit c ≠ unit d := by
    intro heq
    have hvalue' : (unit d).toNat = d.toNat := UInt16.toNat_ofNat_of_lt' hd
    exact hcd (Char.toNat_inj.mp (hvalue.symm.trans ((congrArg UInt16.toNat heq).trans hvalue')))
  have hprintable : ¬ (unit c).toNat < 0x20 := by omega
  have hsingle : charUnits [c] ++ rest = unit c :: rest := by simp [charUnits, hunits]
  rw [hsingle, hunits]
  exact readString_plain (hne (by decide) hquote) (hne (by decide) hbackslash) hprintable

/-- What is written for a character is read as that character. -/
theorem readString_escape (c : Char) :
    readString (charUnits (escape c) ++ rest) = before (utf16Units c.toNat) (readString rest) := by
  unfold escape
  split_ifs with hquote hbackslash hnewline hreturn htab hbackspace hfeed hprintable
  · subst hquote
    exact readString_escaped (by decide) (by decide)
  · subst hbackslash
    exact readString_escaped (by decide) (by decide)
  · subst hnewline
    exact readString_escaped (by decide) (by decide)
  · subst hreturn
    exact readString_escaped (by decide) (by decide)
  · subst htab
    exact readString_escaped (by decide) (by decide)
  · rw [hbackspace]
    exact readString_escaped (by decide) (by decide)
  · rw [hfeed]
    exact readString_escaped (by decide) (by decide)
  · exact readString_printable hquote hbackslash hprintable.1 hprintable.2
  · exact readString_unicodeEscapes (utf16Units c.toNat)

/-- A string is read up to the quote that ends it. -/
theorem readString_escapes (characters : List Char) :
    readString (charUnits (characters.flatMap escape) ++ unit '"' :: rest) =
      some (charUnits characters, rest) := by
  induction characters with
  | nil =>
    simp only [List.flatMap_nil, charUnits, List.nil_append]
    rw [readString.eq_def]
    rfl
  | cons c characters ih =>
    have hsplit : charUnits ((c :: characters).flatMap escape) ++ unit '"' :: rest =
        charUnits (escape c) ++ (charUnits (characters.flatMap escape) ++ unit '"' :: rest) := by
      simp [charUnits]
    rw [hsplit, readString_escape, ih]
    rfl

/-- A character of the syntax, at the start. -/
theorem token_cons {c : Char} (hc : isBlank (unit c) = false) (d : Char) :
    token d (unit c :: rest) = if unit c = unit d then some rest else none := by
  simp [token, hc]

/-- A character of the syntax is found. -/
theorem token_self {c : Char} (hc : isBlank (unit c) = false) : token c (unit c :: rest) = some rest := by
  rw [token_cons hc, if_pos rfl]

/-- Another one is not. -/
theorem token_ne {c d : Char} (hc : isBlank (unit c) = false) (hne : unit c ≠ unit d) :
    token d (unit c :: rest) = none := by
  rw [token_cons hc, if_neg hne]

/-- The units of what `json.dumps` writes. -/
theorem utf16_dumpsField (name text : String) :
    utf16 (dumpsField name text) =
      unit '{' :: unit '"' :: (charUnits (name.toList.flatMap escape) ++
        unit '"' :: unit ':' :: unit ' ' :: unit '"' :: (charUnits (text.toList.flatMap escape) ++
          unit '"' :: unit '}' :: [])) := by
  have hlist : (dumpsField name text).toList =
      ['{', '"'] ++ name.toList.flatMap escape ++ ['"', ':', ' ', '"'] ++ text.toList.flatMap escape ++
        ['"', '}'] := by
    simp [dumpsField, dumpsText, String.toList_append]
  rw [utf16, hlist]
  simp only [List.flatMap_append, charUnits, List.append_assoc]
  rfl

/-- A quote starts a string, also after a blank. -/
theorem readValue_string (depth : ℕ) {text : List UInt16} (characters : List Char)
    (htext : token '"' text = some (charUnits (characters.flatMap escape) ++ unit '"' :: rest)) :
    readValue (depth + 1) text = some (.string (charUnits characters), rest) := by
  rw [readValue, htext]
  simp only [readString_escapes]
  rfl

/-- The one field of an object. -/
theorem readFields_one (depth count : ℕ) (name text : List Char) :
    readFields (readValue (depth + 1)) (count + 1)
        (unit '"' :: (charUnits (name.flatMap escape) ++
          unit '"' :: unit ':' :: unit ' ' :: unit '"' :: (charUnits (text.flatMap escape) ++
            unit '"' :: unit '}' :: []))) =
      some ([(charUnits name, .string (charUnits text))], []) := by
  have hvalue : readValue (depth + 1)
      (unit ' ' :: unit '"' :: (charUnits (text.flatMap escape) ++ unit '"' :: unit '}' :: [])) =
        some (.string (charUnits text), [unit '}']) := readValue_string depth text rfl
  have hcolon (rest : List UInt16) : token ':' (unit ':' :: rest) = some rest := token_self rfl
  have hcomma : token ',' [unit '}'] = none := token_ne rfl (by decide)
  have hbrace : token '}' [unit '}'] = some [] := token_self rfl
  rw [readFields, token_self rfl]
  simp only [Option.bind_eq_bind, Option.bind_some, readString_escapes, hcolon, hvalue, hcomma, hbrace]
  rfl

/-- `JSON.parse` reads what `json.dumps` writes. -/
theorem parse_dumpsField (name text : String) :
    parse (utf16 (dumpsField name text)) = some (.object [(utf16 name, .string (utf16 text))]) := by
  rw [utf16_dumpsField, parse]
  generalize hbody : charUnits (name.toList.flatMap escape) ++
    unit '"' :: unit ':' :: unit ' ' :: unit '"' :: (charUnits (text.toList.flatMap escape) ++
      unit '"' :: unit '}' :: []) = body
  have hfields := readFields_one body.length body.length name.toList text.toList
  rw [hbody] at hfields
  have hquote : token '"' (unit '{' :: unit '"' :: body) = none := token_ne rfl (by decide)
  have hopen : token '{' (unit '{' :: unit '"' :: body) = some (unit '"' :: body) := token_self rfl
  have hclose : token '}' (unit '"' :: body) = none := token_ne rfl (by decide)
  have hread : readValue (body.length + 2) (unit '{' :: unit '"' :: body) =
      some (.object [(utf16 name, .string (utf16 text))], []) := by
    rw [readValue, hquote, hopen]
    simp only [hclose, List.length_cons, hfields]
    rfl
  simp only [List.length_cons, hread]
  rfl

/-! ### What is written is printable -/

/-- A printable ASCII character. -/
def Printable (c : Char) : Prop := 0x20 ≤ c.toNat ∧ c.toNat ≤ 0x7e

instance (c : Char) : Decidable (Printable c) := inferInstanceAs (Decidable (_ ∧ _))

/-- The digits of a unit are printable. -/
theorem printable_unicodeEscape (u : UInt16) : ∀ c ∈ unicodeEscape u, Printable c := by
  have hdigit {n : ℕ} (hn : n < 0x10) : Printable (Nat.digitChar n) := by
    have hall : ∀ m < 0x10, Printable (Nat.digitChar m) := by decide
    exact hall n hn
  have hlt : u.toNat < 0x10000 := u.toNat_lt
  intro c hc
  simp only [unicodeEscape, List.mem_cons, List.not_mem_nil, or_false] at hc
  rcases hc with rfl | rfl | rfl | rfl | rfl | rfl
  · decide
  · decide
  all_goals exact hdigit (by omega)

/-- A backslash and a printable character. -/
theorem printable_backslash {d : Char} (hd : Printable d) : ∀ c ∈ ['\\', d], Printable c := by
  have hbackslash : Printable '\\' := by decide
  simp [hbackslash, hd]

/-- What is written for a character is printable. -/
theorem printable_escape (c : Char) : ∀ d ∈ escape c, Printable d := by
  unfold escape
  split_ifs with hquote hbackslash hnewline hreturn htab hbackspace hfeed hprintable
  on_goal 8 => exact fun d hd => List.mem_singleton.mp hd ▸ hprintable
  on_goal 8 =>
    intro d hd
    obtain ⟨u, -, hu⟩ := List.mem_flatMap.mp hd
    exact printable_unicodeEscape u d hu
  all_goals exact printable_backslash (by decide)

/-- Every character of a text is printable. -/
def AllPrintable (text : String) : Prop := ∀ c ∈ text.toList, Printable c

instance (text : String) : Decidable (AllPrintable text) := List.decidableBAll Printable text.toList

/-- Two printable texts, one after the other. -/
theorem AllPrintable.append {first second : String} (hfirst : AllPrintable first)
    (hsecond : AllPrintable second) : AllPrintable (first ++ second) := by
  intro c hc
  rw [String.toList_append, List.mem_append] at hc
  rcases hc with hc | hc
  · exact hfirst c hc
  · exact hsecond c hc

/-- A printable text is ASCII. -/
theorem AllPrintable.isAscii {text : String} (h : AllPrintable text) : TextDecoder.IsAscii text := by
  intro c hc
  have hle : c.toNat ≤ 0x7e := (h c hc).2
  omega

/-- A string is written in printable characters. -/
theorem allPrintable_dumpsText (text : String) : AllPrintable (dumpsText text) := by
  intro c hc
  simp only [dumpsText, String.toList_ofList, List.mem_cons, List.mem_append, List.mem_flatMap,
    List.not_mem_nil, or_false] at hc
  rcases hc with rfl | ⟨d, -, hd⟩ | rfl
  · decide
  · exact printable_escape d c hd
  · decide

/-- So is an object. -/
theorem allPrintable_dumpsField (name text : String) : AllPrintable (dumpsField name text) := by
  have hopen : AllPrintable "\x7b" := by decide
  have hcolon : AllPrintable ": " := by decide
  have hclose : AllPrintable "\x7d" := by decide
  exact (((hopen.append (allPrintable_dumpsText name)).append hcolon).append
    (allPrintable_dumpsText text)).append hclose

/-- A printable text holds no control character. -/
theorem AllPrintable.le_of_mem_utf16 {text : String} (h : AllPrintable text) {u : UInt16}
    (hu : u ∈ utf16 text) : 0x20 ≤ u.toNat := by
  obtain ⟨c, hc, hu⟩ := List.mem_flatMap.mp hu
  have hlow : 0x20 ≤ c.toNat := (h c hc).1
  have hhigh : c.toNat ≤ 0x7e := (h c hc).2
  rw [utf16Units, if_pos (by omega), List.mem_singleton] at hu
  have hvalue : u.toNat = c.toNat := hu ▸ UInt16.toNat_ofNat_of_lt' (by simp [UInt16.size]; omega)
  omega

/-! ### Reading what has no escapes -/

/-- A unit that stands for itself in a string. -/
def IsBare (u : UInt16) : Prop := u ≠ unit '"' ∧ u ≠ unit '\\' ∧ 0x20 ≤ u.toNat

/-- A string without escapes. -/
def bareString (units : List UInt16) : List UInt16 := unit '"' :: (units ++ [unit '"'])

/-- The fields of an object, with strings without escapes. -/
def bareFields (fields : List (List UInt16 × List UInt16)) : List UInt16 :=
  [unit ','].intercalate (fields.map fun field => bareString field.1 ++ unit ':' :: bareString field.2)

theorem bareFields_cons_cons (field next : List UInt16 × List UInt16) (fields : List (List UInt16 × List UInt16)) :
    bareFields (field :: next :: fields) =
      bareString field.1 ++ unit ':' :: bareString field.2 ++ unit ',' :: bareFields (next :: fields) := by
  rw [bareFields, List.map_cons, List.map_cons, List.intercalate_cons_cons, List.append_assoc]
  rfl

/-- An object with such fields. -/
def bareObject (fields : List (List UInt16 × List UInt16)) : List UInt16 :=
  unit '{' :: (bareFields fields ++ [unit '}'])

/-- Units that stand for themselves are read up to the quote behind them. -/
theorem readString_bare {units : List UInt16} (hunits : ∀ u ∈ units, IsBare u) :
    readString (units ++ unit '"' :: rest) = some (units, rest) := by
  induction units with
  | nil =>
    rw [List.nil_append, readString.eq_def]
    rfl
  | cons u units ih =>
    obtain ⟨hquote, hbackslash, hprintable⟩ := hunits u List.mem_cons_self
    rw [List.cons_append, readString_plain hquote hbackslash (by omega),
      ih fun v hv => hunits v (List.mem_cons_of_mem u hv)]
    rfl

/-- A string is read back. -/
theorem readValue_bareString (depth : ℕ) {units : List UInt16} (hunits : ∀ u ∈ units, IsBare u) :
    readValue (depth + 1) (bareString units ++ rest) = some (.string units, rest) := by
  have hquote : token '"' (bareString units ++ rest) = some (units ++ unit '"' :: rest) := by
    rw [bareString, List.cons_append, List.append_assoc, token_self rfl]
    rfl
  rw [readValue, hquote]
  simp only [readString_bare hunits]
  rfl

/-- A field is read, up to what separates it from the next one. -/
theorem readFields_bareField (depth count : ℕ) {field : List UInt16 × List UInt16}
    (hname : ∀ u ∈ field.1, IsBare u) (hvalue : ∀ u ∈ field.2, IsBare u) :
    readFields (readValue (depth + 1)) (count + 1) (bareString field.1 ++ unit ':' :: bareString field.2 ++ rest) =
      match token ',' rest with
      | some rest => (readFields (readValue (depth + 1)) count rest).map fun (more, after) =>
        ((field.1, .string field.2) :: more, after)
      | none => (token '}' rest).map fun after => ([(field.1, .string field.2)], after) := by
  have hquote : token '"' (bareString field.1 ++ unit ':' :: bareString field.2 ++ rest) =
      some (field.1 ++ unit '"' :: (unit ':' :: (bareString field.2 ++ rest))) := by
    simp only [bareString, List.cons_append, List.append_assoc, List.nil_append]
    exact token_self rfl
  have hcolon : token ':' (unit ':' :: (bareString field.2 ++ rest)) = some (bareString field.2 ++ rest) :=
    token_self rfl
  rw [readFields, hquote]
  simp only [Option.bind_eq_bind, Option.bind_some, readString_bare hname, hcolon, readValue_bareString depth hvalue]
  cases token ',' rest with
  | none =>
    dsimp only
    cases token '}' rest <;> rfl
  | some rest =>
    dsimp only
    cases readFields (readValue (depth + 1)) count rest <;> rfl

/-- Every field is read, and the brace behind them. -/
theorem readFields_bare (depth : ℕ) {fields : List (List UInt16 × List UInt16)} (hne : fields ≠ [])
    (hfields : ∀ field ∈ fields, (∀ u ∈ field.1, IsBare u) ∧ ∀ u ∈ field.2, IsBare u) {count : ℕ}
    (hcount : fields.length ≤ count) :
    readFields (readValue (depth + 1)) count (bareFields fields ++ [unit '}']) =
      some (fields.map fun field => (field.1, .string field.2), []) := by
  have hcomma (rest : List UInt16) : token ',' (unit ',' :: rest) = some rest := token_self rfl
  have hbrace : token '}' [unit '}'] = some [] := token_self rfl
  have hnone : token ',' [unit '}'] = none := token_ne rfl (by decide)
  induction fields generalizing count with
  | nil => exact absurd rfl hne
  | cons field fields ih =>
    obtain ⟨hname, hvalue⟩ := hfields field List.mem_cons_self
    obtain ⟨count, rfl⟩ : ∃ fewer, count = fewer + 1 := Nat.exists_eq_add_one.mpr (by simp at hcount; omega)
    cases fields with
    | nil =>
      rw [bareFields, List.map_singleton, List.intercalate_singleton, readFields_bareField depth count hname hvalue,
        hnone]
      simp only [hbrace]
      rfl
    | cons next fields =>
      have hmore := ih (List.cons_ne_nil _ _) (fun f hf => hfields f (List.mem_cons_of_mem field hf))
        (Nat.le_of_succ_le_succ hcount)
      rw [bareFields_cons_cons, List.append_assoc, readFields_bareField depth count hname hvalue, List.cons_append,
        hcomma]
      simp only [hmore]
      rfl

theorem length_le_length_bareFields (fields : List (List UInt16 × List UInt16)) :
    fields.length ≤ (bareFields fields).length := by
  induction fields with
  | nil => exact Nat.zero_le _
  | cons field fields ih =>
    cases fields with
    | nil =>
      rw [bareFields, List.map_singleton, List.intercalate_singleton, bareString]
      exact Nat.le_add_left 1 _
    | cons next fields =>
      rw [bareFields_cons_cons]
      simp only [List.length_append, List.length_cons] at ih ⊢
      omega

/-- `JSON.parse` reads an object without escapes. -/
theorem parse_bareObject {fields : List (List UInt16 × List UInt16)}
    (hfields : ∀ field ∈ fields, (∀ u ∈ field.1, IsBare u) ∧ ∀ u ∈ field.2, IsBare u) :
    parse (bareObject fields) = some (.object (fields.map fun field => (field.1, .string field.2))) := by
  have hquote (body : List UInt16) : token '"' (unit '{' :: body) = none := token_ne rfl (by decide)
  have hopen (body : List UInt16) : token '{' (unit '{' :: body) = some body := token_self rfl
  have hread : readValue (bareObject fields).length (bareObject fields) =
      some (.object (fields.map fun field => (field.1, .string field.2)), []) := by
    cases fields with
    | nil => rfl
    | cons field more =>
      have hclose : token '}' (bareFields (field :: more) ++ [unit '}']) = none := by
        obtain ⟨rest, hstart⟩ : ∃ rest, bareFields (field :: more) = unit '"' :: rest := by
          cases more with
          | nil => exact ⟨_, rfl⟩
          | cons next more => exact ⟨_, rfl⟩
        rw [hstart, List.cons_append]
        exact token_ne rfl (by decide)
      obtain ⟨depth, hdepth⟩ : ∃ depth, (bareFields (field :: more)).length = depth + 1 :=
        Nat.exists_eq_add_one.mpr (Nat.lt_of_lt_of_le Nat.zero_lt_one
          (Nat.le_trans (by simp) (length_le_length_bareFields (field :: more))))
      have hcount : (field :: more).length ≤ (bareFields (field :: more) ++ [unit '}']).length := by
        rw [List.length_append]
        exact Nat.le_add_right_of_le (length_le_length_bareFields _)
      have hbody := readFields_bare (depth + 1) (List.cons_ne_nil field more) hfields hcount
      have hlength : (bareObject (field :: more)).length = depth + 1 + 1 + 1 := by
        rw [bareObject, List.length_cons, List.length_append, hdepth]
        rfl
      rw [hlength, bareObject, readValue, hquote, hopen]
      simp only [hclose, hbody]
      rfl
  rw [parse, hread]
  rfl

/-! ### Nothing that is read is longer than its text -/

section Lengths

/-- The texts in a value, one level deep, are no longer than this. -/
def Value.TextsWithin (n : ℕ) : Value → Prop
  | .string text => text.length ≤ n
  | .object fields => ∀ field ∈ fields, ∀ text, field.2 = .string text → text.length ≤ n
  | _ => True

/-- What is read is within the text, and what follows is no longer than the text. -/
def Reads (read : List UInt16 → Option (Value × List UInt16)) : Prop :=
  ∀ text value after, read text = some (value, after) → value.TextsWithin text.length ∧ after.length ≤ text.length

variable {text after : List UInt16}

/-- A character of the syntax is taken away. -/
theorem length_token {c : Char} (h : token c text = some after) : after.length < text.length := by
  have hle := (@List.dropWhile_sublist _ text isBlank).length_le
  cases hdrop : text.dropWhile isBlank with
  | nil => simp [token, hdrop] at h
  | cons u rest =>
    simp only [token, hdrop, Option.ite_none_right_eq_some, Option.some.injEq] at h
    obtain ⟨-, rfl⟩ := h
    rw [hdrop, List.length_cons] at hle
    omega

/-- A string and what follows it, with its closing quote, are no longer than the text. -/
theorem length_readString {string : List UInt16} (h : readString text = some (string, after)) :
    string.length + after.length < text.length := by
  have hquote : unit '\\' ≠ unit '"' := by decide
  induction text using readString.induct generalizing string after with
  | case1 => simp [readString] at h
  | case2 rest =>
    rw [readString.eq_def] at h
    simp only [if_true, Option.some.injEq, Prod.mk.injEq] at h
    obtain ⟨rfl, rfl⟩ := h
    simp
  | case3 => simp [readString, hquote] at h
  | case4 a b c d rest _ ih =>
    rw [readString.eq_def] at h
    simp only [if_neg hquote, if_true, Option.bind_eq_bind, Option.bind_eq_some_iff, Option.pure_def,
      Option.some.injEq, Prod.mk.injEq, Prod.exists] at h
    obtain ⟨first, -, more, after', hmore, rfl, rfl⟩ := h
    have hlength := ih hmore
    simp only [List.length_cons]
    omega
  | case5 rest hshort _ =>
    rw [readString.eq_def] at h
    simp [hquote] at h
  | case6 e rest he _ ih =>
    rw [readString.eq_def] at h
    simp only [if_neg hquote, if_true, if_neg he, Option.bind_eq_bind, Option.bind_eq_some_iff, Option.pure_def,
      Option.some.injEq, Prod.mk.injEq, Prod.exists] at h
    obtain ⟨first, -, more, after', hmore, rfl, rfl⟩ := h
    have hlength := ih hmore
    simp only [List.length_cons]
    omega
  | case7 e rest hq hb hcontrol =>
    rw [readString.eq_def] at h
    simp [hq, hb, hcontrol] at h
  | case8 e rest hq hb hplain ih =>
    rw [readString_plain hq hb hplain, before, Option.map_eq_some_iff] at h
    obtain ⟨⟨more, after'⟩, hmore, heq⟩ := h
    obtain ⟨rfl, rfl⟩ := Prod.mk.inj heq
    have hlength := ih hmore
    simp only [List.length_append, List.length_cons, List.length_nil]
    omega

/-- Digits take from the text what they are. -/
theorem length_skipDigits (h : skipDigits text = some after) : after.length ≤ text.length := by
  unfold skipDigits at h
  split at h
  · obtain rfl := Option.some.inj h
    exact (List.dropWhile_sublist _).length_le
  · cases h

/-- So do the marks of a number. -/
theorem length_skipOneOf (characters : List Char) (text : List UInt16) :
    (skipOneOf characters text).length ≤ text.length := by
  cases text with
  | nil => exact Nat.le_refl _
  | cons u rest =>
    rw [skipOneOf]
    split
    · exact Nat.le_succ _
    · exact Nat.le_refl _

/-- So does its integer part. -/
theorem length_skipInteger (h : skipInteger text = some after) : after.length ≤ text.length := by
  cases text with
  | nil => cases h
  | cons u rest =>
    rw [skipInteger] at h
    split at h
    · obtain rfl := Option.some.inj h
      exact Nat.le_succ _
    · exact length_skipDigits h

/-- So do its fraction and its exponent. -/
theorem length_skipPart {marks signs : List Char} (h : skipPart marks signs text = some after) :
    after.length ≤ text.length := by
  cases text with
  | nil =>
    obtain rfl := Option.some.inj h
    exact Nat.le_refl _
  | cons u rest =>
    rw [skipPart] at h
    split at h
    · exact Nat.le_trans (length_skipDigits h) (Nat.le_succ_of_le (length_skipOneOf signs rest))
    · obtain rfl := Option.some.inj h
      exact Nat.le_refl _

/-- A bound on the texts of a value may be raised. -/
theorem Value.TextsWithin.mono {value : Value} {m n : ℕ} (h : value.TextsWithin m) (hle : m ≤ n) :
    value.TextsWithin n := by
  cases value with
  | string text => exact Nat.le_trans h hle
  | object fields => exact fun field hfield text htext => Nat.le_trans (h field hfield text htext) hle
  | null => exact trivial
  | bool _ => exact trivial
  | number _ => exact trivial
  | array _ => exact trivial

/-- One of two ways of reading. -/
theorem Reads.or {first second : List UInt16 → Option (Value × List UInt16)} (hfirst : Reads first)
    (hsecond : Reads second) : Reads fun text => (first text).or (second text) := by
  intro text value after h
  rcases Option.or_eq_some_iff.mp h with h | ⟨-, h⟩
  · exact hfirst text value after h
  · exact hsecond text value after h

/-- A number is read like this. -/
theorem reads_readNumber : Reads readNumber := by
  intro text value after h
  unfold readNumber at h
  simp only [Option.bind_eq_bind, Option.bind_eq_some_iff, Option.pure_def, Option.some.injEq, Prod.mk.injEq] at h
  obtain ⟨first, hfirst, second, hsecond, third, hthird, rfl, rfl⟩ := h
  have hsign := length_skipOneOf ['-'] text
  have hinteger := length_skipInteger hfirst
  have hfraction := length_skipPart hsecond
  have hexponent := length_skipPart hthird
  exact ⟨trivial, by omega⟩

/-- So is a word for a value without texts. -/
theorem reads_readWord (word : String) {value : Value} (hvalue : ∀ n, value.TextsWithin n) :
    Reads (readWord word value) := by
  intro text value' after h
  unfold readWord at h
  split at h
  · obtain ⟨rfl, rfl⟩ := Prod.mk.inj (Option.some.inj h)
    exact ⟨hvalue _, by simp⟩
  · cases h

variable {read : List UInt16 → Option (Value × List UInt16)}

/-- What follows the items of an array is no longer than the text. -/
theorem length_readItems (hread : Reads read) {count : ℕ} {items : List Value}
    (h : readItems read count text = some (items, after)) : after.length ≤ text.length := by
  induction count generalizing text items after with
  | zero => cases h
  | succ count ih =>
    rw [readItems] at h
    simp only [Option.bind_eq_bind, Option.bind_eq_some_iff, Prod.exists] at h
    obtain ⟨first, rest, hfirst, h⟩ := h
    have hrest := (hread _ _ _ hfirst).2
    cases hcomma : token ',' rest with
    | some more =>
      simp only [hcomma, Option.bind_eq_some_iff, Option.pure_def, Option.some.injEq, Prod.mk.injEq, Prod.exists] at h
      obtain ⟨others, after', hothers, -, rfl⟩ := h
      have hmore := length_token hcomma
      have hafter := ih hothers
      omega
    | none =>
      simp only [hcomma, Option.bind_eq_some_iff, Option.pure_def, Option.some.injEq, Prod.mk.injEq] at h
      obtain ⟨after', hclose, -, rfl⟩ := h
      have hafter := length_token hclose
      omega

/-- The texts of an object's fields, and what follows them, are no longer than the text. -/
theorem length_readFields (hread : Reads read) {count : ℕ} {fields : List (List UInt16 × Value)}
    (h : readFields read count text = some (fields, after)) :
    (∀ field ∈ fields, ∀ string, field.2 = .string string → string.length ≤ text.length) ∧
      after.length ≤ text.length := by
  induction count generalizing text fields after with
  | zero => cases h
  | succ count ih =>
    rw [readFields] at h
    simp only [Option.bind_eq_bind, Option.bind_eq_some_iff, Prod.exists] at h
    obtain ⟨opened, hopen, name, named, hname, behind, hcolon, first, rest, hfirst, h⟩ := h
    have hshorter := length_token hopen
    have hshorter' := length_readString hname
    have hshorter'' := length_token hcolon
    obtain ⟨htexts, hrest⟩ := hread _ _ _ hfirst
    have hhead : ∀ string, first = .string string → string.length ≤ text.length := by
      rintro string rfl
      exact Nat.le_trans htexts (by omega)
    cases hcomma : token ',' rest with
    | some more =>
      simp only [hcomma, Option.bind_eq_some_iff, Option.pure_def, Option.some.injEq, Prod.mk.injEq, Prod.exists] at h
      obtain ⟨others, after', hothers, rfl, rfl⟩ := h
      have hmore := length_token hcomma
      obtain ⟨hfields, hafter⟩ := ih hothers
      refine ⟨fun field hfield string hstring => ?_, by omega⟩
      rcases List.mem_cons.mp hfield with rfl | hfield
      · exact hhead string hstring
      · exact Nat.le_trans (hfields field hfield string hstring) (by omega)
    | none =>
      simp only [hcomma, Option.bind_eq_some_iff, Option.pure_def, Option.some.injEq, Prod.mk.injEq] at h
      obtain ⟨after', hclose, rfl, rfl⟩ := h
      have hmore := length_token hclose
      refine ⟨fun field hfield string hstring => ?_, by omega⟩
      obtain rfl := List.mem_singleton.mp hfield
      exact hhead string hstring

/-- Every value is read like this. -/
theorem reads_readValue (depth : ℕ) : Reads (readValue depth) := by
  induction depth with
  | zero =>
    intro text value after h
    cases h
  | succ depth ih =>
    intro text value after h
    rw [readValue] at h
    split at h
    case h_1 rest _ _ hopen =>
      simp only [Option.bind_eq_bind, Option.bind_eq_some_iff, Option.pure_def, Option.some.injEq, Prod.mk.injEq,
        Prod.exists] at h
      obtain ⟨string, after', hstring, rfl, rfl⟩ := h
      have hquote := length_token hopen
      have hlength := length_readString hstring
      exact ⟨show string.length ≤ text.length by omega, by omega⟩
    case h_2 rest hopen _ =>
      have hbrace := length_token hopen
      cases hclose : token '}' rest with
      | some after' =>
        rw [hclose] at h
        obtain ⟨rfl, rfl⟩ := Prod.mk.inj (Option.some.inj h)
        have hlength := length_token hclose
        exact ⟨fun field hfield => absurd hfield List.not_mem_nil, by omega⟩
      | none =>
        simp only [hclose, Option.bind_eq_bind, Option.bind_eq_some_iff, Option.pure_def, Option.some.injEq,
          Prod.mk.injEq, Prod.exists] at h
        obtain ⟨fields, after', hfields, rfl, rfl⟩ := h
        obtain ⟨htexts, hafter⟩ := length_readFields ih hfields
        exact ⟨fun field hfield string hstring => Nat.le_trans (htexts field hfield string hstring) (by omega),
          by omega⟩
    case h_3 rest hopen _ _ =>
      have hbracket := length_token hopen
      cases hclose : token ']' rest with
      | some after' =>
        rw [hclose] at h
        obtain ⟨rfl, rfl⟩ := Prod.mk.inj (Option.some.inj h)
        have hlength := length_token hclose
        exact ⟨trivial, by omega⟩
      | none =>
        simp only [hclose, Option.bind_eq_bind, Option.bind_eq_some_iff, Option.pure_def, Option.some.injEq,
          Prod.mk.injEq, Prod.exists] at h
        obtain ⟨items, after', hitems, rfl, rfl⟩ := h
        have hlength := length_readItems ih hitems
        exact ⟨trivial, by omega⟩
    case h_4 =>
      have hnull : Reads (readWord "null" .null) := reads_readWord _ fun _ => trivial
      have htrue : Reads (readWord "true" (.bool true)) := reads_readWord _ fun _ => trivial
      have hfalse : Reads (readWord "false" (.bool false)) := reads_readWord _ fun _ => trivial
      obtain ⟨htexts, hafter⟩ := hnull.or (htrue.or (hfalse.or reads_readNumber)) _ _ _ h
      have hblanks := (@List.dropWhile_sublist _ text isBlank).length_le
      exact ⟨htexts.mono hblanks, Nat.le_trans hafter hblanks⟩

/-- A text in a parsed value is no longer than the parsed text. -/
theorem textsWithin_of_parse {value : Value} (h : parse text = some value) : value.TextsWithin text.length := by
  cases hread : readValue text.length text with
  | none => simp [parse, hread] at h
  | some out =>
    simp only [parse, hread, Option.ite_none_right_eq_some, Option.some.injEq] at h
    obtain ⟨-, rfl⟩ := h
    exact (reads_readValue _ _ _ _ hread).1

end Lengths
end JsonText
