import Agentops.Foundations.TextDecoder
import Mathlib.Data.List.TakeWhile

/-!
# Pairs in a query

The format `application/x-www-form-urlencoded`: pairs of names and values are written in one row of ASCII bytes, and
are read from it again. Neither a separator of the format nor a byte that a browser would escape in the query of a URL
is written for a byte of a name or a value, so pairs are read as they were written, also behind a URL. A text is in
UTF-8, and is read into UTF-16 units.
-/

namespace FormUrlencoded

open TextDecoder (utf8 utf16 utf16Units between decode decode_utf8_eq)

/-- The bytes that stand for themselves. -/
def isPlain (b : UInt8) : Bool :=
  (0x30 ≤ b ∧ b ≤ 0x39) ∨ (0x41 ≤ b ∧ b ≤ 0x5a) ∨ (0x61 ≤ b ∧ b ≤ 0x7a) ∨ b ∈ [0x2a, 0x2d, 0x2e, 0x5f]

/-- The capital hexadecimal digit of a number below sixteen. -/
def hexDigit (n : ℕ) : UInt8 := if n < 10 then UInt8.ofNat (0x30 + n) else UInt8.ofNat (0x37 + n)

/-- The value of a hexadecimal digit. -/
def hexValue? (b : UInt8) : Option ℕ :=
  let n := b.toNat
  if 0x30 ≤ n ∧ n ≤ 0x39 then some (n - 0x30)
  else if 0x41 ≤ n ∧ n ≤ 0x46 then some (n - 0x37)
  else if 0x61 ≤ n ∧ n ≤ 0x66 then some (n - 0x57)
  else none

/-- The three bytes that escape a byte. -/
def escape (b : UInt8) : List UInt8 := [0x25, hexDigit (b.toNat / 16), hexDigit (b.toNat % 16)]

/-- A space is a plus sign. -/
def writeByte (b : UInt8) : List UInt8 := if b = 0x20 then [0x2b] else if isPlain b then [b] else escape b

/-- A name or a value. -/
def write (bs : List UInt8) : List UInt8 := bs.flatMap writeByte

/-- An escape that is none stays as it is. -/
def percentDecode : List UInt8 → List UInt8
  | b :: c :: d :: rest =>
    if b = 0x25 then
      match hexValue? c, hexValue? d with
      | some high, some low => UInt8.ofNat (high * 16 + low) :: percentDecode rest
      | _, _ => b :: percentDecode (c :: d :: rest)
    else b :: percentDecode (c :: d :: rest)
  | b :: rest => b :: percentDecode rest
  | [] => []

/-- A plus is read as a blank. -/
def plusToSpace (b : UInt8) : UInt8 := if b = 0x2b then 0x20 else b

/-- A name or a value is read. -/
def read (text : List UInt8) : List UInt8 := percentDecode (text.map plusToSpace)

/-- A name and its value. -/
def writePair (pair : List UInt8 × List UInt8) : List UInt8 := write pair.1 ++ 0x3d :: write pair.2

/-- A value without an equals sign before it is empty. -/
def readPair (text : List UInt8) : List UInt8 × List UInt8 :=
  (read (text.takeWhile (· ≠ 0x3d)), read ((text.dropWhile (· ≠ 0x3d)).drop 1))

/-- The serializer. -/
def serialize (pairs : List (List UInt8 × List UInt8)) : List UInt8 := [0x26].intercalate (pairs.map writePair)

/-- The parser. -/
def parse (text : List UInt8) : List (List UInt8 × List UInt8) := ((text.splitOn 0x26).filter (· ≠ [])).map readPair

section Bytes

variable {b : UInt8} {bs rest : List UInt8}

/-- What holds of all numbers below 256 holds of all bytes. -/
theorem forall_byte {p : UInt8 → Prop} (h : ∀ n < 256, p (UInt8.ofNat n)) (b : UInt8) : p b := by
  have hb := h b.toNat b.toNat_lt
  rwa [UInt8.ofNat_toNat] at hb

/-- A digit that was written has the value it was written for. -/
theorem hexValue?_hexDigit {n : ℕ} (hn : n < 16) : hexValue? (hexDigit n) = some n := by
  have hall : ∀ m < 16, hexValue? (hexDigit m) = some m := by decide
  exact hall n hn

/-- Hexadecimal digits are written as they are. -/
theorem isPlain_hexDigit {n : ℕ} (hn : n < 16) : isPlain (hexDigit n) = true := by
  have hall : ∀ m < 16, isPlain (hexDigit m) = true := by decide
  exact hall n hn

/-- No separator and no sign of the format is plain. -/
theorem ne_of_isPlain (h : isPlain b = true) : b ≠ 0x20 ∧ b ≠ 0x23 ∧ b ≠ 0x25 ∧ b ≠ 0x26 ∧ b ≠ 0x2b ∧ b ≠ 0x3d := by
  refine ⟨?_, ?_, ?_, ?_, ?_, ?_⟩ <;> rintro rfl <;> exact absurd h (by decide)

/-- The bytes that are written for a byte. -/
theorem mem_writeByte {c : UInt8} (hc : c ∈ writeByte b) : isPlain c = true ∨ c = 0x2b ∨ c = 0x25 := by
  have hb := b.toNat_lt
  unfold writeByte at hc
  by_cases hblank : b = 0x20
  · rw [if_pos hblank] at hc
    exact .inr (.inl (List.mem_singleton.mp hc))
  · rw [if_neg hblank] at hc
    by_cases hplain : isPlain b = true
    · rw [if_pos hplain] at hc
      rw [List.mem_singleton.mp hc]
      exact .inl hplain
    · rw [if_neg hplain] at hc
      simp only [escape, List.mem_cons, List.not_mem_nil, or_false] at hc
      rcases hc with rfl | rfl | rfl
      · exact .inr (.inr rfl)
      · exact .inl (isPlain_hexDigit (by omega))
      · exact .inl (isPlain_hexDigit (by omega))

/-- What is no percent sign stands for itself. -/
theorem percentDecode_cons (h : b ≠ 0x25) : percentDecode (b :: rest) = b :: percentDecode rest := by
  match rest with
  | [] => rfl
  | [_] => rfl
  | _ :: _ :: _ => rw [percentDecode, if_neg h]

/-- A plain byte is no plus. -/
theorem plusToSpace_of_isPlain (h : isPlain b = true) : plusToSpace b = b := if_neg (ne_of_isPlain h).2.2.2.2.1

/-- What is written for a byte is read as the byte. -/
theorem read_writeByte : read (writeByte b ++ rest) = b :: read rest := by
  have hb := b.toNat_lt
  unfold writeByte
  split_ifs with hspace hplain
  · subst hspace
    exact percentDecode_cons (by decide)
  · rw [read, List.singleton_append, List.map_cons, plusToSpace_of_isPlain hplain]
    exact percentDecode_cons (ne_of_isPlain hplain).2.2.1
  · have hhigh : b.toNat / 16 < 16 := by omega
    have hlow : b.toNat % 16 < 16 := by omega
    have hvalue : b.toNat / 16 * 16 + b.toNat % 16 = b.toNat := by omega
    have hsign : plusToSpace 0x25 = 0x25 := rfl
    simp only [escape, read, List.cons_append, List.nil_append, List.map_cons, hsign,
      plusToSpace_of_isPlain (isPlain_hexDigit hhigh), plusToSpace_of_isPlain (isPlain_hexDigit hlow)]
    rw [percentDecode, if_pos rfl, hexValue?_hexDigit hhigh, hexValue?_hexDigit hlow]
    simp only [hvalue, UInt8.ofNat_toNat]

/-- A name or a value is read as it was written. -/
theorem read_write : read (write bs) = bs := by
  have hmore : ∀ rest, read (write bs ++ rest) = bs ++ read rest := by
    induction bs with
    | nil => exact fun rest => rfl
    | cons b bs ih =>
      intro rest
      rw [write, List.flatMap_cons, List.append_assoc, read_writeByte, ← write, ih, List.cons_append]
  have hall := hmore []
  rwa [List.append_nil, show read [] = [] from rfl, List.append_nil] at hall

/-- The bytes of a name or a value. -/
theorem mem_write {c : UInt8} (hc : c ∈ write bs) : isPlain c = true ∨ c = 0x2b ∨ c = 0x25 := by
  obtain ⟨b, -, hb⟩ := List.mem_flatMap.mp hc
  exact mem_writeByte hb

/-- What is written has no separators. -/
theorem ne_of_mem_write {c : UInt8} (hc : c ∈ write bs) : c ≠ 0x26 ∧ c ≠ 0x3d := by
  rcases mem_write hc with hplain | rfl | rfl
  · exact ⟨(ne_of_isPlain hplain).2.2.2.1, (ne_of_isPlain hplain).2.2.2.2.2⟩
  · decide
  · decide

end Bytes

section Pairs

variable {pairs : List (List UInt8 × List UInt8)} {pair : List UInt8 × List UInt8}

/-- A pair that was written is read. -/
theorem readPair_writePair : readPair (writePair pair) = pair := by
  have hname : ∀ c ∈ write pair.1, decide (c ≠ 0x3d) = true := fun c hc => decide_eq_true (ne_of_mem_write hc).2
  have htake : (writePair pair).takeWhile (· ≠ 0x3d) = write pair.1 := by
    rw [writePair, List.takeWhile_append_of_pos hname]
    simp
  have hdrop : (writePair pair).dropWhile (· ≠ 0x3d) = 0x3d :: write pair.2 := by
    rw [writePair, List.dropWhile_append_of_pos hname]
    simp
  rw [readPair, htake, hdrop, List.drop_one, List.tail_cons, read_write, read_write]

/-- What a written pair consists of. -/
theorem mem_writePair {c : UInt8} (hc : c ∈ writePair pair) :
    isPlain c = true ∨ c = 0x2b ∨ c = 0x25 ∨ c = 0x3d := by
  rcases List.mem_append.mp hc with hname | hvalue
  · exact (mem_write hname).imp_right (Or.imp_right Or.inl)
  · rcases List.mem_cons.mp hvalue with hequals | hvalue
    · exact .inr (.inr (.inr hequals))
    · exact (mem_write hvalue).imp_right (Or.imp_right Or.inl)

/-- Pairs are read as they were written. -/
theorem parse_serialize : parse (serialize pairs) = pairs := by
  by_cases hnil : pairs = []
  · subst hnil
    rfl
  · have hseparated : ∀ text ∈ pairs.map writePair, 0x26 ∉ text := by
      intro text htext hmem
      obtain ⟨pair, -, rfl⟩ := List.mem_map.mp htext
      rcases mem_writePair hmem with hplain | h | h | h
      · exact (ne_of_isPlain hplain).2.2.2.1 rfl
      · exact absurd h (by decide)
      · exact absurd h (by decide)
      · exact absurd h (by decide)
    have hsome : ∀ text ∈ pairs.map writePair, decide (text ≠ []) = true := by
      intro text htext
      obtain ⟨pair, -, rfl⟩ := List.mem_map.mp htext
      simp [writePair]
    have hsplit := List.splitOn_intercalate 0x26 hseparated (by simpa using hnil)
    rw [parse, serialize, hsplit, List.filter_eq_self.mpr hsome, List.map_map]
    exact List.map_id'' (fun pair => readPair_writePair) pairs

end Pairs

/-! ### Behind a URL -/

section Queries

/-- The query in the text of a URL, without a fragment behind it. -/
def query (url : List UInt8) : List UInt8 := ((url.takeWhile (· ≠ 0x23)).dropWhile (· ≠ 0x3f)).drop 1

/-- The bytes that a browser escapes in a query. -/
def isEscapedInQuery (b : UInt8) : Bool := b ≤ 0x20 ∨ 0x7e < b ∨ b ∈ [0x22, 0x23, 0x27, 0x3c, 0x3e]

/-- The query that is sent for a URL. -/
def sentQuery (url : List UInt8) : List UInt8 :=
  (query url).flatMap fun b => if isEscapedInQuery b then escape b else [b]

/-- Plain bytes need no escape in a query. -/
theorem not_isEscapedInQuery_of_isPlain {b : UInt8} (h : isPlain b = true) : isEscapedInQuery b = false := by
  revert h
  exact forall_byte (p := fun b => isPlain b = true → isEscapedInQuery b = false) (by decide +kernel) b

/-- None of the bytes of pairs is escaped. -/
theorem not_isEscapedInQuery (pairs : List (List UInt8 × List UInt8)) :
    ∀ c ∈ serialize pairs, isEscapedInQuery c = false := by
  intro c hc
  have hpair : ∀ pair, c ∈ writePair pair → isEscapedInQuery c = false := by
    intro pair hpair
    rcases mem_writePair hpair with hplain | rfl | rfl | rfl
    · exact not_isEscapedInQuery_of_isPlain hplain
    · rfl
    · rfl
    · rfl
  rw [serialize] at hc
  induction pairs with
  | nil => cases hc
  | cons pair rest ih =>
    cases rest with
    | nil =>
      rw [List.map_singleton, List.intercalate_singleton] at hc
      exact hpair pair hc
    | cons next rest =>
      rw [List.map_cons, List.map_cons, List.intercalate_cons_cons, ← List.map_cons] at hc
      rcases List.mem_append.mp hc with hfirst | hmore
      · rcases List.mem_append.mp hfirst with hfirst | hseparator
        · exact hpair pair hfirst
        · rw [List.mem_singleton.mp hseparator]
          rfl
      · exact ih hmore

/-- Pairs behind a URL are sent as they were written. -/
theorem sentQuery_serialize {address : List UInt8} (haddress : 0x23 ∉ address ∧ 0x3f ∉ address)
    (pairs : List (List UInt8 × List UInt8)) : sentQuery (address ++ 0x3f :: serialize pairs) = serialize pairs := by
  have hkept := not_isEscapedInQuery pairs
  generalize serialize pairs = text at hkept ⊢
  have hfragment : (address ++ 0x3f :: text).takeWhile (· ≠ 0x23) = address ++ 0x3f :: text := by
    rw [List.takeWhile_eq_self_iff]
    intro c hc
    apply decide_eq_true
    rintro rfl
    rcases List.mem_append.mp hc with hin | hbehind
    · exact haddress.1 hin
    · rcases List.mem_cons.mp hbehind with heq | hin
      · exact absurd heq (by decide)
      · exact absurd (hkept _ hin) (by decide)
  have hbefore : ∀ c ∈ address, decide (c ≠ 0x3f) = true := by
    intro c hc
    apply decide_eq_true
    rintro rfl
    exact haddress.2 hc
  have hquery : query (address ++ 0x3f :: text) = text := by
    rw [query, hfragment, List.dropWhile_append_of_pos hbefore]
    simp
  rw [sentQuery, hquery]
  clear hfragment hquery
  induction text with
  | nil => rfl
  | cons c text ih =>
    rw [List.flatMap_cons, ih fun d hd => hkept d (List.mem_cons_of_mem c hd), hkept c List.mem_cons_self]
    rfl

end Queries

/-! ### Texts -/

section Texts

/-- A whole text; the part of a character that ends it is replaced. -/
def decodeText (bs : List UInt8) : List UInt16 :=
  (decode between bs).2 ++ if (decode between bs).1.bytesNeeded = 0 then [] else [0xfffd]

/-- The bytes of a text are decoded to its units. -/
theorem decodeText_utf8 (text : String) : decodeText (utf8 text) = utf16 text := by
  rw [decodeText, decode_utf8_eq]
  exact List.append_nil _

/-- The pairs of a row of bytes, as texts. -/
def parseTexts (text : List UInt8) : List (List UInt16 × List UInt16) :=
  (parse text).map fun pair => (decodeText pair.1, decodeText pair.2)

/-- Pairs of texts. -/
def serializeTexts (pairs : List (String × String)) : List UInt8 :=
  serialize (pairs.map fun pair => (utf8 pair.1, utf8 pair.2))

/-- Texts that were serialised are parsed. -/
theorem parseTexts_serializeTexts (pairs : List (String × String)) :
    parseTexts (serializeTexts pairs) = pairs.map fun pair => (utf16 pair.1, utf16 pair.2) := by
  rw [parseTexts, serializeTexts, parse_serialize, List.map_map]
  apply List.map_congr_left
  intro pair _
  simp only [Function.comp_apply, decodeText_utf8]

/-- Texts behind a URL are read as they were written. -/
theorem parseTexts_sentQuery {address : List UInt8} (haddress : 0x23 ∉ address ∧ 0x3f ∉ address)
    (pairs : List (String × String)) : parseTexts (sentQuery (address ++ 0x3f :: serializeTexts pairs)) =
      pairs.map fun pair => (utf16 pair.1, utf16 pair.2) := by
  have hsent : sentQuery (address ++ 0x3f :: serializeTexts pairs) = serializeTexts pairs :=
    sentQuery_serialize haddress _
  rw [hsent, parseTexts_serializeTexts]

end Texts

end FormUrlencoded
