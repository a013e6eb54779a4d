import Mathlib.Data.List.Basic

/-!
# Text in bytes and in 16-bit units

A text is sent in UTF-8 and read into a string of UTF-16 units, as JavaScript's strings are. The bytes
arrive in parts that may end inside a character. The decoder is the one of the Encoding standard: it goes
byte by byte, puts a replacement character in the place of what is no UTF-8, and drops a byte order mark at
the start of the stream.
-/

namespace TextDecoder

/-- A code point in UTF-16. -/
def utf16Units (codePoint : ℕ) : List UInt16 :=
  if codePoint < 0x10000 then [UInt16.ofNat codePoint]
  else
    [UInt16.ofNat (0xd800 + (codePoint - 0x10000) / 0x400),
      UInt16.ofNat (0xdc00 + (codePoint - 0x10000) % 0x400)]

/-- A text in UTF-16. -/
def utf16 (text : String) : List UInt16 := text.toList.flatMap fun c => utf16Units c.toNat

/-- A text in UTF-8. -/
def utf8 (text : String) : List UInt8 := text.toList.flatMap String.utf8EncodeChar

/-- Two texts are encoded one after the other. -/
theorem utf16_append (first second : String) : utf16 (first ++ second) = utf16 first ++ utf16 second := by
  rw [utf16, String.toList_append, List.flatMap_append]
  rfl

theorem utf16Units_ne_nil (codePoint : ℕ) : utf16Units codePoint ≠ [] := by
  unfold utf16Units
  split <;> exact List.cons_ne_nil _ _

/-- Only the empty text has no units. -/
theorem utf16_eq_nil {text : String} : utf16 text = [] ↔ text = "" := by
  rw [utf16, List.flatMap_eq_nil_iff, ← String.toList_eq_nil_iff, List.eq_nil_iff_forall_not_mem]
  exact forall₂_congr fun c _ => iff_false_intro (utf16Units_ne_nil c.toNat)

theorem toNat_unit {m : ℕ} (hm : m < 0x10000) : (UInt16.ofNat m).toNat = m := by
  rw [UInt16.toNat_ofNat']
  exact Nat.mod_eq_of_lt hm

/-- A character is known from its units, whatever comes after them. -/
theorem utf16Units_append_inj {c d : Char} {r s : List UInt16}
    (h : utf16Units c.toNat ++ r = utf16Units d.toNat ++ s) : c = d ∧ r = s := by
  have hc : c.toNat < 0xd800 ∨ 0xdfff < c.toNat ∧ c.toNat < 0x110000 := c.valid
  have hd : d.toNat < 0xd800 ∨ 0xdfff < d.toNat ∧ d.toNat < 0x110000 := d.valid
  have hunit {m n : ℕ} (hm : m < 0x10000) (hn : n < 0x10000) (heq : UInt16.ofNat m = UInt16.ofNat n) : m = n := by
    rw [← toNat_unit hm, heq, toNat_unit hn]
  unfold utf16Units at h
  split_ifs at h with hcsmall hdsmall hdsmall
  · obtain ⟨hfirst, hrest⟩ := List.cons_eq_cons.mp h
    exact ⟨Char.toNat_inj.mp (hunit hcsmall hdsmall hfirst), hrest⟩
  · have hfirst := hunit hcsmall (by omega) (List.cons_eq_cons.mp h).1
    omega
  · have hfirst := hunit (by omega) hdsmall (List.cons_eq_cons.mp h).1
    omega
  · obtain ⟨hfirst, hmore⟩ := List.cons_eq_cons.mp h
    obtain ⟨hsecond, hrest⟩ := List.cons_eq_cons.mp hmore
    have hhigh := hunit (by omega) (by omega) hfirst
    have hlow := hunit (by omega) (by omega) hsecond
    exact ⟨Char.toNat_inj.mp (by omega), hrest⟩

/-- A text is known from its units. -/
theorem utf16_injective : Function.Injective utf16 := by
  have hlist : ∀ cs ds : List Char,
      (cs.flatMap fun c => utf16Units c.toNat) = (ds.flatMap fun c => utf16Units c.toNat) → cs = ds := by
    intro cs
    induction cs with
    | nil =>
      intro ds h
      cases ds with
      | nil => rfl
      | cons d ds => exact absurd (List.append_eq_nil_iff.mp h.symm).1 (utf16Units_ne_nil _)
    | cons c cs ih =>
      intro ds h
      cases ds with
      | nil => exact absurd (List.append_eq_nil_iff.mp h).1 (utf16Units_ne_nil _)
      | cons d ds =>
        rw [List.flatMap_cons, List.flatMap_cons] at h
        obtain ⟨rfl, hrest⟩ := utf16Units_append_inj h
        rw [ih ds hrest]
  intro first second h
  exact String.toList_inj.mp (hlist _ _ h)
/-- What the decoder keeps between two bytes: the part of a character that it has read, how many bytes are
still needed, the bounds of the next one, and whether it has seen the start of the stream. -/
structure State where
  codePoint : ℕ := 0
  bytesNeeded : ℕ := 0
  lowerBoundary : ℕ := 0x80
  upperBoundary : ℕ := 0xbf
  bomSeen : Bool := false
  deriving DecidableEq, Repr

/-- The first byte of a character. -/
def firstByte (s : State) (byte : ℕ) : State × List ℕ :=
  if byte ≤ 0x7f then (s, [byte])
  else if 0xc2 ≤ byte ∧ byte ≤ 0xdf then
    ({ s with codePoint := byte % 0x20, bytesNeeded := 1 }, [])
  else if 0xe0 ≤ byte ∧ byte ≤ 0xef then
    ({ s with
      codePoint := byte % 0x10
      bytesNeeded := 2
      lowerBoundary := if byte = 0xe0 then 0xa0 else 0x80
      upperBoundary := if byte = 0xed then 0x9f else 0xbf }, [])
  else if 0xf0 ≤ byte ∧ byte ≤ 0xf4 then
    ({ s with
      codePoint := byte % 0x8
      bytesNeeded := 3
      lowerBoundary := if byte = 0xf0 then 0x90 else 0x80
      upperBoundary := if byte = 0xf4 then 0x8f else 0xbf }, [])
  else (s, [0xfffd])

/-- A byte, with the code points that it completes. -/
def codePoints (s : State) (byte : ℕ) : State × List ℕ :=
  if s.bytesNeeded = 0 then firstByte s byte
  else if byte < s.lowerBoundary ∨ s.upperBoundary < byte then
    -- The character breaks off and the byte is read again as a first one.
    let (next, points) := firstByte { bomSeen := s.bomSeen } byte
    (next, 0xfffd :: points)
  else
    let codePoint := s.codePoint * 0x40 + byte % 0x40
    if s.bytesNeeded = 1 then ({ bomSeen := s.bomSeen }, [codePoint])
    else
      ({ s with
        codePoint := codePoint
        bytesNeeded := s.bytesNeeded - 1
        lowerBoundary := 0x80
        upperBoundary := 0xbf }, [])

/-- The code points without the byte order mark. -/
def withoutMark (s : State) : List ℕ → State × List ℕ
  | [] => (s, [])
  | codePoint :: rest =>
    ({ s with bomSeen := true },
      if s.bomSeen = false ∧ codePoint = 0xfeff then rest else codePoint :: rest)

/-- A byte, with the units that it brings. -/
def step (s : State) (byte : UInt8) : State × List UInt16 :=
  let (next, points) := codePoints s byte.toNat
  let (next, points) := withoutMark next points
  (next, points.flatMap utf16Units)

/-- `decode` on a part of a stream. -/
def decode (s : State) : List UInt8 → State × List UInt16
  | [] => (s, [])
  | byte :: rest =>
    let (next, units) := step s byte
    let (last, more) := decode next rest
    (last, units ++ more)

/-- Two parts of a stream are decoded as their concatenation. -/
theorem decode_append (s : State) (first second : List UInt8) :
    decode s (first ++ second) =
      ((decode (decode s first).1 second).1,
        (decode s first).2 ++ (decode (decode s first).1 second).2) := by
  induction first generalizing s with
  | nil => rfl
  | cons byte rest ih => simp only [List.cons_append, decode, ih, List.append_assoc]

/-- A text of ASCII characters. -/
def IsAscii (text : String) : Prop := ∀ c ∈ text.toList, c.toNat ≤ 0x7f

instance (text : String) : Decidable (IsAscii text) :=
  List.decidableBAll (fun c : Char => c.toNat ≤ 0x7f) text.toList

/-- Two ASCII texts, one after the other. -/
theorem IsAscii.append {first second : String} (hfirst : IsAscii first) (hsecond : IsAscii second) :
    IsAscii (first ++ second) := by
  intro c hc
  rw [String.toList_append, List.mem_append] at hc
  rcases hc with hc | hc
  · exact hfirst c hc
  · exact hsecond c hc

/-- An ASCII character is one byte. -/
theorem utf8EncodeChar_ascii {c : Char} (hc : c.toNat ≤ 0x7f) :
    ∃ byte : UInt8, String.utf8EncodeChar c = [byte] ∧ byte.toNat = c.toNat := by
  refine ⟨c.val.toUInt8, String.utf8EncodeChar_eq_singleton (Char.utf8Size_eq_one_iff.mpr ?_), ?_⟩
  · exact UInt32.le_iff_toNat_le.mpr hc
  · rw [UInt32.toNat_toUInt8]
    exact Nat.mod_eq_of_lt (by have : c.val.toNat = c.toNat := rfl; omega)

/-- Between two characters, an ASCII character brings its unit. -/
theorem decode_utf8EncodeChar {s : State} (hs : s.bytesNeeded = 0) {c : Char} (hc : c.toNat ≤ 0x7f) :
    decode s (String.utf8EncodeChar c) = ({ s with bomSeen := true }, utf16Units c.toNat) := by
  obtain ⟨byte, hbyte, hvalue⟩ := utf8EncodeChar_ascii hc
  have hmark : ¬ (s.bomSeen = false ∧ c.toNat = 0xfeff) := by omega
  simp [hbyte, decode, step, codePoints, hs, firstByte, hvalue, hc, withoutMark, hmark]

/-- Between two characters, ASCII text is decoded as it is. -/
theorem decode_ascii {s : State} (hs : s.bytesNeeded = 0) {text : String} (htext : IsAscii text) :
    (decode s (utf8 text)).2 = utf16 text := by
  unfold IsAscii at htext
  unfold utf8 utf16
  generalize text.toList = symbols at htext ⊢
  induction symbols generalizing s with
  | nil => rfl
  | cons c rest ih =>
    have hchar := decode_utf8EncodeChar hs (htext c List.mem_cons_self)
    have hrest := ih (s := { s with bomSeen := true }) hs fun d hd => htext d (List.mem_cons_of_mem c hd)
    rw [List.flatMap_cons, List.flatMap_cons, decode_append, hchar, hrest]

/-- Between two characters, once the start of the stream has been seen. -/
def between : State := { bomSeen := true }

section Characters

variable {s : State} {byte : UInt8}

/-- The start of a character of two bytes. -/
theorem step_first_of_two (h : 0xc2 ≤ byte.toNat ∧ byte.toNat ≤ 0xdf) :
    step between byte = ({ between with codePoint := byte.toNat % 0x20, bytesNeeded := 1 }, []) := by
  have hascii : ¬ byte.toNat ≤ 0x7f := by omega
  simp only [step, codePoints, firstByte, between, if_true, if_neg hascii, if_pos h]
  rfl

/-- The start of a character of three bytes. -/
theorem step_first_of_three (h : 0xe0 ≤ byte.toNat ∧ byte.toNat ≤ 0xef) :
    step between byte = ({ between with
      codePoint := byte.toNat % 0x10
      bytesNeeded := 2
      lowerBoundary := if byte.toNat = 0xe0 then 0xa0 else 0x80
      upperBoundary := if byte.toNat = 0xed then 0x9f else 0xbf }, []) := by
  have hascii : ¬ byte.toNat ≤ 0x7f := by omega
  have htwo : ¬ (0xc2 ≤ byte.toNat ∧ byte.toNat ≤ 0xdf) := by omega
  simp only [step, codePoints, firstByte, between, if_true, if_neg hascii, if_neg htwo, if_pos h]
  rfl

/-- The start of a character of four bytes. -/
theorem step_first_of_four (h : 0xf0 ≤ byte.toNat ∧ byte.toNat ≤ 0xf4) :
    step between byte = ({ between with
      codePoint := byte.toNat % 0x8
      bytesNeeded := 3
      lowerBoundary := if byte.toNat = 0xf0 then 0x90 else 0x80
      upperBoundary := if byte.toNat = 0xf4 then 0x8f else 0xbf }, []) := by
  have hascii : ¬ byte.toNat ≤ 0x7f := by omega
  have htwo : ¬ (0xc2 ≤ byte.toNat ∧ byte.toNat ≤ 0xdf) := by omega
  have hthree : ¬ (0xe0 ≤ byte.toNat ∧ byte.toNat ≤ 0xef) := by omega
  simp only [step, codePoints, firstByte, between, if_true, if_neg hascii, if_neg htwo, if_neg hthree, if_pos h]
  rfl

/-- A further byte, after which more are needed. -/
theorem step_further {k : ℕ} (hs : s.bytesNeeded = k + 2)
    (h : s.lowerBoundary ≤ byte.toNat ∧ byte.toNat ≤ s.upperBoundary) :
    step s byte = ({ s with
      codePoint := s.codePoint * 0x40 + byte.toNat % 0x40
      bytesNeeded := k + 1
      lowerBoundary := 0x80
      upperBoundary := 0xbf }, []) := by
  have hinside : ¬ (byte.toNat < s.lowerBoundary ∨ s.upperBoundary < byte.toNat) := by omega
  have hnotFirst : ¬ s.bytesNeeded = 0 := by omega
  have hnotLast : ¬ s.bytesNeeded = 1 := by omega
  simp only [step, codePoints, if_neg hnotFirst, if_neg hinside, if_neg hnotLast]
  simp [withoutMark, hs]

/-- The last byte of a character. -/
theorem step_last (hs : s.bytesNeeded = 1) (hseen : s.bomSeen = true)
    (h : s.lowerBoundary ≤ byte.toNat ∧ byte.toNat ≤ s.upperBoundary) :
    step s byte = (between, utf16Units (s.codePoint * 0x40 + byte.toNat % 0x40)) := by
  have hinside : ¬ (byte.toNat < s.lowerBoundary ∨ s.upperBoundary < byte.toNat) := by omega
  simp only [step, codePoints, hs, if_neg hinside]
  simp [withoutMark, hseen, between]

theorem toNat_byte {m : ℕ} (hm : m < 256) : (UInt8.ofNat m).toNat = m := by
  rw [UInt8.toNat_ofNat']
  exact Nat.mod_eq_of_lt hm

/-- A character of two bytes. -/
theorem decode_two {n : ℕ} (hlow : 0x7f < n) (hhigh : n ≤ 0x7ff) :
    decode between [UInt8.ofNat (n / 64 % 32 + 192), UInt8.ofNat (n % 64 + 128)] = (between, utf16Units n) := by
  have hfirst := toNat_byte (show n / 64 % 32 + 192 < 256 by omega)
  have hlast := toNat_byte (show n % 64 + 128 < 256 by omega)
  have hpoint : (n / 64 % 32 + 192) % 32 * 64 + (n % 64 + 128) % 64 = n := by omega
  simp only [decode]
  rw [step_first_of_two (by omega), step_last rfl rfl (by simp only [between]; omega), hfirst, hlast, hpoint]
  simp

/-- A character of three bytes, which is no half of a pair. -/
theorem decode_three {n : ℕ} (hlow : 0x7ff < n) (hhigh : n ≤ 0xffff) (hvalid : n < 0xd800 ∨ 0xdfff < n) :
    decode between
        [UInt8.ofNat (n / 4096 % 16 + 224), UInt8.ofNat (n / 64 % 64 + 128), UInt8.ofNat (n % 64 + 128)] =
      (between, utf16Units n) := by
  have hfirst := toNat_byte (show n / 4096 % 16 + 224 < 256 by omega)
  have hsecond := toNat_byte (show n / 64 % 64 + 128 < 256 by omega)
  have hlast := toNat_byte (show n % 64 + 128 < 256 by omega)
  have hpoint : ((n / 4096 % 16 + 224) % 16 * 64 + (n / 64 % 64 + 128) % 64) * 64 + (n % 64 + 128) % 64 = n := by
    omega
  simp only [decode]
  rw [step_first_of_three (by omega), hfirst]
  rw [@step_further _ (UInt8.ofNat (n / 64 % 64 + 128)) 0 rfl (by dsimp only; split <;> split <;> omega)]
  rw [step_last rfl rfl (by dsimp only; omega), hsecond, hlast, hpoint]
  simp

/-- A character of four bytes. -/
theorem decode_four {n : ℕ} (hlow : 0xffff < n) (hhigh : n < 0x110000) :
    decode between
        [UInt8.ofNat (n / 262144 % 8 + 240), UInt8.ofNat (n / 4096 % 64 + 128), UInt8.ofNat (n / 64 % 64 + 128),
          UInt8.ofNat (n % 64 + 128)] =
      (between, utf16Units n) := by
  have hfirst := toNat_byte (show n / 262144 % 8 + 240 < 256 by omega)
  have hsecond := toNat_byte (show n / 4096 % 64 + 128 < 256 by omega)
  have hthird := toNat_byte (show n / 64 % 64 + 128 < 256 by omega)
  have hlast := toNat_byte (show n % 64 + 128 < 256 by omega)
  have hpoint : (((n / 262144 % 8 + 240) % 8 * 64 + (n / 4096 % 64 + 128) % 64) * 64 +
      (n / 64 % 64 + 128) % 64) * 64 + (n % 64 + 128) % 64 = n := by omega
  simp only [decode]
  rw [step_first_of_four (by omega), hfirst]
  rw [@step_further _ (UInt8.ofNat (n / 4096 % 64 + 128)) 1 rfl (by dsimp only; split <;> split <;> omega)]
  rw [@step_further _ (UInt8.ofNat (n / 64 % 64 + 128)) 0 rfl (by dsimp only; omega)]
  rw [step_last rfl rfl (by dsimp only; omega), hsecond, hthird, hlast, hpoint]
  simp

/-- A character brings its units. -/
theorem decode_character (c : Char) :
    decode between (String.utf8EncodeChar c) = (between, utf16Units c.toNat) := by
  have hvalid : c.toNat < 0xd800 ∨ 0xdfff < c.toNat ∧ c.toNat < 0x110000 := c.valid
  have hval : c.val.toNat = c.toNat := rfl
  unfold String.utf8EncodeChar
  simp only [hval]
  generalize c.toNat = n at hvalid
  by_cases hone : n ≤ 0x7f
  · have hfirst := toNat_byte (show n < 256 by omega)
    simp [decode, step, codePoints, firstByte, between, hfirst, hone, withoutMark]
  by_cases htwo : n ≤ 0x7ff
  · rw [if_neg hone, if_pos htwo]
    exact decode_two (by omega) htwo
  by_cases hthree : n ≤ 0xffff
  · rw [if_neg hone, if_neg htwo, if_pos hthree]
    exact decode_three (by omega) hthree (by omega)
  · rw [if_neg hone, if_neg htwo, if_neg hthree]
    exact decode_four (by omega) (by omega)

/-- A text brings its units, and leaves nothing behind. -/
theorem decode_utf8_eq (text : String) : decode between (utf8 text) = (between, utf16 text) := by
  unfold utf8 utf16
  induction text.toList with
  | nil => rfl
  | cons c rest ih => rw [List.flatMap_cons, List.flatMap_cons, decode_append, decode_character, ih]

/-- A text brings its units. -/
theorem decode_utf8 (text : String) : (decode between (utf8 text)).2 = utf16 text := by rw [decode_utf8_eq]

/-- A stream that starts with an ASCII character is decoded as its text. -/
theorem decode_stream {text : String} {c : Char} (hfirst : text.toList.head? = some c) (hc : c.toNat ≤ 0x7f) :
    (decode {} (utf8 text)).2 = utf16 text := by
  obtain ⟨rest, hrest⟩ : ∃ rest, text = String.ofList (c :: rest) := by
    cases hlist : text.toList with
    | nil => simp [hlist] at hfirst
    | cons d rest =>
      obtain rfl : d = c := by simpa [hlist] using hfirst
      exact ⟨rest, by rw [← hlist, String.ofList_toList]⟩
  have hmore := decode_utf8 (String.ofList rest)
  have hchar := @decode_utf8EncodeChar {} rfl c hc
  have hstate : ({ bomSeen := true } : State) = between := rfl
  simp only [utf8, utf16, String.toList_ofList] at hmore ⊢
  rw [hrest, String.toList_ofList, List.flatMap_cons, List.flatMap_cons, decode_append, hchar, hstate, hmore]

end Characters

end TextDecoder
