import Mathlib.Data.List.DropRight
import Mathlib.Data.List.FinRange
import Mathlib.Data.Nat.Notation

/-!
# Bytes in groups of six bits

Three bytes are four groups of six bits. Bits that are missing in the last group are zero, and they are dropped again
when the groups are read, so bytes are read back as they were written. An alphabet writes the groups with sixty-four
different symbols; in a padded text another symbol stands for the groups that are missing in the last four.
-/

namespace Base64

/-- The groups of bytes. -/
def sextets : List UInt8 → List (Fin 64)
  | a :: b :: c :: rest =>
    Fin.ofNat 64 (a.toNat / 4) :: Fin.ofNat 64 (a.toNat % 4 * 16 + b.toNat / 16) ::
      Fin.ofNat 64 (b.toNat % 16 * 4 + c.toNat / 64) :: Fin.ofNat 64 (c.toNat % 64) :: sextets rest
  | [a, b] =>
    [Fin.ofNat 64 (a.toNat / 4), Fin.ofNat 64 (a.toNat % 4 * 16 + b.toNat / 16), Fin.ofNat 64 (b.toNat % 16 * 4)]
  | [a] => [Fin.ofNat 64 (a.toNat / 4), Fin.ofNat 64 (a.toNat % 4 * 16)]
  | [] => []

/-- The bytes of groups. A group alone is no byte. -/
def bytes : List (Fin 64) → Option (List UInt8)
  | w :: x :: y :: z :: rest => (bytes rest).map fun more =>
    UInt8.ofNat (w.val * 4 + x.val / 16) :: UInt8.ofNat (x.val % 16 * 16 + y.val / 4) ::
      UInt8.ofNat (y.val % 4 * 64 + z.val) :: more
  | [w, x, y] => some [UInt8.ofNat (w.val * 4 + x.val / 16), UInt8.ofNat (x.val % 16 * 16 + y.val / 4)]
  | [w, x] => some [UInt8.ofNat (w.val * 4 + x.val / 16)]
  | [_] => none
  | [] => some []

section Groups

variable {a b c : UInt8}

/-- The first byte of three is in the first two groups. -/
theorem first_byte {x : ℕ} (hx : x = 0 ∨ x = b.toNat / 16) :
    UInt8.ofNat ((Fin.ofNat 64 (a.toNat / 4)).val * 4 + (Fin.ofNat 64 (a.toNat % 4 * 16 + x)).val / 16) = a := by
  have ha := a.toNat_lt
  have hb := b.toNat_lt
  have hvalue : (Fin.ofNat 64 (a.toNat / 4)).val * 4 + (Fin.ofNat 64 (a.toNat % 4 * 16 + x)).val / 16 = a.toNat := by
    simp only [Fin.val_ofNat]
    omega
  rw [hvalue, UInt8.ofNat_toNat]

/-- The second one is in the second and the third. -/
theorem second_byte {x : ℕ} (hx : x = 0 ∨ x = c.toNat / 64) :
    UInt8.ofNat ((Fin.ofNat 64 (a.toNat % 4 * 16 + b.toNat / 16)).val % 16 * 16 +
      (Fin.ofNat 64 (b.toNat % 16 * 4 + x)).val / 4) = b := by
  have hb := b.toNat_lt
  have hc := c.toNat_lt
  have hvalue : (Fin.ofNat 64 (a.toNat % 4 * 16 + b.toNat / 16)).val % 16 * 16 +
      (Fin.ofNat 64 (b.toNat % 16 * 4 + x)).val / 4 = b.toNat := by
    simp only [Fin.val_ofNat]
    omega
  rw [hvalue, UInt8.ofNat_toNat]

/-- The third one is in the third and the fourth. -/
theorem third_byte :
    UInt8.ofNat ((Fin.ofNat 64 (b.toNat % 16 * 4 + c.toNat / 64)).val % 4 * 64 + (Fin.ofNat 64 (c.toNat % 64)).val) =
      c := by
  have hc := c.toNat_lt
  have hvalue : (Fin.ofNat 64 (b.toNat % 16 * 4 + c.toNat / 64)).val % 4 * 64 +
      (Fin.ofNat 64 (c.toNat % 64)).val = c.toNat := by
    simp only [Fin.val_ofNat]
    omega
  rw [hvalue, UInt8.ofNat_toNat]

end Groups

/-- The groups of bytes are read as these bytes. -/
theorem bytes_sextets (bs : List UInt8) : bytes (sextets bs) = some bs := by
  induction bs using sextets.induct with
  | case1 a b c rest ih =>
    rw [sextets, bytes, ih, first_byte (.inr rfl), second_byte (.inr rfl), third_byte]
    rfl
  | case2 a b =>
    have hsecond := @second_byte a b 0 0 (.inl rfl)
    rw [Nat.add_zero] at hsecond
    rw [sextets, bytes, first_byte (.inr rfl), hsecond]
  | case3 a =>
    have hfirst := @first_byte a 0 0 (.inl rfl)
    rw [Nat.add_zero] at hfirst
    rw [sextets, bytes, hfirst]
  | case4 => rfl

/-- Three bytes have four sextets. -/
theorem length_sextets (bs : List UInt8) : (sextets bs).length = (4 * bs.length + 2) / 3 := by
  induction bs using sextets.induct with
  | case1 a b c rest ih =>
    simp only [sextets, List.length_cons, ih]
    omega
  | case2 a b => simp [sextets]
  | case3 a => simp [sextets]
  | case4 => rfl

/-- Sixty-four different symbols. -/
structure Alphabet (A : Type) where
  symbol : Fin 64 → A
  injective : Function.Injective symbol

/-- The symbols of a list, in its order. -/
def Alphabet.ofList {A : Type} (symbols : List A) (hlength : symbols.length = 64) (hnodup : symbols.Nodup) :
    Alphabet A where
  symbol s := symbols.get (s.cast hlength.symm)
  injective := (List.nodup_iff_injective_get.mp hnodup).comp (Fin.cast_injective hlength.symm)

section Alphabets

variable {A : Type} [DecidableEq A] (alphabet : Alphabet A)

/-- The group that a symbol stands for. -/
def Alphabet.sextet? (a : A) : Option (Fin 64) := (List.finRange 64).find? fun s => decide (alphabet.symbol s = a)

/-- A symbol stands for its sextet. -/
@[simp] theorem Alphabet.sextet?_symbol (s : Fin 64) : alphabet.sextet? (alphabet.symbol s) = some s := by
  cases h : alphabet.sextet? (alphabet.symbol s) with
  | none => simpa using List.find?_eq_none.mp h s (List.mem_finRange s)
  | some found =>
    have hfound := List.find?_some h
    rw [alphabet.injective (of_decide_eq_true hfound)]

omit [DecidableEq A] in
/-- The text of bytes. -/
def Alphabet.encode (bs : List UInt8) : List A := (sextets bs).map alphabet.symbol

/-- The bytes of a text. -/
def Alphabet.decode (text : List A) : Option (List UInt8) := (text.mapM alphabet.sextet?).bind bytes

/-- Bytes are read back. -/
@[simp] theorem Alphabet.decode_encode (bs : List UInt8) : alphabet.decode (alphabet.encode bs) = some bs := by
  have hgroups : ∀ groups : List (Fin 64), (groups.map alphabet.symbol).mapM alphabet.sextet? = some groups := by
    intro groups
    induction groups with
    | nil => rfl
    | cons s groups ih => simp [List.mapM_cons, ih]
  rw [decode, encode, hgroups, Option.bind_some, bytes_sextets]

/-- How many groups are missing in the last four. -/
def missing (count : ℕ) : ℕ := (3 - count % 3) % 3

omit [DecidableEq A] in
/-- So many symbols encode the bytes. -/
theorem Alphabet.length_encode (bs : List UInt8) : (alphabet.encode bs).length = (4 * bs.length + 2) / 3 := by
  rw [encode, List.length_map, length_sextets]

/-- The text without a pad at its end. -/
def dropPad (pad : A) (text : List A) : List A := if text.getLast? = some pad then text.dropLast else text

/-- The bytes of a text that may have blanks, and that may or may not be padded. -/
def Alphabet.decodeForgiving (pad : A) (blank : A → Bool) (text : List A) : Option (List UInt8) :=
  let text := text.filter (!blank ·)
  alphabet.decode (if text.length % 4 = 0 then dropPad pad (dropPad pad text) else text)

/-- One padding at the end goes. -/
theorem dropPad_concat (pad : A) (text : List A) : dropPad pad (text ++ [pad]) = text := by simp [dropPad]

/-- Symbols are no padding. -/
theorem dropPad_encode {pad : A} (hpad : ∀ s, alphabet.symbol s ≠ pad) (bs : List UInt8) :
    dropPad pad (alphabet.encode bs) = alphabet.encode bs := by
  apply if_neg
  intro hlast
  obtain ⟨s, -, hs⟩ := List.mem_map.mp (List.mem_of_getLast? hlast)
  exact hpad s hs

/-- Padded bytes are read back. -/
theorem Alphabet.decodeForgiving_padded {pad : A} {blank : A → Bool} (hpad : ∀ s, alphabet.symbol s ≠ pad)
    (hblank : blank pad = false ∧ ∀ s, blank (alphabet.symbol s) = false) (bs : List UInt8) :
    alphabet.decodeForgiving pad blank (alphabet.encode bs ++ List.replicate (missing bs.length) pad) = some bs := by
  have hkept : (alphabet.encode bs ++ List.replicate (missing bs.length) pad).filter (!blank ·) =
      alphabet.encode bs ++ List.replicate (missing bs.length) pad := by
    rw [List.filter_eq_self]
    intro a ha
    rcases List.mem_append.mp ha with hsymbol | hreplicate
    · obtain ⟨s, -, rfl⟩ := List.mem_map.mp hsymbol
      simp [hblank.2 s]
    · simp [List.eq_of_mem_replicate hreplicate, hblank.1]
  have hwhole : (alphabet.encode bs ++ List.replicate (missing bs.length) pad).length % 4 = 0 := by
    have hrest : bs.length % 3 = 0 ∨ bs.length % 3 = 1 ∨ bs.length % 3 = 2 := by omega
    rw [List.length_append, List.length_replicate, length_encode, missing]
    rcases hrest with hrest | hrest | hrest <;> rw [hrest] <;> omega
  have hdropped : dropPad pad (dropPad pad (alphabet.encode bs ++ List.replicate (missing bs.length) pad)) =
      alphabet.encode bs := by
    have hfew : missing bs.length = 0 ∨ missing bs.length = 1 ∨ missing bs.length = 2 := by
      rw [missing]
      omega
    rcases hfew with hnone | hone | htwo
    · rw [hnone, List.replicate_zero, List.append_nil, dropPad_encode alphabet hpad, dropPad_encode alphabet hpad]
    · rw [hone, List.replicate_one, dropPad_concat, dropPad_encode alphabet hpad]
    · have hpads : List.replicate 2 pad = [pad] ++ [pad] := rfl
      rw [htwo, hpads, ← List.append_assoc, dropPad_concat, dropPad_concat]
  simp only [decodeForgiving, hkept, if_pos hwhole, hdropped, decode_encode]

end Alphabets

/-! ### The alphabets in use -/

/-- The symbols that they have in common. -/
def alphanumerics : List Char := "ABCDEFGHIJKLMNOPQRSTUVWXYZabcdefghijklmnopqrstuvwxyz0123456789".toList

/-- The standard alphabet. -/
def standard : Alphabet Char :=
  .ofList (alphanumerics ++ ['+', '/']) (by decide) (by decide +kernel)

/-- The alphabet for URLs and file names. -/
def urlSafe : Alphabet Char :=
  .ofList (alphanumerics ++ ['-', '_']) (by decide) (by decide +kernel)

end Base64
