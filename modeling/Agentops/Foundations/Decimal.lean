import Mathlib.Algebra.Order.Field.Rat
import Mathlib.Data.List.TakeDrop
import Mathlib.Data.Rat.Cast.Order
import Mathlib.Tactic.NormNum
import Mathlib.Tactic.Ring

/-!
# Decimal numbers as text

A finite decimal number is a sign, a coefficient and an exponent of ten, as in Python's
`decimal` module. `str` is the conversion to text that the module documents: plain notation
while the exponent is not positive and the adjusted exponent is at least -6, scientific
notation otherwise. `ofString?` reads a finite numeral back. Reading what was written gives
the number itself, with its exponent, and comparison is exact.

The digits of an integer are read back in the same way, so different integers have different
texts.
-/

/-- A finite decimal number, `(-1) ^ negative * coefficient * 10 ^ exponent`. -/
structure Decimal where
  negative : Bool
  coefficient : ℕ
  exponent : ℤ
  deriving DecidableEq, Repr

namespace Decimal

/-- The digits of the coefficient. -/
def digits (d : Decimal) : List Char := Nat.toDigits 10 d.coefficient

/-- The exact value. -/
def value (d : Decimal) : ℚ :=
  (if d.negative then -1 else 1) * d.coefficient * (10 : ℚ) ^ d.exponent

/-- Exact comparison. -/
instance : LT Decimal := ⟨fun d d' => d.value < d'.value⟩

instance (d d' : Decimal) : Decidable (d < d') := inferInstanceAs (Decidable (d.value < d'.value))

section Write

/-- `"E%+d"`, left out when it is zero. -/
def exponentText (k : ℤ) : List Char :=
  if k = 0 then [] else 'E' :: (if k < 0 then '-' else '+') :: Nat.toDigits 10 k.natAbs

/-- Digits with the point after the first `dotplace` of them, padded with zeros where the
point falls outside. -/
def placePoint (digits : List Char) (dotplace : ℤ) : List Char :=
  if dotplace ≤ 0 then '0' :: '.' :: (List.replicate (-dotplace).toNat '0' ++ digits)
  else if digits.length ≤ dotplace then
    digits ++ List.replicate (dotplace - digits.length).toNat '0'
  else digits.take dotplace.toNat ++ '.' :: digits.drop dotplace.toNat

/-- The conversion to text. -/
def str (d : Decimal) : String :=
  let leftdigits : ℤ := d.exponent + d.digits.length
  let dotplace : ℤ := if d.exponent ≤ 0 ∧ -6 < leftdigits then leftdigits else 1
  String.ofList ((if d.negative then ['-'] else []) ++ placePoint d.digits dotplace ++
    exponentText (leftdigits - dotplace))

end Write

section Read

/-- Split an optional sign off. -/
def readSign : List Char → Bool × List Char
  | '-' :: rest => (true, rest)
  | '+' :: rest => (false, rest)
  | rest => (false, rest)

/-- An optional fractional part. -/
def readFraction : List Char → List Char × List Char
  | '.' :: rest => rest.span Char.isDigit
  | rest => ([], rest)

/-- An optional exponent, up to the end of the text. -/
def readExponent : List Char → Option ℤ
  | [] => some 0
  | c :: rest =>
    let (negative, ds) := readSign rest
    if (c = 'E' ∨ c = 'e') ∧ ds ≠ [] ∧ ds.all Char.isDigit then
      let k : ℤ := Nat.ofDigitChars 10 ds 0
      some (if negative then -k else k)
    else none

/-- Read a finite numeral. -/
def ofString? (s : String) : Option Decimal :=
  let (negative, unsigned) := readSign s.toList
  let (int, afterInt) := unsigned.span Char.isDigit
  let (frac, afterFrac) := readFraction afterInt
  if int = [] ∧ frac = [] then none
  else (readExponent afterFrac).map fun k =>
    ⟨negative, Nat.ofDigitChars 10 (int ++ frac) 0, k - frac.length⟩

end Read

section RoundTrip

/-- The digits of a number are digits. -/
theorem isDigit_of_mem {n : ℕ} {c : Char} (h : c ∈ Nat.toDigits 10 n) : c.isDigit = true :=
  Nat.isDigit_of_mem_toDigits (by decide) (by decide) h

/-- Digits are read up to the first character that is none. -/
theorem span_digits {ds : List Char} (rest : List Char) (hds : ∀ c ∈ ds, c.isDigit = true)
    (hrest : ∀ c ∈ rest.head?, c.isDigit = false) :
    (ds ++ rest).span Char.isDigit = (ds, rest) := by
  rw [List.span_eq_takeWhile_dropWhile, List.takeWhile_append_of_pos hds,
    List.dropWhile_append_of_pos hds]
  cases rest with
  | nil => simp
  | cons c rest =>
    have hc := hrest c rfl
    simp [hc]

/-- A sign is read back, and digits are not taken for one. -/
theorem readSign_append (negative : Bool) {rest : List Char} (hrest : ∀ c ∈ rest.head?, c.isDigit = true) :
    readSign ((if negative then ['-'] else []) ++ rest) = (negative, rest) := by
  cases negative with
  | true => rfl
  | false =>
    cases rest with
    | nil => rfl
    | cons c rest =>
      have hc := hrest c rfl
      unfold readSign
      split
      · simp_all
      · simp_all
      · rfl

/-- An exponent is read back. -/
theorem readExponent_exponentText (k : ℤ) : readExponent (exponentText k) = some k := by
  unfold exponentText
  by_cases hk : k = 0
  · rw [if_pos hk, hk]
    rfl
  · rw [if_neg hk]
    have hdigits : (Nat.toDigits 10 k.natAbs).all Char.isDigit = true :=
      List.all_eq_true.mpr fun c hc => isDigit_of_mem hc
    by_cases hneg : k < 0
    · simp only [readExponent, readSign, hneg, if_true, true_or, ne_eq, Nat.toDigits_ne_nil,
        not_false_eq_true, hdigits, and_self, Nat.ofDigitChars_ten_toDigits, Option.some.injEq]
      omega
    · simp only [readExponent, readSign, hneg, if_false, true_or, ne_eq, Nat.toDigits_ne_nil,
        not_false_eq_true, hdigits, and_self, Nat.ofDigitChars_ten_toDigits, Bool.false_eq_true]
      rw [if_pos trivial, Int.natAbs_of_nonneg (not_lt.mp hneg)]

/-- What follows a numeral's digits is the end of the text or its exponent. -/
theorem head_exponentText (k : ℤ) : ∀ c ∈ (exponentText k).head?, c = 'E' := by
  unfold exponentText
  split <;> simp

/-- A numeral is read from its parts. -/
theorem ofString?_of_parts {chars unsigned int afterInt frac afterFrac : List Char} {negative : Bool}
    {k : ℤ} (hsign : readSign chars = (negative, unsigned))
    (hint : unsigned.span Char.isDigit = (int, afterInt))
    (hfrac : readFraction afterInt = (frac, afterFrac)) (hne : int ≠ [])
    (hexp : readExponent afterFrac = some k) :
    ofString? (String.ofList chars) =
      some ⟨negative, Nat.ofDigitChars 10 (int ++ frac) 0, k - frac.length⟩ := by
  simp only [ofString?, String.toList_ofList, hsign, hint, hfrac, hne, false_and, if_false, hexp,
    Option.map_some]

/-- A numeral without a point is read back. -/
theorem ofString?_integer (negative : Bool) (int : List Char) (k : ℤ)
    (hint : ∀ c ∈ int, c.isDigit = true) (hne : int ≠ []) :
    ofString? (String.ofList ((if negative then ['-'] else []) ++ int ++ exponentText k)) =
      some ⟨negative, Nat.ofDigitChars 10 int 0, k⟩ := by
  have hhead : ∀ c ∈ (int ++ exponentText k).head?, c.isDigit = true := by
    cases int with
    | nil => exact absurd rfl hne
    | cons d ds => simpa using hint d List.mem_cons_self
  have hsign := readSign_append negative hhead
  have hspan := span_digits (exponentText k) hint fun c hc => head_exponentText k c hc ▸ rfl
  have hfrac : readFraction (exponentText k) = ([], exponentText k) := by
    unfold exponentText
    split <;> rfl
  rw [List.append_assoc, ofString?_of_parts hsign hspan hfrac hne (readExponent_exponentText k)]
  simp

/-- A numeral with a point is read back. -/
theorem ofString?_pointed (negative : Bool) (int frac : List Char) (k : ℤ)
    (hint : ∀ c ∈ int, c.isDigit = true) (hne : int ≠ []) (hfrac : ∀ c ∈ frac, c.isDigit = true) :
    ofString? (String.ofList ((if negative then ['-'] else []) ++ (int ++ '.' :: frac) ++
        exponentText k)) =
      some ⟨negative, Nat.ofDigitChars 10 (int ++ frac) 0, k - frac.length⟩ := by
  have hhead : ∀ c ∈ (int ++ '.' :: (frac ++ exponentText k)).head?, c.isDigit = true := by
    cases int with
    | nil => exact absurd rfl hne
    | cons d ds => simpa using hint d List.mem_cons_self
  have hsign := readSign_append negative hhead
  have hspan := span_digits ('.' :: (frac ++ exponentText k)) hint (by simp)
  have hread : readFraction ('.' :: (frac ++ exponentText k)) = (frac, exponentText k) :=
    span_digits _ hfrac fun c hc => head_exponentText k c hc ▸ rfl
  simp only [List.append_assoc, List.cons_append]
  exact ofString?_of_parts hsign hspan hread hne (readExponent_exponentText k)

/-- Where the point is placed, the digits and their number of decimals are kept. -/
theorem ofString?_placePoint (negative : Bool) {digits : List Char} {dotplace : ℤ} (k : ℤ)
    (hdigits : ∀ c ∈ digits, c.isDigit = true) (hne : digits ≠ [])
    (hplace : dotplace ≤ digits.length) :
    ofString? (String.ofList ((if negative then ['-'] else []) ++ placePoint digits dotplace ++
        exponentText k)) =
      some ⟨negative, Nat.ofDigitChars 10 digits 0, k - (digits.length - dotplace)⟩ := by
  by_cases hzero : dotplace ≤ 0
  · have hzeros : ∀ c ∈ List.replicate (-dotplace).toNat '0' ++ digits, c.isDigit = true := by
      intro c hc
      rcases List.mem_append.mp hc with hzero | hdigit
      · rw [List.eq_of_mem_replicate hzero]
        rfl
      · exact hdigits c hdigit
    have hread := ofString?_pointed negative ['0'] _ k (by simp) (by simp) hzeros
    have hcoefficient : Nat.ofDigitChars 10 ('0' :: (List.replicate (-dotplace).toNat '0' ++ digits)) 0 =
        Nat.ofDigitChars 10 digits 0 := by
      rw [Nat.ofDigitChars_cons, Nat.ofDigitChars_append]
      simp
    rw [placePoint, if_pos hzero]
    simp only [List.cons_append, List.nil_append] at hread
    rw [hread, hcoefficient]
    simp only [Option.some.injEq, Decimal.mk.injEq, true_and, List.length_append,
      List.length_replicate]
    omega
  · by_cases hlast : (digits.length : ℤ) ≤ dotplace
    · have heq : dotplace = digits.length := le_antisymm hplace hlast
      rw [placePoint, if_neg hzero, if_pos hlast]
      rw [heq]
      simp only [sub_self, Int.toNat_zero, List.replicate_zero, List.append_nil, sub_zero]
      exact ofString?_integer negative digits k hdigits hne
    · have htake : digits.take dotplace.toNat ≠ [] := by
        rw [ne_eq, List.take_eq_nil_iff]
        rintro (h | h)
        · omega
        · exact hne h
      have hread := ofString?_pointed negative _ (digits.drop dotplace.toNat) k
        (fun c hc => hdigits c (List.mem_of_mem_take hc)) htake
        (fun c hc => hdigits c (List.mem_of_mem_drop hc))
      rw [placePoint, if_neg hzero, if_neg hlast, hread, List.take_append_drop]
      simp only [Option.some.injEq, Decimal.mk.injEq, true_and, List.length_drop]
      omega

/-- Reading a written number gives the number, with its exponent. -/
theorem ofString?_str (d : Decimal) : ofString? d.str = some d := by
  have hne : d.digits ≠ [] := Nat.toDigits_ne_nil
  have hlength : 0 < d.digits.length := List.length_pos_iff.mpr hne
  have hplace : (if d.exponent ≤ 0 ∧ -6 < d.exponent + d.digits.length then
      d.exponent + d.digits.length else 1) ≤ (d.digits.length : ℤ) := by
    split <;> omega
  have hdigits : ∀ c ∈ d.digits, c.isDigit = true := fun c hc => isDigit_of_mem hc
  rw [str, ofString?_placePoint d.negative _ hdigits hne hplace]
  have hvalue : Nat.ofDigitChars 10 d.digits 0 = d.coefficient := Nat.ofDigitChars_ten_toDigits
  simp only [hvalue, Option.some.injEq]
  cases d
  simp only [Decimal.mk.injEq, true_and]
  omega

end RoundTrip

section Integers

/-- The digits of an integer's text hold its absolute value. -/
theorem toList_toString_int (n : ℤ) :
    (toString n).toList = (if n < 0 then ['-'] else []) ++ Nat.toDigits 10 n.natAbs := by
  cases n with
  | ofNat k =>
    change (Nat.repr k).toList = _
    simp [Nat.toList_repr]
  | negSucc k =>
    change ("-" ++ Nat.repr (k + 1)).toList = _
    simp [Nat.toList_repr, Int.negSucc_lt_zero]

/-- Different integers have different texts. -/
theorem toString_int_injective : Function.Injective (fun n : ℤ => toString n) := by
  have hread (n : ℤ) : readSign (toString n).toList = (decide (n < 0), Nat.toDigits 10 n.natAbs) := by
    have hhead : ∀ c ∈ (Nat.toDigits 10 n.natAbs).head?, c.isDigit = true := fun c hc =>
      isDigit_of_mem (List.mem_of_mem_head? hc)
    rw [toList_toString_int, ← readSign_append _ hhead]
    simp
  intro n m h
  have heq := (hread n).symm.trans ((congrArg (fun s : String => readSign s.toList) h).trans (hread m))
  obtain ⟨hsign, hdigits⟩ := Prod.mk.inj heq
  have habs := congrArg (fun ds => Nat.ofDigitChars 10 ds 0) hdigits
  simp only [Nat.ofDigitChars_ten_toDigits, decide_eq_decide] at habs hsign
  omega

end Integers

end Decimal
