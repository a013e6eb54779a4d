import Mathlib.Data.Nat.Digits.Lemmas
import Mathlib.Data.List.DropRight
import Mathlib.Data.List.Lex

/-!
# Numerals, most significant digit first

The number that a row of digits writes in a base. Leading zeros do not change it, and two rows of digits
without leading zeros that write one number are the same row. Letter by letter a row comes before a longer one
exactly if its number is not greater than the one that the first digits of the longer row write.
-/

namespace Numerals

/-- The number that digits write. -/
def value (b : ℕ) (digits : List ℕ) : ℕ := digits.foldl (fun n d => b * n + d) 0

/-- The digits from the first one that is not zero. -/
def significant (digits : List ℕ) : List ℕ := digits.dropWhile (· = 0)

variable {b : ℕ} {ds es : List ℕ}

/-- Reading from the left is reading from the right the other way round. -/
theorem value_eq_ofDigits (b : ℕ) (ds : List ℕ) : value b ds = Nat.ofDigits b ds.reverse := by
  have hfrom : ∀ n, ds.foldl (fun n d => b * n + d) n = b ^ ds.length * n + Nat.ofDigits b ds.reverse := by
    induction ds with
    | nil => intro n; simp
    | cons d ds ih =>
      intro n
      rw [List.foldl_cons, ih, List.reverse_cons, Nat.ofDigits_append, Nat.ofDigits_singleton, List.length_reverse,
        List.length_cons, pow_succ]
      ring
  rw [value, hfrom, Nat.mul_zero, Nat.zero_add]

/-- Zeros in front change nothing. -/
theorem value_significant (b : ℕ) (ds : List ℕ) : value b (significant ds) = value b ds := by
  induction ds with
  | nil => rfl
  | cons d ds ih =>
    by_cases hd : d = 0
    · have hdrop : significant (d :: ds) = significant ds := by simp [significant, hd]
      have hvalue : value b (d :: ds) = value b ds := by simp [value, hd]
      rw [hdrop, ih, hvalue]
    · have hkeep : significant (d :: ds) = d :: ds := by simp [significant, hd]
      rw [hkeep]

/-- The significant digits are the digits of the number. -/
theorem significant_eq_digits (hb : 1 < b) (hds : ∀ d ∈ ds, d < b) :
    significant ds = (Nat.digits b (value b ds)).reverse := by
  have hlow : ∀ d ∈ (significant ds).reverse, d < b := fun d hd =>
    hds d (List.dropWhile_sublist _ |>.subset (List.mem_reverse.mp hd))
  have hlast : ∀ h : (significant ds).reverse ≠ [], (significant ds).reverse.getLast h ≠ 0 := by
    intro h hzero
    have hne : significant ds ≠ [] := fun hnil => h (by rw [hnil, List.reverse_nil])
    rw [List.getLast_reverse] at hzero
    have hnot := List.head_dropWhile_not (fun d => decide (d = 0)) hne
    exact absurd (decide_eq_true hzero) (Bool.eq_false_iff.mp hnot)
  rw [← value_significant, value_eq_ofDigits, Nat.digits_ofDigits b hb _ hlow hlast, List.reverse_reverse]

/-- Two rows of digits write one number exactly if their significant digits are the same. -/
theorem value_eq_iff (hb : 1 < b) (hds : ∀ d ∈ ds, d < b) (hes : ∀ d ∈ es, d < b) :
    value b ds = value b es ↔ significant ds = significant es := by
  constructor
  · intro h
    rw [significant_eq_digits hb hds, significant_eq_digits hb hes, h]
  · intro h
    rw [← value_significant b ds, ← value_significant b es, h]

section Order

/-- The first digit counts for the most. -/
theorem value_cons (b d : ℕ) (ds : List ℕ) : value b (d :: ds) = d * b ^ ds.length + value b ds := by
  rw [value_eq_ofDigits, value_eq_ofDigits, List.reverse_cons, Nat.ofDigits_append, Nat.ofDigits_singleton,
    List.length_reverse, Nat.add_comm, Nat.mul_comm]

/-- So many digits write numbers below that power of the base. -/
theorem value_lt (hds : ∀ d ∈ ds, d < b) : value b ds < b ^ ds.length := by
  induction ds with
  | nil => simp [value]
  | cons d ds ih =>
    have hd : d + 1 ≤ b := hds d List.mem_cons_self
    have hrest := ih fun e he => hds e (List.mem_cons_of_mem _ he)
    calc value b (d :: ds) = d * b ^ ds.length + value b ds := value_cons b d ds
      _ < d * b ^ ds.length + b ^ ds.length := Nat.add_lt_add_left hrest _
      _ = (d + 1) * b ^ ds.length := by ring
      _ ≤ b * b ^ ds.length := Nat.mul_le_mul_right _ hd
      _ = b ^ (d :: ds).length := by rw [List.length_cons, pow_succ, Nat.mul_comm]

/-- A digit counts more than all behind it. -/
theorem add_le_add_iff_of_lt {d e x y p : ℕ} (hx : x < p) (hy : y < p) :
    d * p + x ≤ e * p + y ↔ d < e ∨ d = e ∧ x ≤ y := by
  rcases lt_trichotomy d e with hlt | rfl | hgt
  · have hmul : (d + 1) * p ≤ e * p := Nat.mul_le_mul_right p hlt
    have hsucc : (d + 1) * p = d * p + p := by ring
    simp only [hlt, true_or, iff_true]
    omega
  · simp
  · have hmul : (e + 1) * p ≤ d * p := Nat.mul_le_mul_right p hgt
    have hsucc : (e + 1) * p = e * p + p := by ring
    have hne : ¬ d < e ∧ d ≠ e := by omega
    simp only [hne.1, hne.2, false_and, or_false, iff_false]
    omega

/-- A row of digits comes before a row that is not shorter exactly if its number is not greater than the one that
as many first digits of the other write. -/
theorem lt_iff_value_le (hds : ∀ d ∈ ds, d < b) (hes : ∀ e ∈ es, e < b) (hlength : ds.length ≤ es.length)
    (hne : ds ≠ es) : ds < es ↔ value b ds ≤ value b es / b ^ (es.length - ds.length) := by
  induction ds generalizing es with
  | nil =>
    cases es with
    | nil => exact absurd rfl hne
    | cons e es => simp [value]
  | cons d ds ih =>
    cases es with
    | nil => simp at hlength
    | cons e es =>
      have hshorter : ds.length ≤ es.length := by simpa using hlength
      have hpow : b ^ es.length = b ^ ds.length * b ^ (es.length - ds.length) := by
        rw [← pow_add, Nat.add_sub_cancel' hshorter]
      have hbase : 0 < b := Nat.zero_lt_of_lt (hds d List.mem_cons_self)
      have hrest := value_lt fun x hx => hes x (List.mem_cons_of_mem e hx)
      have hfirst : value b es / b ^ (es.length - ds.length) < b ^ ds.length :=
        Nat.div_lt_of_lt_mul (by rw [Nat.mul_comm, ← hpow]; exact hrest)
      have hcut : value b (e :: es) / b ^ ((e :: es).length - (d :: ds).length) =
          e * b ^ ds.length + value b es / b ^ (es.length - ds.length) := by
        rw [value_cons, hpow, List.length_cons, List.length_cons, Nat.add_sub_add_right, ← Nat.mul_assoc,
          Nat.add_comm, Nat.add_mul_div_right _ _ (Nat.pow_pos hbase), Nat.add_comm]
      rw [hcut, value_cons, add_le_add_iff_of_lt (value_lt fun x hx => hds x (List.mem_cons_of_mem d hx)) hfirst,
        List.cons_lt_cons_iff]
      refine or_congr_right (and_congr_right fun hde => ?_)
      subst hde
      exact ih (fun x hx => hds x (List.mem_cons_of_mem d hx)) (fun x hx => hes x (List.mem_cons_of_mem d hx))
        hshorter fun heq => hne (heq ▸ rfl)

end Order

end Numerals
