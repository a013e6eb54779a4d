import Mathlib.Data.Char
import Mathlib.Data.List.Basic
import Mathlib.Tactic.Common

/-!
# The case of ASCII letters

Two texts are variants of each other if they differ in the case of ASCII letters only. A text of other
characters has no other variant.
-/

namespace LetterCase

/-- The texts are the same but for the case of letters. -/
def Variant (variant text : List Char) : Prop := variant.map Char.toLower = text.map Char.toLower

instance (variant text : List Char) : Decidable (Variant variant text) :=
  inferInstanceAs (Decidable (variant.map Char.toLower = text.map Char.toLower))

variable {c d : Char} {text variant first second : List Char}

/-- The number of the small form of a character. -/
theorem toNat_toLower (c : Char) :
    c.toLower.toNat = if 65 ≤ c.toNat ∧ c.toNat ≤ 90 then c.toNat + 32 else c.toNat := by
  have hlow : c.val ≥ 'A'.val ↔ 65 ≤ c.toNat := UInt32.le_iff_toNat_le
  have hhigh : c.val ≤ 'Z'.val ↔ c.toNat ≤ 90 := UInt32.le_iff_toNat_le
  unfold Char.toLower
  simp only [hlow, hhigh]
  by_cases hcapital : 65 ≤ c.toNat ∧ c.toNat ≤ 90
  · rw [dif_pos hcapital, if_pos hcapital]
    change (c.val + 32).toNat = c.val.toNat + 32
    have hle : c.val.toNat ≤ 90 := hcapital.2
    rw [UInt32.toNat_add]
    exact Nat.mod_eq_of_lt (by simp; omega)
  · rw [dif_neg hcapital, if_neg hcapital]

/-- A capital and its small form are the only characters with that small form. -/
theorem toLower_eq_iff_of_capital (hd : 65 ≤ d.toNat ∧ d.toNat ≤ 90) :
    c.toLower = d.toLower ↔ c = d ∨ c = d.toLower := by
  rw [← Char.toNat_inj, ← Char.toNat_inj, ← Char.toNat_inj, toNat_toLower, toNat_toLower, if_pos hd]
  split <;> omega

/-- A character that is no letter is the only one with its small form. -/
theorem toLower_eq_iff_of_noLetter (hd : d.toNat < 65 ∨ 122 < d.toNat) : c.toLower = d.toLower ↔ c = d := by
  rw [← Char.toNat_inj, ← Char.toNat_inj, toNat_toLower, toNat_toLower]
  split <;> split <;> omega

/-- A variant of two texts is a variant of the first and one of the second. -/
theorem Variant.exists_append (h : Variant variant (first ++ second)) :
    ∃ before behind, variant = before ++ behind ∧ Variant before first ∧ Variant behind second := by
  unfold Variant at h
  rw [List.map_append] at h
  obtain ⟨before, behind, rfl, hbefore, hbehind⟩ := List.map_eq_append_iff.mp h
  exact ⟨before, behind, rfl, hbefore, hbehind⟩

/-- A text without letters is its only variant. -/
theorem Variant.eq_of_noLetter (h : Variant variant text) (htext : ∀ c ∈ text, c.toNat < 65 ∨ 122 < c.toNat) :
    variant = text := by
  induction text generalizing variant with
  | nil => exact List.map_eq_nil_iff.mp h
  | cons d text ih =>
    cases variant with
    | nil => cases h
    | cons c variant =>
      obtain ⟨hfirst, hrest⟩ := List.cons.inj h
      rw [(toLower_eq_iff_of_noLetter (htext d List.mem_cons_self)).mp hfirst,
        ih hrest fun e he => htext e (List.mem_cons_of_mem _ he)]

end LetterCase
