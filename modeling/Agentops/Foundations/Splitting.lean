import Mathlib.Data.List.Basic
import Mathlib.Data.List.Infix

/-!
# Splitting a text at its separators

A recogniser tells of a text whether it starts with a separator, and what follows that one. Splitting goes
from the left. A text that arrives in parts can be split part by part: the last piece is kept and split
again with what comes next. That gives the pieces of the whole text if an unfinished separator holds no
finished one.
-/

namespace Splitting

variable {A : Type}

/-- What follows the separator that a text starts with. -/
abbrev Recogniser (A : Type) := List A → Option (List A)

/-- The pieces of a text after so many symbols of a separator. -/
def piecesFrom (sep : Recogniser A) : ℕ → List A → List (List A)
  | _, [] => [[]]
  | skip + 1, _ :: rest => piecesFrom sep skip rest
  | 0, a :: rest =>
    match sep (a :: rest) with
    | some after => [] :: piecesFrom sep (rest.length - after.length) rest
    | none => (piecesFrom sep 0 rest).modifyHead (a :: ·)

/-- The pieces between the separators. -/
def split (sep : Recogniser A) (text : List A) : List (List A) := piecesFrom sep 0 text

/-- What recognisers of separators have in common. -/
structure IsSeparator (sep : Recogniser A) : Prop where
  consumes : ∀ {text after}, sep text = some after → ∃ a matched, text = a :: (matched ++ after)
  append : ∀ {text after} more, sep text = some after → sep (text ++ more) = some (after ++ more)
  unfinished : ∀ {text more}, sep text = none → sep (text ++ more) ≠ none →
    ∀ part, part <:+ text → sep part = none

variable {sep : Recogniser A} {a : A} {text rest after : List A}

@[simp] theorem split_nil : split sep [] = [[]] := rfl

/-- Splitting goes on after the symbols of a separator. -/
theorem piecesFrom_eq_split_drop (skip : ℕ) (text : List A) :
    piecesFrom sep skip text = split sep (text.drop skip) := by
  induction text generalizing skip with
  | nil => cases skip <;> rfl
  | cons a rest ih =>
    cases skip with
    | zero => rfl
    | succ skip => exact ih skip

/-- A separator ends the first piece. -/
theorem split_of_some (hsep : IsSeparator sep) (h : sep text = some after) :
    split sep text = [] :: split sep after := by
  obtain ⟨a, matched, rfl⟩ := hsep.consumes h
  have hdrop : (matched ++ after).drop ((matched ++ after).length - after.length) = after := by
    rw [List.length_append, Nat.add_sub_cancel, List.drop_left]
  rw [split, piecesFrom, h]
  simp only
  rw [piecesFrom_eq_split_drop, hdrop]

/-- Any other symbol belongs to the first piece. -/
theorem split_cons_of_none (h : sep (a :: rest) = none) :
    split sep (a :: rest) = (split sep rest).modifyHead (a :: ·) := by
  rw [split, piecesFrom, h]
  rfl

/-- There is always a piece. -/
theorem split_ne_nil (hsep : IsSeparator sep) (text : List A) : split sep text ≠ [] := by
  cases text with
  | nil => simp
  | cons a rest =>
    cases h : sep (a :: rest) with
    | some after => simp [split_of_some hsep h]
    | none =>
      rw [split_cons_of_none h]
      intro hnil
      exact split_ne_nil hsep rest (List.modifyHead_eq_nil_iff.mp hnil)

/-- Symbols at which no separator starts extend the first piece. -/
theorem split_append_of_none {plain : List A}
    (hplain : ∀ a part, a :: part <:+ plain → sep (a :: (part ++ rest)) = none) :
    split sep (plain ++ rest) = (split sep rest).modifyHead (plain ++ ·) := by
  induction plain with
  | nil =>
    simp only [List.nil_append]
    cases split sep rest <;> rfl
  | cons a plain ih =>
    rw [List.cons_append, split_cons_of_none (hplain a plain (List.suffix_refl _)),
      ih fun b part hpart => hplain b part (hpart.trans (List.suffix_cons a plain)), List.modifyHead_modifyHead]
    rfl

/-- So do symbols with which no separator ever starts. -/
theorem split_append_of_plain {plain : List A} (hplain : ∀ a ∈ plain, ∀ rest, sep (a :: rest) = none)
    (rest : List A) : split sep (plain ++ rest) = (split sep rest).modifyHead (plain ++ ·) :=
  split_append_of_none fun a part hpart => hplain a (hpart.subset List.mem_cons_self) (part ++ rest)

/-- A text in which no separator starts is one piece. -/
theorem split_eq_singleton (h : ∀ part, part <:+ text → sep part = none) : split sep text = [text] := by
  induction text with
  | nil => rfl
  | cons a rest ih =>
    rw [split_cons_of_none (h _ (List.suffix_refl _)),
      ih fun part hpart => h part (hpart.trans (List.suffix_cons a rest))]
    rfl

/-- A single piece is the text itself. -/
theorem eq_of_split_eq_singleton (hsep : IsSeparator sep) {piece : List A}
    (h : split sep text = [piece]) : piece = text := by
  induction text generalizing piece with
  | nil => simpa using h.symm
  | cons a rest ih =>
    cases hfound : sep (a :: rest) with
    | some after =>
      rw [split_of_some hsep hfound] at h
      exact absurd (List.cons.inj h).2 (split_ne_nil hsep after)
    | none =>
      rw [split_cons_of_none hfound] at h
      cases hrest : split sep rest with
      | nil => exact absurd hrest (split_ne_nil hsep rest)
      | cons first more =>
        rw [hrest] at h
        obtain ⟨rfl, rfl⟩ := List.cons.inj h
        rw [ih hrest]

/-- What follows a separator is shorter. -/
theorem IsSeparator.length_lt (hsep : IsSeparator sep) (h : sep text = some after) :
    after.length < text.length := by
  obtain ⟨a, matched, rfl⟩ := hsep.consumes h
  simp only [List.length_cons, List.length_append]
  omega

/-- Splitting in two parts: the last piece of the first part is split again with the second part. -/
theorem split_append (hsep : IsSeparator sep) (text more : List A) :
    split sep (text ++ more) =
      (split sep text).dropLast ++ split sep ((split sep text).getLastD [] ++ more) := by
  match text with
  | [] => rfl
  | a :: rest =>
    cases hfound : sep (a :: rest) with
    | some after =>
      have hlt : after.length < (a :: rest).length := hsep.length_lt hfound
      have ih := split_append hsep after more
      obtain ⟨piece, pieces, hpieces⟩ := List.exists_cons_of_ne_nil (split_ne_nil hsep after)
      rw [split_of_some hsep (hsep.append more hfound), split_of_some hsep hfound, ih, hpieces]
      rfl
    | none =>
      cases hmore : sep (a :: rest ++ more) with
      | some after =>
        have hunfinished : sep (a :: rest ++ more) ≠ none :=
          Option.ne_none_iff_exists.mpr ⟨after, hmore.symm⟩
        rw [split_eq_singleton (hsep.unfinished hfound hunfinished)]
        rfl
      | none =>
        have ih := split_append hsep rest more
        have hsplit := split_cons_of_none hfound
        have hsplitMore :
            split sep (a :: rest ++ more) = (split sep (rest ++ more)).modifyHead (a :: ·) :=
          split_cons_of_none hmore
        cases hpieces : split sep rest with
        | nil => exact absurd hpieces (split_ne_nil hsep rest)
        | cons piece pieces =>
          cases pieces with
          | nil =>
            obtain rfl : piece = rest := eq_of_split_eq_singleton hsep hpieces
            rw [hsplit, hpieces]
            rfl
          | cons next pieces =>
            rw [hsplitMore, ih, hsplit, hpieces]
            rfl
termination_by text.length
decreasing_by
  · exact Nat.lt_succ_self rest.length
  · exact hsep.length_lt hfound

/-- The last piece holds no separator. -/
theorem split_getLastD (hsep : IsSeparator sep) (text : List A) :
    split sep ((split sep text).getLastD []) = [(split sep text).getLastD []] := by
  have hlast : (split sep text).dropLast ++ [(split sep text).getLastD []] = split sep text := by
    rw [List.getLastD_eq_getLast?, List.getLast?_eq_some_getLast (split_ne_nil hsep text)]
    exact List.dropLast_concat_getLast (split_ne_nil hsep text)
  have happend := split_append hsep text []
  rw [List.append_nil, List.append_nil] at happend
  exact List.append_cancel_left (happend.symm.trans hlast.symm)

end Splitting
